import ScriptHost.Registry.Require
import ScriptHost.Text.Blank
import ScriptHost.Proofs.Registry.Growth
import ScriptHost.Proofs.Registry.Walk
/-!
Requires that nest. The body of a module is a script that asks its own `require` for modules, one after
another, and may look at what comes of that before it goes on. How deep requires can nest is bounded by the
stack of the engine. The table of exports is an object: besides the keys that were set it has the
properties of its prototype, and one key stands for the prototype itself.
-/
namespace ScriptHost.Registry

/-- What a script is ended by. -/
inductive Thrown (Value : Type) where
  | failure (f : Failure)
  | value (v : Value)
  /-- The stack of the engine is used up. -/
  | overflow

/-- What a body does: it ends with the exports of its module or throws, or it requires a module and goes on
    with what comes of that. -/
inductive Script (Value : Type) where
  | ends (r : Except (Thrown Value) Value)
  | requires (specifier : String) (next : Except (Thrown Value) Value → Script Value)

/-- A body that requires modules one after another, catches nothing, and then ends or throws a value. -/
def Script.plain {Value : Type} (ending : Except Value Value) : List String → Script Value
  | [] => .ends (ending.mapError .value)
  | specifier :: rest => .requires specifier fun
    | .ok _ => plain ending rest
    | .error e => .ends (.error e)

/-- What an engine runs modules with. -/
structure Engine (Value : Type) where
  files : Files
  check : Checker
  generation : Nat
  started : 0 < generation
  /-- What the wrapper of a module does when it is run. -/
  script : Program → Script Value
  table : Value
  /-- The properties that the table of exports has from its prototype. -/
  inherited : (prototype : Value) → (key : String) → Option Value

/-- What requires work on. -/
structure Stage (Value : Type) where
  registry : Registry
  /-- The keys of the table of exports that were set. -/
  exports : List (String × Value)
  prototype : Value
  /-- What happened to bodies, newest first. -/
  log : List Happening

/-- A step of an engine: it may throw. -/
abbrev Act (Value : Type) := ExceptT (Thrown Value) (StateM (Stage Value))

/-- What a step comes to. -/
def Act.outcome {Value α : Type} (x : Act Value α) (st : Stage Value) :
    Except (Thrown Value) α × Stage Value :=
  x.run.run st

/-- The key of a table that stands for its prototype. -/
def prototypeKey : String := "__proto__"

/-- Run a script with a `require`. -/
def Script.run {Value : Type} (require : String → Act Value Value) : Script Value → Act Value Value
  | .ends r => ExceptT.mk (pure r)
  | .requires specifier next => ExceptT.mk do
    let r ← (require specifier).run
    ((next r).run require).run

/-- The value of an outcome, or its failure thrown into the script. -/
def orThrow {Value α : Type} : Except Failure α → Act Value α
  | .ok a => pure a
  | .error f => throw (.failure f)

namespace Engine
variable {Value : Type}

/-- The engine as a runner of modules. -/
def runner (e : Engine Value) (evaluate : Program → Nat → List String → Act Value Value) :
    Runner (Act Value) Value where
  resolve parent specifier := do
    let st ← get
    let (found,registry,_) := st.registry.resolve e.files parent specifier
    set { st with registry }
    orThrow found
  record i := return (← get).registry.record i
  generation := return e.generation
  table := return e.table
  exports? _ key := do
    let st ← get
    return if key = prototypeKey then some st.prototype
      else (st.exports.lookup key).or (e.inherited st.prototype key)
  compile i := do
    let st ← get
    let (found,registry) := st.registry.compileModule e.check i
    set { st with registry }
    orThrow found
  evaluate := evaluate
  keep _ key exports := modify fun st =>
    if key = prototypeKey then { st with prototype := exports }
    else { st with exports := (key,exports) :: st.exports.filter (·.1 ≠ key) }
  mark i generation := modify fun st => { st with registry := st.registry.markEvaluated i generation }
  fail f := throw (.failure f)

/-- The `require` for a record below the modules of a chain, over what runs wrappers. -/
def ask (e : Engine Value) (evaluate : Program → Nat → List String → Act Value Value) (parent : Nat)
    (chain : List String) (specifier : String) : Act Value Value :=
  if Text.allBlank specifier then throw (.failure blankSpecifier)
  else require (e.runner evaluate) parent chain specifier

/-- Run the wrapper of a record while so many more wrappers can be run inside it. -/
def evaluate (e : Engine Value) : Nat → Program → Nat → List String → Act Value Value
  | 0, _, _, _ => throw .overflow
  | depth+1, program, i, chain => do
    let key := ((← get).registry.record i).key
    modify fun st => { st with log := .began key :: st.log }
    let exports ← (e.script program).run (e.ask (e.evaluate depth) i chain)
    modify fun st => { st with log := .ended key :: st.log }
    return exports

/-- Require a module from the main script. -/
def main (e : Engine Value) (depth : Nat) (specifier : String) (st : Stage Value) :
    Except (Thrown Value) Value × Stage Value :=
  (e.ask (e.evaluate depth) st.registry.main [] specifier).outcome st

end Engine

/-! ### What a require comes to -/

section
variable {Value α β : Type}

@[simp] theorem Act.outcome_pure (a : α) (st : Stage Value) : (pure a : Act Value α).outcome st = (.ok a,st) := rfl
@[simp] theorem Act.outcome_throw (x : Thrown Value) (st : Stage Value) :
    (throw x : Act Value α).outcome st = (.error x,st) := rfl
@[simp] theorem Act.outcome_get (st : Stage Value) : (get : Act Value (Stage Value)).outcome st = (.ok st,st) := rfl
@[simp] theorem Act.outcome_set (st t : Stage Value) : (set t : Act Value Unit).outcome st = (.ok (),t) := rfl
@[simp] theorem Act.outcome_modify (f : Stage Value → Stage Value) (st : Stage Value) :
    (modify f : Act Value Unit).outcome st = (.ok (),f st) := rfl

@[simp] theorem Act.outcome_bind (x : Act Value α) (f : α → Act Value β) (st : Stage Value) :
    (x >>= f).outcome st = match x.outcome st with
      | (.ok a,t) => (f a).outcome t
      | (.error e,t) => (.error e,t) := by
  unfold outcome
  simp only [ExceptT.run_bind,StateT.run_bind]
  show (match x.run.run st with | (r,t) => _) = _
  rcases x.run.run st with ⟨_ | a,t⟩ <;> rfl

end

section
variable {Value : Type} {e : Engine Value} {evaluate : Program → Nat → List String → Act Value Value}
  {parent i : Nat} {chain : List String} {specifier : String} {st : Stage Value} {r : Registry}
  {accesses : List Access}

/-- A module that this generation has evaluated is found in the table. -/
theorem ask_known {v : Value} (visible : Text.allBlank specifier = false)
    (resolved : st.registry.resolve e.files parent specifier = (.ok i,r,accesses))
    (evaluated : (r.record i).evaluatedIn = e.generation) (proper : (r.record i).key ≠ prototypeKey)
    (kept : st.exports.lookup (r.record i).key = some v) :
    (e.ask evaluate parent chain specifier).outcome st = (.ok v,{ st with registry := r }) := by
  simp [Engine.ask,visible,require,Engine.runner,resolved,orThrow,evaluated,proper,kept]

/-- A module that this generation has not evaluated is compiled. -/
theorem ask_loops {p : Program} {t : Registry} (visible : Text.allBlank specifier = false)
    (resolved : st.registry.resolve e.files parent specifier = (.ok i,r,accesses))
    (unevaluated : (r.record i).evaluatedIn ≠ e.generation)
    (compiled : r.compileModule e.check i = (.ok p,t)) (active : (r.record i).key ∈ chain) :
    (e.ask evaluate parent chain specifier).outcome st =
      (.error (.failure (.requireLoop (r.record i).key)),{ st with registry := t }) := by
  simp [Engine.ask,visible,require,Engine.runner,resolved,orThrow,unevaluated,compiled,active]

theorem ask_fresh {p : Program} {t : Registry} (visible : Text.allBlank specifier = false)
    (resolved : st.registry.resolve e.files parent specifier = (.ok i,r,accesses))
    (unevaluated : (r.record i).evaluatedIn ≠ e.generation)
    (compiled : r.compileModule e.check i = (.ok p,t)) (apart : (r.record i).key ∉ chain)
    (proper : (r.record i).key ≠ prototypeKey) :
    (e.ask evaluate parent chain specifier).outcome st =
      match (evaluate p i (chain ++ [(r.record i).key])).outcome { st with registry := t } with
      | (.error x,u) => (.error x,u)
      | (.ok v,u) => (.ok v,{ u with
        exports := ((r.record i).key,v) :: u.exports.filter (·.1 ≠ (r.record i).key)
        registry := u.registry.markEvaluated i e.generation }) := by
  simp [Engine.ask,visible,require,Engine.runner,resolved,orThrow,unevaluated,compiled,apart,proper]
  rcases (evaluate p i (chain ++ [(r.record i).key])).outcome { st with registry := t } with ⟨x | v,u⟩ <;> rfl

theorem Script.outcome_ends (require : String → Act Value Value) (r : Except (Thrown Value) Value) :
    ((Script.ends r).run require).outcome st = (r,st) := rfl

theorem Script.outcome_requires (require : String → Act Value Value) (specifier : String)
    (next : Except (Thrown Value) Value → Script Value) :
    ((Script.requires specifier next).run require).outcome st =
      ((next ((require specifier).outcome st).1).run require).outcome ((require specifier).outcome st).2 := rfl

theorem Script.outcome_plain (ending : Except Value Value) (require : String → Act Value Value) (rest : List String) :
    ((Script.plain ending (specifier :: rest)).run require).outcome st =
      match (require specifier).outcome st with
      | (.ok _,t) => ((Script.plain ending rest).run require).outcome t
      | (.error x,t) => (.error x,t) := by
  show ((Script.requires specifier _).run require).outcome st = _
  rw [outcome_requires]
  rcases (require specifier).outcome st with ⟨x | v,t⟩ <;> rfl

theorem evaluate_succ (depth : Nat) (p : Program) :
    (e.evaluate (depth+1) p i chain).outcome st =
      match ((e.script p).run (e.ask (e.evaluate depth) i chain)).outcome
          { st with log := .began (st.registry.record i).key :: st.log } with
      | (.error x,u) => (.error x,u)
      | (.ok v,u) => (.ok v,{ u with log := .ended (st.registry.record i).key :: u.log }) := by
  simp [Engine.evaluate]
  rcases ((e.script p).run (e.ask (e.evaluate depth) i chain)).outcome
    { st with log := .began (st.registry.record i).key :: st.log } with ⟨x | v,u⟩ <;> rfl

end

end ScriptHost.Registry
