import ScriptHost.Proofs.Registry.Nesting
/-!
One generation of an interpreter. Scripts and the bodies of modules may ask every `require` that they can get hold of,
their own one, that of the main script or that of another module. They may register modules in between, catch what is
thrown, and share a world of values, in which the files may change as well. The table of exports is an object: the
keys that were set are its own properties; what it has for other keys and what becomes of a value that is assigned to
them may be up to getters and setters of its prototype, which are code too. The log tells which bodies were evaluated,
what they came to, and what each require answered.
-/
namespace ScriptHost.Registry

/-- What a script, the body of a module, a getter or a setter does. -/
inductive Code (σ Value : Type) where
  | ends (result : Except (Thrown Value) Value)
  /-- Ask the `require` of a record below the modules of a chain. -/
  | requires (parent : Nat) (chain : List String) (specifier : String)
    (next : Except (Thrown Value) Value → Code σ Value)
  | registers (name body : String) (directory : Option Path) (next : Code σ Value)
  /-- Look at the keys of all modules. -/
  | lists (next : List String → Code σ Value)
  | looks (next : σ → Code σ Value)
  | changes (world : σ) (next : Code σ Value)

/-- What an interpreter runs modules with. -/
structure Realm (σ Value : Type) where
  files : σ → Files
  check : Checker
  generation : Nat
  started : 0 < generation
  /-- What a wrapper does that is run with the `require` for a record below the modules of a chain; it ends with what
  the exports of the module are then. -/
  body : Program → Nat → List String → Code σ Value
  table : Value
  /-- How the table comes to a value for a key that is none of its own, if its prototype has the key. -/
  inherits : σ → String → Option (Code σ Value)
  /-- What an assignment to a key does that is none of the own ones; a key that is none of the prototype's becomes an
  own one. -/
  assigns : σ → String → Value → Option (Code σ Value)

/-- What happened in a generation. The evaluations are numbered. -/
inductive Report (Value : Type) where
  | began (n i : Nat) (key : String)
  | ended (n i : Nat) (key : String) (exports : Value)
  | answered (i : Nat) (key : String) (value : Value)
  deriving DecidableEq

/-- How far a generation has come. -/
structure Era (σ Value : Type) where
  registry : Registry
  world : σ
  /-- The own properties of the table of exports. -/
  exports : List (String × Value)
  /-- The number of evaluations that have begun. -/
  begun : Nat
  /-- What happened, newest first. -/
  log : List (Report Value)

/-- A step of an interpreter: it may throw. -/
abbrev Deed (σ Value : Type) := ExceptT (Thrown Value) (StateM (Era σ Value))

/-- What a step comes to. -/
def Deed.outcome {σ Value α : Type} (x : Deed σ Value α) (s : Era σ Value) : Except (Thrown Value) α × Era σ Value :=
  x.run.run s

/-- The value of an outcome, or its failure thrown into the script. -/
def Deed.orThrow {σ Value α : Type} : Except Failure α → Deed σ Value α
  | .ok a => pure a
  | .error f => throw (.failure f)

/-- Let code run, given what a `require` does. -/
def Code.play {σ Value : Type} (ask : Nat → List String → String → Deed σ Value Value) :
    Code σ Value → Deed σ Value Value
  | .ends result => ExceptT.mk (pure result)
  | .requires parent chain specifier next => ExceptT.mk do
    let result ← (ask parent chain specifier).run
    ((next result).play ask).run
  | .registers name body directory next => do
    modify fun s => { s with registry := s.registry.setModule (.named name body directory) }
    next.play ask
  | .lists next => do (next (← get).registry.keys).play ask
  | .looks next => do (next (← get).world).play ask
  | .changes world next => do
    modify fun s => { s with world }
    next.play ask

namespace Realm
variable {σ Value : Type}

/-- Run the wrapper of a record. -/
def evaluate (e : Realm σ Value) (ask : Nat → List String → String → Deed σ Value Value) (program : Program) (i : Nat)
    (chain : List String) : Deed σ Value Value := do
  let s ← get
  let key := (s.registry.record i).key
  set { s with begun := s.begun+1, log := .began s.begun i key :: s.log }
  let exports ← (e.body program i chain).play ask
  modify fun t => { t with log := .ended s.begun i key exports :: t.log }
  return exports

/-- The interpreter as a runner of modules. -/
def runner (e : Realm σ Value) (ask : Nat → List String → String → Deed σ Value Value) :
    Runner (Deed σ Value) Value where
  resolve parent specifier := do
    let s ← get
    let (found,registry,_) := s.registry.resolve (e.files s.world) parent specifier
    set { s with registry }
    Deed.orThrow found
  record i := return (← get).registry.record i
  generation := return e.generation
  table := return e.table
  exports? _ key := do
    let s ← get
    match s.exports.lookup key with
    | some v => return some v
    | none =>
      match e.inherits s.world key with
      | some code => some <$> code.play ask
      | none => return none
  compile i := do
    let s ← get
    let (found,registry) := s.registry.compileModule e.check i
    set { s with registry }
    Deed.orThrow found
  evaluate := e.evaluate ask
  keep _ key exports := do
    let s ← get
    match s.exports.lookup key, e.assigns s.world key exports with
    | none, some code => (fun _ => ()) <$> code.play ask
    | _, _ => set { s with exports := (key,exports) :: s.exports.filter (·.1 ≠ key) }
  mark i generation := modify fun s => { s with registry := s.registry.markEvaluated i generation }
  fail f := throw (.failure f)

/-- The `require` for a record below the modules of a chain, while so many more calls can nest. Its answer is noted
together with the record to which the specifier leads. -/
def ask (e : Realm σ Value) : Nat → Nat → List String → String → Deed σ Value Value
  | 0, _, _, _ => throw .overflow
  | depth+1, parent, chain, specifier => do
    if Text.allBlank specifier then throw (.failure blankSpecifier)
    let s ← get
    let value ← require (e.runner (e.ask depth)) parent chain specifier
    if let .ok i := (s.registry.resolve (e.files s.world) parent specifier).1 then
      modify fun t => { t with log := .answered i (t.registry.record i).key value :: t.log }
    return value

/-- The state after some code has run, the calls being at most so deep. -/
def after (e : Realm σ Value) (depth : Nat) (code : Code σ Value) (s : Era σ Value) : Era σ Value :=
  ((code.play (e.ask depth)).outcome s).2

end Realm

/-! ### What a require comes to -/

section
variable {σ Value α β : Type} {s : Era σ Value}

@[simp] theorem Deed.outcome_pure (a : α) : (pure a : Deed σ Value α).outcome s = (.ok a,s) := rfl
@[simp] theorem Deed.outcome_throw (x : Thrown Value) : (throw x : Deed σ Value α).outcome s = (.error x,s) := rfl
@[simp] theorem Deed.outcome_get : (get : Deed σ Value (Era σ Value)).outcome s = (.ok s,s) := rfl
@[simp] theorem Deed.outcome_set (t : Era σ Value) : (set t : Deed σ Value Unit).outcome s = (.ok (),t) := rfl
@[simp] theorem Deed.outcome_modify (f : Era σ Value → Era σ Value) :
    (modify f : Deed σ Value Unit).outcome s = (.ok (),f s) := rfl

@[simp] theorem Deed.outcome_bind (x : Deed σ Value α) (f : α → Deed σ Value β) :
    (x >>= f).outcome s = match x.outcome s with
      | (.ok a,t) => (f a).outcome t
      | (.error thrown,t) => (.error thrown,t) := by
  unfold outcome
  simp only [ExceptT.run_bind,StateT.run_bind]
  show (match x.run.run s with | (r,t) => _) = _
  rcases x.run.run s with ⟨_ | a,t⟩ <;> rfl

@[simp] theorem Deed.outcome_map (f : α → β) (x : Deed σ Value α) :
    (f <$> x).outcome s = match x.outcome s with
      | (.ok a,t) => (.ok (f a),t)
      | (.error thrown,t) => (.error thrown,t) := by
  rw [← bind_pure_comp,outcome_bind]
  rfl

theorem Deed.state_map (f : α → β) (x : Deed σ Value α) : ((f <$> x).outcome s).2 = (x.outcome s).2 := by
  rw [outcome_map]
  rcases x.outcome s with ⟨_ | a,t⟩ <;> rfl

end

section
variable {σ Value : Type} {e : Realm σ Value} {depth parent i : Nat} {chain : List String} {specifier : String}
  {s : Era σ Value} {r : Registry} {accesses : List Access}

theorem Realm.outcome_resolve (ask : Nat → List String → String → Deed σ Value Value)
    {found : Except Failure Nat}
    (resolved : s.registry.resolve (e.files s.world) parent specifier = (found,r,accesses)) :
    ((e.runner ask).resolve parent specifier).outcome s = (found.mapError .failure,{ s with registry := r }) := by
  simp only [runner,Deed.outcome_bind,Deed.outcome_get,resolved,Deed.outcome_set]
  cases found <;> rfl

theorem Realm.outcome_compile (ask : Nat → List String → String → Deed σ Value Value)
    {found : Except Failure Program} (compiled : s.registry.compileModule e.check i = (found,r)) :
    ((e.runner ask).compile i).outcome s = (found.mapError .failure,{ s with registry := r }) := by
  simp only [runner,Deed.outcome_bind,Deed.outcome_get,compiled,Deed.outcome_set]
  cases found <;> rfl

/-- Where a key is own, or is not up to the prototype of the table, the value that is assigned to it is kept. -/
theorem Realm.outcome_keep (ask : Nat → List String → String → Deed σ Value Value) {key : String} {v : Value}
    (plain : s.exports.lookup key = none → e.assigns s.world key v = none) :
    ((e.runner ask).keep e.table key v).outcome s =
      (.ok (),{ s with exports := (key,v) :: s.exports.filter (·.1 ≠ key) }) := by
  simp only [runner,Deed.outcome_bind,Deed.outcome_get]
  cases own : s.exports.lookup key with
  | some old => rfl
  | none => simp only [plain own]; rfl

/-- A value that is assigned is kept, or a setter runs. -/
theorem Realm.keep_cases (ask : Nat → List String → String → Deed σ Value Value) (key : String) (v : Value) :
    ((e.runner ask).keep e.table key v).outcome s =
      (.ok (),{ s with exports := (key,v) :: s.exports.filter (·.1 ≠ key) }) ∨
    ∃ code : Code σ Value, e.assigns s.world key v = some code ∧
      ((e.runner ask).keep e.table key v).outcome s = ((fun _ => ()) <$> code.play ask : Deed σ Value Unit).outcome s := by
  cases assigns : e.assigns s.world key v with
  | none => exact .inl (outcome_keep ask fun _ => assigns)
  | some code =>
    cases own : s.exports.lookup key with
    | some old => exact .inl (outcome_keep ask fun unset => nomatch own.symm.trans unset)
    | none =>
      refine .inr ⟨code,rfl,?_⟩
      simp only [runner,own,assigns,Deed.outcome_bind,Deed.outcome_get]

/-- The body of a module runs between two reports. -/
theorem Realm.outcome_evaluate (ask : Nat → List String → String → Deed σ Value Value) (p : Program) :
    (e.evaluate ask p i chain).outcome s =
      match ((e.body p i chain).play ask).outcome
          { s with begun := s.begun+1, log := .began s.begun i (s.registry.record i).key :: s.log } with
      | (.ok v,u) => (.ok v,{ u with log := .ended s.begun i (s.registry.record i).key v :: u.log })
      | (.error x,u) => (.error x,u) := by
  simp only [evaluate,Deed.outcome_bind,Deed.outcome_get,Deed.outcome_set]
  rcases ((e.body p i chain).play ask).outcome
    { s with begun := s.begun+1, log := .began s.begun i (s.registry.record i).key :: s.log } with ⟨x | v,u⟩ <;> rfl

/-- The exports that a generation has of a module. -/
def Realm.kept (e : Realm σ Value) (ask : Nat → List String → String → Deed σ Value Value) (m : Module) :
    Deed σ Value (Option Value) :=
  if m.evaluatedIn = e.generation then (e.runner ask).exports? e.table m.key else pure none

/-- Evaluate a module, keep its exports and mark it. -/
def Realm.renew (e : Realm σ Value) (ask : Nat → List String → String → Deed σ Value Value) (chain : List String)
    (i : Nat) (m : Module) : Deed σ Value Value := do
  let program ← (e.runner ask).compile i
  if chain.contains m.key then throw (.failure (.requireLoop m.key))
  let exports ← e.evaluate ask program i (chain ++ [m.key])
  (e.runner ask).keep e.table m.key exports
  modify fun s => { s with registry := s.registry.markEvaluated i e.generation }
  return exports

theorem Realm.outcome_renew_uncompiled (ask : Nat → List String → String → Deed σ Value Value) {f : Failure} {m : Module}
    (failed : s.registry.compileModule e.check i = (.error f,r)) :
    (e.renew ask chain i m).outcome s = (.error (.failure f),{ s with registry := r }) := by
  simp only [renew,Deed.outcome_bind,outcome_compile ask failed,Except.mapError]

theorem Realm.outcome_renew_loops (ask : Nat → List String → String → Deed σ Value Value) {p : Program} {m : Module}
    (compiled : s.registry.compileModule e.check i = (.ok p,r)) (active : m.key ∈ chain) :
    (e.renew ask chain i m).outcome s = (.error (.failure (.requireLoop m.key)),{ s with registry := r }) := by
  have found : chain.contains m.key = true := by simpa using active
  simp only [renew,Deed.outcome_bind,outcome_compile ask compiled,Except.mapError,found,if_true,Deed.outcome_throw]

theorem Realm.outcome_renew (ask : Nat → List String → String → Deed σ Value Value) {p : Program} {m : Module}
    (compiled : s.registry.compileModule e.check i = (.ok p,r)) (apart : m.key ∉ chain) :
    (e.renew ask chain i m).outcome s =
      match (e.evaluate ask p i (chain ++ [m.key])).outcome { s with registry := r } with
      | (.ok v,u) =>
        match ((e.runner ask).keep e.table m.key v).outcome u with
        | (.ok _,w) => (.ok v,{ w with registry := w.registry.markEvaluated i e.generation })
        | (.error x,w) => (.error x,w)
      | (.error x,u) => (.error x,u) := by
  have unfound : chain.contains m.key = false := by simpa using apart
  simp only [renew,Deed.outcome_bind,outcome_compile ask compiled,Except.mapError,unfound,Bool.false_eq_true,if_false]
  rcases (e.evaluate ask p i (chain ++ [m.key])).outcome { s with registry := r } with ⟨x | v,u⟩
  · rfl
  · simp only
    rcases ((e.runner ask).keep e.table m.key v).outcome u with ⟨x | v,w⟩ <;> rfl

/-- Answer with the exports that there are, or with those of an evaluation. -/
def Realm.serve (e : Realm σ Value) (ask : Nat → List String → String → Deed σ Value Value) (chain : List String)
    (i : Nat) : Deed σ Value Value := do
  let m := (← get).registry.record i
  match ← e.kept ask m with
  | some exports => return exports
  | none => e.renew ask chain i m

theorem Realm.require_eq (e : Realm σ Value) (ask : Nat → List String → String → Deed σ Value Value) :
    require (e.runner ask) parent chain specifier =
      (e.runner ask).resolve parent specifier >>= e.serve ask chain := by
  unfold require
  refine congrArg (_ >>= ·) (funext fun i => ?_)
  have record : (e.runner ask).record i = get >>= fun s => pure (s.registry.record i) := rfl
  have generation : (e.runner ask).generation = pure e.generation := rfl
  have table : (e.runner ask).table = pure e.table := rfl
  rw [record,generation,table]
  unfold serve kept renew
  simp only [bind_assoc,pure_bind]
  refine congrArg (_ >>= ·) (funext fun s => ?_)
  split
  · refine congrArg (_ >>= ·) (funext fun found => ?_)
    rcases found with _ | v <;> rfl
  · rfl

/-- A module whose exports are kept is not evaluated again. Where the generation has none, the table has none either,
unless it goes by its prototype. -/
theorem Realm.serve_cases (ask : Nat → List String → String → Deed σ Value Value) (chain : List String) (i : Nat) :
    (∃ v, (s.registry.record i).evaluatedIn = e.generation ∧ s.exports.lookup (s.registry.record i).key = some v ∧
      (e.serve ask chain i).outcome s = (.ok v,s)) ∨
    (∃ code : Code σ Value, (s.registry.record i).evaluatedIn = e.generation ∧
      s.exports.lookup (s.registry.record i).key = none ∧
      e.inherits s.world (s.registry.record i).key = some code ∧
      (e.serve ask chain i).outcome s = (code.play ask).outcome s) ∨
    (((s.registry.record i).evaluatedIn = e.generation → s.exports.lookup (s.registry.record i).key = none) ∧
      (e.serve ask chain i).outcome s = (e.renew ask chain i (s.registry.record i)).outcome s) := by
  simp only [serve,kept,Deed.outcome_bind,Deed.outcome_get]
  by_cases evaluated : (s.registry.record i).evaluatedIn = e.generation
  · simp only [if_pos evaluated,runner,Deed.outcome_bind,Deed.outcome_get]
    cases own : s.exports.lookup (s.registry.record i).key with
    | some v => exact .inl ⟨v,evaluated,rfl,rfl⟩
    | none =>
      simp only
      cases inherits : e.inherits s.world (s.registry.record i).key with
      | some code =>
        refine .inr (.inl ⟨code,evaluated,trivial,rfl,?_⟩)
        simp only [Deed.outcome_map]
        rcases (code.play ask).outcome s with ⟨x | v,t⟩ <;> rfl
      | none => exact .inr (.inr ⟨fun _ => trivial,rfl⟩)
  · rw [if_neg evaluated]
    exact .inr (.inr ⟨fun same => absurd same evaluated,rfl⟩)

theorem Realm.outcome_ask_blank (blank : Text.allBlank specifier = true) :
    (e.ask (depth+1) parent chain specifier).outcome s = (.error (.failure blankSpecifier),s) := by
  simp only [ask,blank,if_true,Deed.outcome_bind,Deed.outcome_throw]

theorem Realm.outcome_ask_unresolved {f : Failure} (visible : Text.allBlank specifier = false)
    (resolved : s.registry.resolve (e.files s.world) parent specifier = (.error f,r,accesses)) :
    (e.ask (depth+1) parent chain specifier).outcome s = (.error (.failure f),{ s with registry := r }) := by
  simp only [ask,visible,Bool.false_eq_true,if_false,require_eq,Deed.outcome_bind,Deed.outcome_get,
    outcome_resolve (e.ask depth) resolved,Except.mapError]

/-- A module that was found is served, and the answer is noted. -/
theorem Realm.outcome_ask (visible : Text.allBlank specifier = false)
    (resolved : s.registry.resolve (e.files s.world) parent specifier = (.ok i,r,accesses)) :
    (e.ask (depth+1) parent chain specifier).outcome s =
      match (e.serve (e.ask depth) chain i).outcome { s with registry := r } with
      | (.ok v,t) => (.ok v,{ t with log := .answered i (t.registry.record i).key v :: t.log })
      | (.error x,t) => (.error x,t) := by
  simp only [ask,visible,Bool.false_eq_true,if_false,require_eq,Deed.outcome_bind,Deed.outcome_get,
    outcome_resolve (e.ask depth) resolved,Except.mapError,resolved]
  rcases (e.serve (e.ask depth) chain i).outcome { s with registry := r } with ⟨x | v,t⟩ <;> rfl

end

end ScriptHost.Registry
