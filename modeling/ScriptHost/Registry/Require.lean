import ScriptHost.Registry.Resolve
/-!
Requiring a module. A module is evaluated once in a generation: its exports are kept in a table, and
later requires find them there. A module that is required while it is being evaluated, by itself or by
what it requires, is a loop. The steps are stated over any engine that can run a wrapper.
-/

namespace ScriptHost.Registry

/-- What a require asks of the engine that runs the modules. A failing step ends the require. -/
structure Runner (m : Type → Type) (Value : Type) where
  /-- The record that a specifier leads to, as required from a record. -/
  resolve : (parent : Nat) → (specifier : String) → m Nat
  /-- A record as it is. -/
  record : Nat → m Module
  /-- The number of the generation. -/
  generation : m Nat
  /-- The table of exports. -/
  table : m Value
  /-- The exports that a table has under a key. -/
  exports? : (table : Value) → (key : String) → m (Option Value)
  /-- The compiled wrapper of a record. -/
  compile : Nat → m Program
  /-- Run a wrapper with a `require` for the record below the modules of a chain; its exports. -/
  evaluate : Program → (i : Nat) → (chain : List String) → m Value
  /-- Keep exports in a table. -/
  keep : (table : Value) → (key : String) → (exports : Value) → m Unit
  /-- Note that a generation has evaluated a record. -/
  mark : (i generation : Nat) → m Unit
  /-- End with a failure. -/
  fail : {α : Type} → Failure → m α

/-- Require a module from a record; `chain` holds the keys of the modules that are being evaluated. -/
def require {m : Type → Type} [Monad m] {Value : Type} (run : Runner m Value) (parent : Nat)
    (chain : List String) (specifier : String) : m Value := do
  let i ← run.resolve parent specifier
  let record ← run.record i
  let generation ← run.generation
  let table ← run.table
  let kept ← if record.evaluatedIn = generation then run.exports? table record.key else pure none
  match kept with
  | some exports => return exports
  | none =>
    let program ← run.compile i
    if chain.contains record.key then run.fail (.requireLoop record.key)
    let exports ← run.evaluate program i (chain ++ [record.key])
    run.keep table record.key exports
    run.mark i generation
    return exports

/-- What is wrong with the arguments of a require, by their number. -/
def wrongCount (n : Nat) : Failure :=
  .invalidRequire ("require expects exactly one argument, got " ++ toString n)

/-- The specifier is blank. -/
def blankSpecifier : Failure := .invalidRequire "require argument cannot be blank"

/-- The name of a module to be registered is blank. -/
def blankName : Failure := .invalidRequire "module name cannot be blank"

end ScriptHost.Registry
