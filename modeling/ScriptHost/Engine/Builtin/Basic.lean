import ScriptHost.Engine.Eval.Function
/-!
What a function of the engine is given when it is called, and small steps that many of them take.
-/

namespace ScriptHost.Engine

/-- A call of a function of the engine. -/
structure Invocation where
  callee : Value
  this : Value
  args : Array Value
  /-- What `new` was applied to; undefined in a plain call. -/
  newTarget : Value
  /-- The values that the function keeps. -/
  kept : Array Value
  deriving Inhabited

namespace Invocation

/-- An argument; undefined where there is none. -/
def arg (i : Invocation) (n : Nat) : Value := argAt i.args n

/-- The function was called by `new`. -/
def isNew (i : Invocation) : Bool := !(i.newTarget matches .undefined)

/-- What a function is told to call. -/
def callback (i : Invocation) (n : Nat) : M Value := do
  unless ← isCallable (i.arg n) do throwType "not a function"
  return i.arg n

end Invocation

/-- The number of an object. -/
def objectId (v : Value) : M Nat :=
  match v with
  | .obj id => pure id
  | _ => throwType "not an object"

/-- The value as an object, by its number. -/
def toObjectId (v : Value) : M Nat := do objectId (← toObject v)

/-- Give an object a property that anyone may change. -/
def putField (v : Value) (k : Key) (x : Value) : M Unit :=
  match v with
  | .obj id => change (·.putValue id k x)
  | _ => pure ()

/-- A further object with properties. -/
def objectWith (fields : List (String × Value)) : M Value := do
  let v ← newObject
  fields.forM fun (name, x) => putField v (.text name) x
  return v

/-- A list of names as an array of texts. -/
def namesArray (ks : List Key) : M Value := newArray (ks.map Key.toValue).toArray

/-- Two values as an array. -/
def pairArray (a b : Value) : M Value := newArray #[a, b]

/-- Do something for all numbers from `i` on, `n` of them. -/
def countUp (f : Nat → M Unit) : Nat → Nat → M Unit
  | 0, _ => pure ()
  | n + 1, i => do
    f i
    countUp f n (i + 1)

/-- The first result that something has for a number from `i` on, among `n` of them. -/
def firstOf {α : Type} (f : Nat → M (Option α)) : Nat → Nat → M (Option α)
  | 0, _ => pure none
  | n + 1, i => do
    match ← f i with
    | some a => return some a
    | none => firstOf f n (i + 1)

end ScriptHost.Engine
