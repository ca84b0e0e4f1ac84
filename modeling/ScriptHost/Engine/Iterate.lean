import ScriptHost.Engine.Assign
/-!
Functions as objects, and the steps of iterators. An iterator that is left before its end is told so.
-/

namespace ScriptHost.Engine

/-! ## Functions as objects -/

/-- The properties that tell length and name of a function. -/
def functionTable (length : Nat) (name : String) : Table :=
  (Table.insert {} (.text "length") (.data (.ofNat length) .fixed)).insert (.text "name")
    (.data (.str name) .fixed)

/-- A function of the engine with values that it keeps. -/
def newNative (f : Native) (length : Nat) (kept : Array Value) : M Value :=
  allocate
    { proto := .obj Intrinsic.function.id, props := functionTable length "",
      kind := .native f kept false }

/-- The prototype that a new object gets: the one of what `new` was applied to, or else a default. -/
def prototypeFor (newTarget : Value) (default : Intrinsic) : M Value := do
  match newTarget with
  | .obj id =>
    match ← getId id (.text "prototype") with
    | .obj p => return .obj p
    | _ => return .obj default.id
  | _ => return .obj default.id

/-- The function may be called by `new`. -/
def isConstructor (v : Value) : M Bool := do
  match v with
  | .obj id =>
    match (← objectOf id).kind with
    | .closure c =>
      let info := c.func.info
      return c.isClass || (info.kind = .plain && !info.isAsync && !info.isGenerator)
    | .native _ _ constructs => return constructs
    | .bound (.obj t) .. =>
      match (← objectOf t).kind with
      | .closure c =>
        let info := c.func.info
        return c.isClass || (info.kind = .plain && !info.isAsync && !info.isGenerator)
      | .native _ _ constructs => return constructs
      | .proxy _ _ _ constructs => return constructs
      | _ => return false
    | .proxy _ _ _ constructs => return constructs
    | _ => return false
  | _ => return false

/-- The constructor that objects derived from another one are made by. -/
def speciesOf (v : Value) (default : Value) : M Value := do
  match ← getNamed v "constructor" with
  | .undefined => return default
  | .obj id =>
    let s ← getId id WellKnown.species.key
    if s.isNothing then return default
    if ← isConstructor s then return s
    throwType "not a constructor"
  | _ => throwType "not an object"

/-! ## Iterators -/

/-- An iterator and its method for the next step. -/
structure Iterator where
  iterator : Value
  next : Value
  deriving Inhabited

/-- The iterator that a method of an iterable hands out. -/
def iteratorBy (v method : Value) : M Iterator := do
  let it ← call method v #[]
  if it.isPrimitive then throwType "not an object"
  return ⟨it, ← getNamed it "next"⟩

/-- The iterator of an iterable. -/
def iteratorOf (v : Value) : M Iterator := do
  let method ← if v.isNothing then pure Value.undefined else getOf v WellKnown.iterator.key
  unless ← isCallable method do throwType "value is not iterable"
  iteratorBy v method

/-- The next result of an iterator, if it has not ended. -/
def Iterator.step (it : Iterator) : M (Option Value) := do
  let r ← call it.next it.iterator #[]
  if r.isPrimitive then throwType "iterator must return an object"
  if (← getNamed r "done").truthy then return none
  return some (← getNamed r "value")

/-- Tell an iterator that it is left before its end. -/
def Iterator.close (it : Iterator) : M Unit := do
  if let some f ← methodOf it.iterator (.text "return") then
    let r ← call f it.iterator #[]
    if r.isPrimitive then throwType "not an object"

/-- Tell an iterator that it is left because something was thrown; that is thrown on. -/
def Iterator.abandon {α : Type} (it : Iterator) (t : Thrown) : M α := do
  match t with
  | .abort => raise t
  | .leave _ => do
    it.close
    raise t
  | .value _ => do
    match ← outcome it.close with
    | .error .abort => raise .abort
    | _ => raise t

/-- Do something, and leave the iterator if that throws. -/
def Iterator.guarding {α : Type} (it : Iterator) (m : M α) : M α := do
  match ← outcome m with
  | .ok a => return a
  | .error t => it.abandon t

/-- Everything that an iterator gives, from the first of so many rounds. -/
def Iterator.collect (it : Iterator) : Nat → Array Value → M (Array Value)
  | 0, acc => pure acc
  | n + 1, acc => do
    tick
    match ← it.step with
    | none => return acc
    | some v => do
      claim 16
      it.collect n (acc.push v)

/-- Everything that an iterable gives. -/
def listOf (v : Value) : M (Array Value) := do
  let it ← iteratorOf v
  it.collect endless #[]

/-- Do something with everything that an iterator gives, and leave it if that throws. -/
def Iterator.forEach (it : Iterator) (f : Value → M Unit) : Nat → M Unit
  | 0 => pure ()
  | n + 1 => do
    tick
    match ← it.step with
    | none => return
    | some v => do
      it.guarding (f v)
      it.forEach f n

/-- A result of an iterator. -/
def stepResult (v : Value) (done : Bool) : M Value := do
  let r ← newObject
  if let .obj id := r then
    change fun w => (w.putValue id (.text "value") v).putValue id (.text "done") (.bool done)
  return r

/-- The arguments at a place, or nothing. -/
def argAt (args : Array Value) (i : Nat) : Value := args.getD i .undefined

/-- The values that something like an array holds. -/
def arrayLike (v : Value) : M (Array Value) := do
  match v with
  | .undefined | .null => return #[]
  | .obj _ => elementsOf v (← lengthOf v)
  | _ => throwType "not an object"

end ScriptHost.Engine
