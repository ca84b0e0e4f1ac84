import ScriptHost.Engine.Builtin.Basic
/-!
Functions on promises and generators. The functions that a promise hands out keep what they work on;
those of one promise share a mark that lets only the first of them count.
-/

namespace ScriptHost.Engine.Builtin

/-! ## Marks and counters -/

/-- A number that several functions share. -/
def newCounter (n : Nat) : M Value := allocate { proto := .null, kind := .box (.ofNat n) }

/-- The number that is shared. -/
def counterOf (v : Value) : M Nat := do
  match v with
  | .obj id =>
    match (← objectOf id).kind with
    | .box (.num x) => return x.toUInt64.toNat
    | _ => return 0
  | _ => return 0

/-- Change a shared number. -/
def setCounter (v : Value) (n : Nat) : M Unit :=
  match v with
  | .obj id => changeObject id ({ · with kind := .box (.ofNat n) })
  | _ => pure ()

/-- Set a mark; whether it was set before. -/
def mark (v : Value) : M Bool := do
  match v with
  | .obj id =>
    match (← objectOf id).kind with
    | .box (.bool true) => return true
    | _ => do
      changeObject id ({ · with kind := .box (.bool true) })
      return false
  | _ => return true

/-- A mark that is not set. -/
def newMark : M Value := allocate { proto := .null, kind := .box (.bool false) }

/-! ## Promises -/

/-- The constructor that a method was called on. -/
def constructorThis (i : Invocation) : M Value := do
  if i.this.isPrimitive then throwType "not an object"
  return i.this

/-- A promise of a class, and the functions that settle it. -/
def capability (constructor : Value) : M Capability :=
  if sameValue constructor promiseClass then plainCapability else capabilityOf constructor

/-- Let handlers wait for a promise; the promise of what they say. -/
def thenPromise (this onFulfilled onRejected : Value) : M Value := do
  match this with
  | .obj id =>
    match (← objectOf id).kind with
    | .promise .. => do
      let c ← capability (← speciesOf this promiseClass)
      subscribe id ⟨onFulfilled, onRejected, c.promise, c.resolve, c.reject⟩
      return c.promise
    | _ => throwType "not a promise"
  | _ => throwType "not a promise"

/-- Call the `then` of a value. -/
def callThen (v onFulfilled onRejected : Value) : M Value := do
  call (← getNamed v "then") v #[onFulfilled, onRejected]

/-- What is done for each promise of a list. -/
structure Gathering where
  resolve : Value
  capability : Capability
  values : Value
  counter : Value

/-- What waits for the promise at a place of a list. -/
def watchElement (f : PromiseFn) (g : Gathering) (place : Nat) : M (Value × Value) := do
  let kept (settle : Value) (once : Value) : Array Value :=
    #[g.values, .ofNat place, g.counter, settle, once]
  match f with
  | .all => do
    let fulfilled ← newNative (.promise .allElement) 1 (kept g.capability.resolve (← newMark))
    return (fulfilled, g.capability.reject)
  | .allSettled => do
    let once ← newMark
    let fulfilled ← newNative (.promise (.settledElement false)) 1 (kept g.capability.resolve once)
    let rejected ← newNative (.promise (.settledElement true)) 1 (kept g.capability.resolve once)
    return (fulfilled, rejected)
  | .any => do
    let rejected ← newNative (.promise .anyElement) 1 (kept g.capability.reject (← newMark))
    return (g.capability.resolve, rejected)
  | _ => return (g.capability.resolve, g.capability.reject)

/-- An error that holds the reasons of several promises. -/
def aggregate (reasons : Value) : M Value :=
  allocate
    { proto := .obj Intrinsic.aggregateError.id
      props := Table.insert {} (.text "errors") (.data reasons .hidden)
      kind := .error }

/-- Say what the list of all values is, when the last one is there. -/
def concludeGathering (f : PromiseFn) (values settle : Value) : M Unit := do
  match f with
  | .any => discard (call settle .undefined #[← aggregate values])
  | _ => discard (call settle .undefined #[values])

/-- One promise less to wait for. -/
def countDown (f : PromiseFn) (values counter settle : Value) : M Unit := do
  let n ← counterOf counter
  setCounter counter (n - 1)
  if n = 1 then concludeGathering f values settle

/-- Go over the promises of a list. -/
def gatherFrom (f : PromiseFn) (constructor : Value) (g : Gathering) (it : Iterator) :
    Nat → Nat → M Unit
  | 0, _ => pure ()
  | n + 1, place => do
    tick
    match ← it.step with
    | none =>
      match f with
      | .race => return
      | .any => countDown f g.values g.counter g.capability.reject
      | _ => countDown f g.values g.counter g.capability.resolve
    | some v => do
      it.guarding do
        let next ← call g.resolve constructor #[v]
        unless f matches .race do
          if let .obj id := g.values then createData id (.index place) .undefined
          setCounter g.counter ((← counterOf g.counter) + 1)
        let (onFulfilled, onRejected) ← watchElement f g place
        discard (callThen next onFulfilled onRejected)
      gatherFrom f constructor g it n (place + 1)

/-- One promise of several. -/
def gather (f : PromiseFn) (i : Invocation) : M Value := do
  let constructor ← constructorThis i
  let c ← capability constructor
  let work : M Unit := do
    let resolve ← getNamed constructor "resolve"
    unless ← isCallable resolve do throwType "not a function"
    let it ← iteratorOf (i.arg 0)
    let values ← newArray #[]
    let counter ← newCounter 1
    gatherFrom f constructor ⟨resolve, c, values, counter⟩ it endless 0
  match ← outcome work with
  | .ok _ => return c.promise
  | .error (.value e) => do
    discard (call c.reject .undefined #[e])
    return c.promise
  | .error t => raise t

/-- The value at one place of a list is there. -/
def settleElement (f : PromiseFn) (i : Invocation) (v : Value) : M Value := do
  let kept := argAt i.kept
  if ← mark (kept 4) then return .undefined
  match kept 0, kept 1 with
  | .obj id, .num x => do
    createData id (.index x.toUInt64.toNat) v
    countDown f (kept 0) (kept 2) (kept 3)
    return .undefined
  | _, _ => return .undefined

/-- Let a function run in any case, and then go on as before. -/
def finallyHandlers (constructor f : Value) : M (Value × Value) := do
  let fulfilled ← newNative (.promise .thenFinally) 1 #[constructor, f]
  let rejected ← newNative (.promise .catchFinally) 1 #[constructor, f]
  return (fulfilled, rejected)

/-- Functions on promises. -/
def promise (f : PromiseFn) (i : Invocation) : M Value := do
  let v := i.arg 0
  let kept := argAt i.kept
  match f with
  | .new => do
    unless i.isNew do throwType "must be called with new"
    unless ← isCallable v do throwType "not a function"
    let p ← newPromise (← prototypeFor i.newTarget .promise)
    let (resolve, reject) ← settlers p
    match ← outcome (call v .undefined #[resolve, reject]) with
    | .ok _ => return p
    | .error (.value e) => do
      discard (call reject .undefined #[e])
      return p
    | .error t => raise t
  | .resolve => do promiseOf (← constructorThis i) v
  | .reject => do
    let c ← capability (← constructorThis i)
    discard (call c.reject .undefined #[v])
    return c.promise
  | .all | .allSettled | .any | .race => gather f i
  | .withResolvers => do
    let c ← capability (← constructorThis i)
    objectWith [("promise", c.promise), ("resolve", c.resolve), ("reject", c.reject)]
  | .species => return i.this
  | .then_ => thenPromise i.this v (i.arg 1)
  | .catch_ => callThen i.this .undefined v
  | .finally_ => do
    if i.this.isPrimitive then throwType "not an object"
    let constructor ← speciesOf i.this promiseClass
    if ← isCallable v then
      let (fulfilled, rejected) ← finallyHandlers constructor v
      callThen i.this fulfilled rejected
    else callThen i.this v v
  | .settle rejects => do
    if ← mark (kept 1) then return .undefined
    match kept 0 with
    | .obj id => do
      if rejects then settlePromise id true v else resolvePromise id v
      return .undefined
    | _ => return .undefined
  | .executor => do
    match kept 0 with
    | .obj id => do
      unless ((← getId id (.index 0)) matches .undefined) && ((← getId id (.index 1)) matches .undefined) do
        throwType "resolving function already set"
      createData id (.index 0) v
      createData id (.index 1) (i.arg 1)
      return .undefined
    | _ => return .undefined
  | .thenFinally => do
    let r ← call (kept 1) .undefined #[]
    let p ← promiseOf (kept 0) r
    let back ← newNative (.promise .valueThunk) 0 #[v]
    callThen p back .undefined
  | .catchFinally => do
    let r ← call (kept 1) .undefined #[]
    let p ← promiseOf (kept 0) r
    let back ← newNative (.promise .thrower) 0 #[v]
    callThen p back .undefined
  | .valueThunk => return kept 0
  | .thrower => throwValue (kept 0)
  | .allElement => settleElement .all i v
  | .settledElement rejects => do
    let entry ← if rejects then objectWith [("status", .str "rejected"), ("reason", v)]
      else objectWith [("status", .str "fulfilled"), ("value", v)]
    settleElement .allSettled i entry
  | .anyElement => settleElement .any i v
  | .awaited rejects => do
    match kept 0, kept 1 with
    | .obj co, .obj p => do
      driveAsync co p endless (if rejects then .throw_ else .next) v
      return .undefined
    | _, _ => return .undefined
  | .streamed rejects => do
    if let .obj id := kept 0 then continueStream id rejects v
    return .undefined
  | .streamEnded rejects => do
    if let .obj id := kept 0 then endStream id rejects v
    return .undefined

/-- Functions on generators. -/
def generator (f : GeneratorFn) (i : Invocation) : M Value := do
  let v := i.arg 0
  match f with
  | .next => driveGenerator i.this .next v
  | .return_ => driveGenerator i.this .return_ v
  | .throw_ => driveGenerator i.this .throw_ v
  | .self => return i.this
  | .asyncNext => requestStream i.this .next v
  | .asyncReturn => requestStream i.this .return_ v
  | .asyncThrow => requestStream i.this .throw_ v

end ScriptHost.Engine.Builtin
