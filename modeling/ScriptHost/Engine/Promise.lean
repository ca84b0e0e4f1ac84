import ScriptHost.Engine.Iterate
/-!
Promises: how they settle, what waits for them, and what a promise does with a value that has a `then`
of its own. What follows from a settling is never done at once; it joins what waits for the stack to be
empty.
-/

namespace ScriptHost.Engine

/-- Let a piece of work wait. -/
def enqueue (r : Reactive) : M Unit := change fun w => { w with waiting := w.waiting.push r }

/-- A pending promise with a prototype. -/
def newPromise (proto : Value) : M Value :=
  allocate { proto, kind := .promise .pending #[] false }

/-- A pending promise. -/
def plainPromise : M Value := newPromise (.obj Intrinsic.promise.id)

/-- Settle a pending promise; its reactions join the waiting work in order. -/
def settlePromise (id : Nat) (rejects : Bool) (v : Value) : M Unit := do
  match (← objectOf id).kind with
  | .promise .pending reactions handled => do
    changeObject id
      ({ · with kind := .promise (if rejects then .rejected v else .fulfilled v) #[] handled })
    reactions.forM fun r => enqueue (.react r rejects v)
  | _ => return

/-- Resolve a promise with a value: a thenable settles it later, any other value does at once. -/
def resolvePromise (id : Nat) (v : Value) : M Unit := do
  match v with
  | .obj other =>
    if other = id then
      match ← outcome (throwType (α := Unit) "promise self resolution") with
      | .error (.value e) => settlePromise id true e
      | _ => return
    else
      match ← outcome (getId other (.text "then")) with
      | .error (.value e) => settlePromise id true e
      | .error t => raise t
      | .ok f =>
        if ← isCallable f then enqueue (.follow (.obj id) v f) else settlePromise id false v
  | v => settlePromise id false v

/-- The pair of functions that settle a promise, of which only the first call counts. -/
def settlers (promise : Value) : M (Value × Value) := do
  let once ← allocate { proto := .null, kind := .box (.bool false) }
  let resolve ← newNative (.promise (.settle false)) 1 #[promise, once]
  let reject ← newNative (.promise (.settle true)) 1 #[promise, once]
  return (resolve, reject)

/-- A promise, and the functions that settle it. -/
structure Capability where
  promise : Value
  resolve : Value
  reject : Value
  deriving Inhabited

/-- A new promise of the class of promises that a constructor stands for. -/
def capabilityOf (constructor : Value) : M Capability := do
  unless ← isConstructor constructor do throwType "not a constructor"
  let kept ← newArray #[]
  let executor ← newNative (.promise .executor) 2 #[kept]
  let promise ← construct constructor #[executor] constructor
  let resolve ← getOf kept (.index 0)
  let reject ← getOf kept (.index 1)
  unless (← isCallable resolve) && (← isCallable reject) do throwType "not a function"
  return ⟨promise, resolve, reject⟩

/-- A new promise of the plain class. -/
def plainCapability : M Capability := do
  let promise ← plainPromise
  let (resolve, reject) ← settlers promise
  return ⟨promise, resolve, reject⟩

/-- Let handlers wait for a promise. -/
def subscribe (id : Nat) (r : Reaction) : M Unit := do
  match (← objectOf id).kind with
  | .promise .pending reactions _ =>
    changeObject id ({ · with kind := .promise .pending (reactions.push r) true })
  | .promise (.fulfilled v) rs _ => do
    changeObject id ({ · with kind := .promise (.fulfilled v) rs true })
    enqueue (.react r false v)
  | .promise (.rejected v) rs _ => do
    changeObject id ({ · with kind := .promise (.rejected v) rs true })
    enqueue (.react r true v)
  | _ => return

/-- The value as a promise of a class. -/
def promiseOf (constructor v : Value) : M Value := do
  match v with
  | .obj id =>
    match (← objectOf id).kind with
    | .promise .. =>
      if sameValue (← getId id (.text "constructor")) constructor then return v
    | _ => pure ()
  | _ => pure ()
  let c ← capabilityOf constructor
  discard (call c.resolve .undefined #[v])
  return c.promise

/-- The constructor of plain promises. -/
def promiseClass : Value := .obj Intrinsic.promiseClass.id

/-- Let two functions of the engine wait for a value. -/
def awaitWith (v : Value) (onFulfilled onRejected : Value) : M Unit := do
  match ← promiseOf promiseClass v with
  | .obj id => subscribe id ⟨onFulfilled, onRejected, .undefined, .undefined, .undefined⟩
  | _ => return

/-- Run a piece of work that waited. -/
def runReactive (r : Reactive) : M Unit := do
  match r with
  | .react r rejects v =>
    let handler := if rejects then r.onRejected else r.onFulfilled
    let result ← if ← isCallable handler then outcome (call handler .undefined #[v])
      else pure (if rejects then .error (.value v) else .ok v)
    match result with
    | .ok v => if ← isCallable r.resolve then discard (call r.resolve .undefined #[v])
    | .error (.value e) => if ← isCallable r.reject then discard (call r.reject .undefined #[e])
    | .error t => raise t
  | .follow promise thenable next =>
    let (resolve, reject) ← settlers promise
    match ← outcome (call next thenable #[resolve, reject]) with
    | .ok _ => return
    | .error (.value e) => discard (call reject .undefined #[e])
    | .error t => raise t
  | .call f => discard (call f .undefined #[])

/-- The next piece of work that waits. -/
def nextReactive : M (Option Reactive) := update fun w =>
  if w.served < w.waiting.size then
    let r := w.waiting.getD w.served (.call .undefined)
    let served := w.served + 1
    (some r,
      if served = w.waiting.size then { w with waiting := #[], served := 0 }
      else { w with waiting := w.waiting.set! w.served (.call .undefined), served })
  else (none, w)

/-- The reason for which a script was aborted since this was last asked. -/
def takeFired : M (Option String) := update fun w =>
  let (reason, interrupt) := w.outside.interrupt.takeFired
  (reason, { w with outside := { w.outside with interrupt } })

/-- Run everything that waits, what joins meanwhile included, up to something that is aborted. -/
def runWaiting : Nat → M Unit
  | 0 => pure ()
  | n + 1 => do
    tick
    match ← nextReactive with
    | none => return
    | some r => do
      match ← outcome (runReactive r) with
      | .error .abort => discard takeFired
      | _ => runWaiting n

end ScriptHost.Engine
