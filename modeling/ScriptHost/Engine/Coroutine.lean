import ScriptHost.Engine.Promise
/-!
Bodies that can be suspended. A generator is gone on with by its caller; an asynchronous function is
gone on with by the promises it waits for; an asynchronous generator serves a queue of requests, one
after the other.
-/

namespace ScriptHost.Engine

/-- What a suspended body is, and where. -/
def Obj.coroutine? (o : Obj) : Option Coroutine :=
  match o.kind with
  | .coroutine c | .stream c _ => some c
  | _ => none

/-- Say where a suspended body is. -/
def Obj.withProgress (o : Obj) (p : Progress) : Obj :=
  match o.kind with
  | .coroutine c => { o with kind := .coroutine { c with progress := p } }
  | .stream c queue => { o with kind := .stream { c with progress := p } queue }
  | _ => o

/-- Say where a suspended body is. -/
def setProgress (id : Nat) (p : Progress) : M Unit := changeObject id (·.withProgress p)

/-! ## Asynchronous functions -/

/-- Go on with an asynchronous function, and let it wait or settle its promise. -/
def driveAsync (co promise : Nat) : Nat → Resume → Value → M Unit
  | 0, _, _ => pure ()
  | n + 1, mode, v => do
    match ← outcome (resume co mode v) with
    | .ok (.finished v) => resolvePromise promise v
    | .ok (.yields v) | .ok (.waits v) => do
      let kept := #[Value.obj co, .obj promise]
      let onFulfilled ← newNative (.promise (.awaited false)) 1 kept
      let onRejected ← newNative (.promise (.awaited true)) 1 kept
      match ← outcome (awaitWith v onFulfilled onRejected) with
      | .ok () => return
      | .error (.value e) => driveAsync co promise n .throw_ e
      | .error t => raise t
    | .error (.value e) => settlePromise promise true e
    | .error (.leave v) => resolvePromise promise v
    | .error .abort => raise .abort

/-- Start an asynchronous function; its promise. -/
def startAsync (c : Coroutine) : M Value := do
  let co ← allocate { proto := .null, kind := .coroutine c }
  let promise ← plainPromise
  match co, promise with
  | .obj co, .obj id => do
    driveAsync co id endless .next .undefined
    return promise
  | _, _ => return promise

/-! ## Generators -/

/-- Go on with a generator; the result of its step. -/
def driveGenerator (this : Value) (mode : Resume) (v : Value) : M Value := do
  match this with
  | .obj id =>
    match (← objectOf id).kind with
    | .coroutine c =>
      match c.progress, mode with
      | .running, _ => throwType "cannot invoke a running generator"
      | .finished, .next => stepResult .undefined true
      | .finished, .return_ => stepResult v true
      | .finished, .throw_ => throwValue v
      | .fresh, .return_ => do
        setProgress id .finished
        stepResult v true
      | .fresh, .throw_ => do
        setProgress id .finished
        throwValue v
      | _, _ =>
        match ← resume id mode v with
        | .finished v => stepResult v true
        | .yields v | .waits v => stepResult v false
    | _ => throwType "not a generator"
  | _ => throwType "not a generator"

/-! ## Asynchronous generators -/

/-- The first request to an asynchronous generator. -/
def firstRequest (id : Nat) : M (Option (Coroutine × StreamRequest)) := do
  match (← objectOf id).kind with
  | .stream c (r :: _) => return some (c, r)
  | _ => return none

/-- Answer the first request to an asynchronous generator. -/
def answerRequest (id : Nat) (rejects : Bool) (v : Value) : M Unit := do
  match ← firstRequest id with
  | some (_, r) => do
    changeObject id fun o =>
      match o.kind with
      | .stream c (_ :: rest) => { o with kind := .stream c rest }
      | _ => o
    match r.promise with
    | .obj p => if rejects then settlePromise p true v else resolvePromise p v
    | _ => return
  | none => return

/-- What came of going on with an asynchronous generator; whether further requests can be served. -/
def concludeStream (id : Nat) (r : Except Thrown Resumed) : M Bool := do
  match r with
  | .ok (.finished v) => do
    setProgress id .finished
    answerRequest id false (← stepResult v true)
    return true
  | .ok (.yields v) => do
    answerRequest id false (← stepResult v false)
    return true
  | .ok (.waits v) => do
    setProgress id .running
    let onFulfilled ← newNative (.promise (.streamed false)) 1 #[.obj id]
    let onRejected ← newNative (.promise (.streamed true)) 1 #[.obj id]
    awaitWith v onFulfilled onRejected
    return false
  | .error (.value e) => do
    setProgress id .finished
    answerRequest id true e
    return true
  | .error (.leave v) => do
    setProgress id .finished
    answerRequest id false (← stepResult v true)
    return true
  | .error .abort => raise .abort

/-- Serve requests to an asynchronous generator while it does not wait. -/
def serveStream (id : Nat) : Nat → M Unit
  | 0 => pure ()
  | n + 1 => do
    match ← firstRequest id with
    | none => return
    | some (c, r) =>
      match c.progress, r.mode with
      | .running, _ => return
      | .finished, .next => do
        answerRequest id false (← stepResult .undefined true)
        serveStream id n
      | .finished, .throw_ => do
        answerRequest id true r.value
        serveStream id n
      | .finished, .return_ => do
        setProgress id .running
        let onFulfilled ← newNative (.promise (.streamEnded false)) 1 #[.obj id]
        let onRejected ← newNative (.promise (.streamEnded true)) 1 #[.obj id]
        awaitWith r.value onFulfilled onRejected
      | .fresh, .throw_ | .fresh, .return_ => do
        setProgress id .finished
        serveStream id n
      | _, mode => do
        if ← concludeStream id (← outcome (resume id mode r.value)) then serveStream id n

/-- Go on with an asynchronous generator that waited. -/
def continueStream (id : Nat) (rejects : Bool) (v : Value) : M Unit := do
  let r ← outcome (resume id (if rejects then .throw_ else .next) v)
  if ← concludeStream id r then serveStream id endless

/-- End an asynchronous generator that was asked to return. -/
def endStream (id : Nat) (rejects : Bool) (v : Value) : M Unit := do
  setProgress id .finished
  answerRequest id rejects (← if rejects then pure v else stepResult v true)
  serveStream id endless

/-- Make a request to an asynchronous generator; the promise of its result. -/
def requestStream (this : Value) (mode : Resume) (v : Value) : M Value := do
  let promise ← plainPromise
  match this with
  | .obj id =>
    match (← objectOf id).kind with
    | .stream .. => do
      changeObject id fun o =>
        match o.kind with
        | .stream c queue => { o with kind := .stream c (queue ++ [⟨mode, v, promise⟩]) }
        | _ => o
      serveStream id endless
    | _ => throwType "not an AsyncGenerator object"
  | _ => throwType "not an AsyncGenerator object"
  return promise

end ScriptHost.Engine
