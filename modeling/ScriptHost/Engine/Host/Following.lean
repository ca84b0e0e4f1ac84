import ScriptHost.Engine.Host.Outward
/-!
Programs and what comes of them. The value of a program that is to be followed is kept as a property
of the global object; later it moves into a state object, a script hands it on to its promise if it is
one, and `lookAt` tells what the state object says.
-/

namespace ScriptHost.Engine

/-- A conversion that failed for something thrown looks at it only when a script asks. -/
def plainly {α : Type} (m : M (Converted α)) : M (Except Failure α) := do
  match ← outcome m with
  | .ok (.ok a) => return .ok a
  | .ok (.error e) => return .error e.failure
  | .error t => return .error (ConversionFailure.thrown t).failure

/-- A conversion that failed for something thrown is the failure that this is. -/
def lookingAt {α : Type} (m : M (Converted α)) : M (Except Failure α) := do
  match ← outcome m with
  | .ok (.ok a) => return .ok a
  | .ok (.error e) => return .error (← e.converted)
  | .error t => return .error (← convertThrown t)

/-- A step that always has a value, unless it throws. -/
def sure {α : Type} (m : M α) : M (Converted α) := do return .ok (← m)

/-- Go on when the first step has a value. -/
def andThen {α β : Type} (m : M (Except Failure α)) (f : α → M (Except Failure β)) :
    M (Except Failure β) := do
  match ← m with
  | .ok a => f a
  | .error e => return .error e

/-- The global object. -/
def globalObject : Value := .obj Intrinsic.global.id

/-- Give the global object a property. -/
def setGlobal (name : String) (v : Value) : M Unit := setNamed globalObject name v

/-- Take a property of the global object away. -/
def removeGlobal (name : String) : M Unit := do
  unless ← deleteProperty Intrinsic.global.id (.text name) do
    throwType "could not delete property"

/-- Run a program as a script. -/
def evaluate (p : Program) : M (Except Failure Value) :=
  lookingAt (sure (Builtin.runText (Text.ofString p.source) false))

/-- Run a program and keep its value under a name. -/
def evaluateInto (name : String) (p : Program) : M (Except Failure Unit) :=
  andThen (evaluate p) fun v => plainly (sure (setGlobal name v))

/-- A kept value, which is kept no longer. -/
def takeKept (name : String) : M (Except Failure Value) :=
  plainly (sure do
    let v ← getGlobal name
    removeGlobal name
    return v)

/-- Take a property of the global object away if that can be done. -/
def dropGlobal (name : String) : M Unit := discard (outcome (removeGlobal name))

/-! ## Following a value -/

/-- The name of the function that hands a value on to its promise. -/
def handlerName : String := "__squall_handle_result"

/-- The script that makes this function. -/
def handlerText : String :=
  "(function (state) \x7b\n" ++
  "  var value = state.value;\n" ++
  "  var thenable = value !== null\n" ++
  "    && (typeof value === 'object' || typeof value === 'function')\n" ++
  "    && typeof value.then === 'function';\n" ++
  "  if (thenable) \x7b\n" ++
  "    value.then(\n" ++
  "      function (result) \x7b state.result = result; state.done = true; \x7d,\n" ++
  "      function (error) \x7b state.error = error; state.rejected = true; state.done = true; \x7d\n" ++
  "    );\n" ++
  "  \x7d else if (value instanceof Error) \x7b\n" ++
  "    state.error = value;\n" ++
  "    state.rejected = true;\n" ++
  "    state.done = true;\n" ++
  "  \x7d else \x7b\n" ++
  "    state.result = value;\n" ++
  "    state.done = true;\n" ++
  "  \x7d\n" ++
  "\x7d)"

/-- The function that hands a value on to its promise, made when it is first needed. -/
def resultHandler : M (Converted Value) := do
  let known ← getGlobal handlerName
  if known.isNothing then
    match ← asFunction (← Builtin.runText handlerText true) with
    | .error e => return .error e
    | .ok f =>
      setGlobal handlerName f
      return .ok f
  else asFunction known

/-- A state object with a value of which nothing is known yet. -/
def blankState (v : Value) : M Value := do
  let state ← newObject
  setNamed state "value" v
  setNamed state "result" .undefined
  setNamed state "error" .undefined
  setNamed state "rejected" (.bool false)
  setNamed state "done" (.bool false)
  return state

/-- Move a kept value into a state object, keep that, and hand the value on to its promise. -/
def follow (valueName stateName : String) : M (Except Failure Unit) :=
  andThen (takeKept valueName) fun v =>
  andThen (plainly (sure do
    let state ← blankState v
    setGlobal stateName state
    return state)) fun state =>
  andThen (lookingAt resultHandler) fun handler =>
  lookingAt (sure (discard (call handler .undefined #[state])))

/-- A truth value that an object keeps. -/
def truthOf (id : Nat) (name : String) : M (Except Failure Bool) :=
  plainly do asBool (← getId id (.text name))

/-- What a state object says: nothing yet, or the outcome. -/
def lookAt (stateName : String) : M (Except Failure (Option (Except Failure Json))) :=
  andThen (plainly do asObject (← getGlobal stateName)) fun state =>
  andThen (truthOf state "done") fun done =>
  if !done then return .ok none
  else andThen (truthOf state "rejected") fun rejected =>
    if rejected then
      andThen (plainly (sure (getId state (.text "error")))) fun e => do
        return .ok (some (.error (← classifyRejection e)))
    else
      andThen (plainly (sure (getId state (.text "result")))) fun v => do
        return .ok (some (← exportJson v))

/-- The outcome that a state object tells, a failure to look at it included. -/
def outcomeAt (stateName : String) : M (Option (Except Failure Json)) := do
  match ← lookAt stateName with
  | .ok r => return r
  | .error e => return some (.error e)

/-- Hand a kept value on to its promise and look at the outcome once; a failure to do so is the outcome. -/
def followAt (valueName stateName : String) : M (Option (Except Failure Json)) := do
  match ← follow valueName stateName with
  | .ok () => do
    runWaiting endless
    outcomeAt stateName
  | .error e => return some (.error e)

/-- Keep neither a state object nor, if there is one, a value any longer. -/
def dropKept (stateName : String) (valueName : Option String) : M Unit := do
  dropGlobal stateName
  if let some name := valueName then dropGlobal name

end ScriptHost.Engine
