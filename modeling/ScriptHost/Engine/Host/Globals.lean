import ScriptHost.Engine.Host.Following
/-!
The globals that reach out of the engine, as every new engine gets them, and the timers when they
fire.
-/

namespace ScriptHost.Engine

/-- A function that reaches out of the engine, as a property of an object. -/
def installHost (o : Value) (name : String) (f : HostFn) (length : Nat) : M Unit := do
  setNamed o name (← newHostFunction f length)

/-- Install `require` for the main module, and the registry of modules. -/
def installModules : M Unit := do
  setGlobal exportsTable (← newObject)
  let main ← look (·.outside.registry.main)
  installHost globalObject "require" (.require main []) 0
  let registry ← newObject
  installHost registry "setModule" .setModule 2
  installHost registry "modules" .modules 0
  setGlobal "Registry" registry

/-- Install the console. -/
def installConsole : M Unit := do
  let console ← newObject
  for m in [ConsoleMethod.log, .info, .debug, .warn, .error] do
    installHost console m.name (.console m) 0
  setGlobal "console" console

/-- Install the timers. -/
def installTimers : M Unit := do
  setGlobal timerTable (← newObject)
  installHost globalObject "setTimeout" .setTimeout 1
  installHost globalObject "setInterval" .setInterval 1
  installHost globalObject "setImmediate" .setImmediate 1
  installHost globalObject "clearTimeout" .clearTimer 0
  installHost globalObject "clearInterval" .clearTimer 0

/-- Give a new engine its globals; what could not be installed is noted in the log. -/
def installGlobals : M Unit := do
  changeOutside fun o => { o with registry := o.registry.reset }
  let note (message : String) (r : Except Failure Unit) : M Unit := do
    if let .error e := r then
      changeOutside fun o => { o with logs := .warning message [("error", .str e.message)] :: o.logs }
  note "Failed to enable require" (← plainly (sure installModules))
  note "Failed to install built-in globals" (← plainly (sure do
    installConsole
    installTimers))

/-! ## Timers that fire -/

/-- The elements of an array, by index. -/
def argumentsOf (id : Nat) : M (Array Value) := do
  let n ← lengthOf (.obj id)
  elementsOf (.obj id) n

/-- Call what the table of timers holds for a timer, if it holds anything. -/
def callTimer (id : Nat) (repeating : Bool) : M (Converted Unit) := do
  let k := Key.ofText (toString id)
  match ← asObject (← getGlobal timerTable) with
  | .error e => return .error e
  | .ok table =>
    let entry ← getId table k
    if entry.isNothing then return .ok ()
    match ← asObject entry with
    | .error e => return .error e
    | .ok entry =>
      unless repeating do
        unless ← deleteProperty table k do throwType "could not delete property"
      match ← asFunction (← getId entry (.text "fn")) with
      | .error e => return .error e
      | .ok f =>
        match ← asArray (← getId entry (.text "args")) with
        | .error e => return .error e
        | .ok args => sure (discard (call f .undefined (← argumentsOf args)))

/-- A timer fires, unless it was cleared meanwhile; what its callback throws is noted in the log. -/
def fireTimer (id : Nat) (repeating : Bool) : M Unit := do
  unless ← look (·.outside.timers.isActive id) do return
  unless repeating do
    changeOutside fun o => { o with timers := (o.timers.cancel id).2 }
  match ← lookingAt (callTimer id repeating) with
  | .ok () => return
  | .error e =>
    changeOutside fun o => { o with
      logs := .failure "Error handling deferred job"
        [("timer", .int id), ("error", .str e.message)] :: o.logs }

/-- The number of names of the global object that begin in one of some ways. -/
def countGlobals (starts : List String) : M Nat := do
  let o ← objectOf Intrinsic.global.id
  return (o.props.keys.filter fun k => match k with
    | .text s => starts.any fun start => start.isPrefixOf s
    | _ => false).length

end ScriptHost.Engine
