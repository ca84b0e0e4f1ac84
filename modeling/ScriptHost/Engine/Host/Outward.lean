import ScriptHost.Engine.Builtin.Function
import ScriptHost.Engine.Host.Convert
import ScriptHost.Registry.Require
import ScriptHost.Script.Check
/-!
Functions that reach out of the engine: the console, timers and modules. Each of them works on
`World.outside` and on tables that are hidden properties of the global object.
-/

namespace ScriptHost.Engine

/-- Change what is outside. -/
def changeOutside (f : Outside → Outside) : M Unit :=
  change fun w => { w with outside := f w.outside }

/-- A function of the engine with values that it keeps, by its name and its number of arguments. -/
def newHostFunction (f : HostFn) (length : Nat) : M Value := newNative (.host f) length #[]

/-- The property of the global object under a name. -/
def getGlobal (name : String) : M Value := getId Intrinsic.global.id (.text name)

/-- A call with fewer arguments than a function needs is refused. -/
def needArguments (args : Array Value) (n : Nat) : M Unit := do
  if args.size < n then
    throwType ("Error calling function with " ++ toString args.size ++ " argument(s) while " ++
      toString n ++ " where expected")

/-! ## The console -/

/-- A value as a line of the console shows it. -/
def consoleText (v : Value) : M String := do
  let isObject := !v.isPrimitive
  let json ← if isObject && !(← isCallable v) then
      match ← outcome (Builtin.stringify v .undefined .undefined) with
      | .ok (.str text) => pure (asText text).toOption
      | _ => pure none
    else pure none
  match json with
  | some text => return text
  | none =>
    match ← coerceText v with
    | .ok text => return text
    | .error _ => return "[object]"

/-- Write a line to the console. -/
def writeLine (method : ConsoleMethod) (args : Array Value) : M Value := do
  let parts ← args.toList.mapM consoleText
  changeOutside fun o => { o with console := ⟨method, String.intercalate " " parts⟩ :: o.console }
  return .undefined

/-! ## Timers -/

/-- The name of the table of timers. -/
def timerTable : String := "__squall_timers"

/-- The delay that an argument asks for; the whole milliseconds that a word of 64 bits can hold. -/
def delayOf (v : Option Value) : M Span := do
  match v with
  | none => return ⟨0⟩
  | some v =>
    let x ← toNumber v
    return .millis x.toUInt64.toNat

/-- The handle of a timer that an argument is, if it is one. -/
def handleOf (v : Option Value) : M (Option Nat) := do
  match v with
  | none => return none
  | some v =>
    if v.isNothing then return none
    match ← outcome (toNumber v) with
    | .ok x => return if !x.isNaN && !x.isInf && x ≥ 1 then some x.toUInt64.toNat else none
    | .error _ => return none

/-- Keep a callback in the table of timers and set its timer; the handle. -/
def setTimer (callback : Value) (delay : Span) (args : Array Value) (repeating : Bool) : M Value := do
  unless ← isCallable callback do
    throwType ("argument 0 must be a function, got " ++ (← kindName callback))
  let id ← update fun w =>
    (w.outside.timers.nextId,
      { w with outside := { w.outside with timers := w.outside.timers.take } })
  let entry ← newObject
  setNamed entry "fn" callback
  setNamed entry "args" (← newArray args)
  let table ← inScript (asObject (← getGlobal timerTable))
  setOf (.obj table) (.ofText (toString id)) entry true
  changeOutside fun o => { o with timers := o.timers.activate ⟨id, delay, repeating⟩ }
  return .ofNat id

/-- Take a timer away, and its callback out of the table. -/
def clearTimer (id : Nat) : M Unit := do
  let known ← update fun w =>
    let (known, timers) := w.outside.timers.cancel id
    (known, { w with outside := { w.outside with timers } })
  if known then
    let table ← inScript (asObject (← getGlobal timerTable))
    unless ← deleteProperty table (.ofText (toString id)) do throwType "could not delete property"

/-! ## Modules -/

/-- The name of the table of exports. -/
def exportsTable : String := "__squall_exports"

/-- Throw a failure into the script. -/
def throwFailure {α : Type} (f : Failure) : M α :=
  let kind : ErrorKind := match f with
    | .invalidRequire _ => .type
    | .malformed .. => .syntaxError
    | _ => .error
  throwNew kind (Text.ofString f.message)

/-- The value of an outcome, or its failure thrown into the script. -/
def orThrow {α : Type} : Except Failure α → M α
  | .ok a => pure a
  | .error f => throwFailure f

/-- The engine as the runner of modules. -/
def moduleRunner : Registry.Runner M Value where
  resolve parent specifier := do
    let found ← update fun w =>
      let (found, registry, accesses) := w.outside.registry.resolve w.outside.files parent specifier
      (found,
        { w with outside :=
            { w.outside with registry, accesses := accesses.reverse ++ w.outside.accesses } })
    orThrow found
  record i := look (·.outside.registry.record i)
  generation := look (·.outside.generation)
  table := do return .obj (← inScript (asObject (← getGlobal exportsTable)))
  exports? table key := do
    match table with
    | .obj id => do
      let k := Key.ofText (Text.ofString key)
      if ← hasProperty id k then some <$> getId id k else return none
    | _ => return none
  compile i := do
    let found ← update fun w =>
      let (found, registry) := w.outside.registry.compileModule Script.check i
      (found, { w with outside := { w.outside with registry } })
    orThrow found
  evaluate program i chain := do
    let value ← Builtin.runText (Text.ofString program.source) false
    let wrapper ← inScript (asFunction value)
    let require ← newHostFunction (.require i chain) 0
    let object ← newObject
    let exports ← newObject
    setNamed object "exports" exports
    discard (call wrapper .undefined #[require, object, exports])
    getNamed object "exports"
  keep table key exports := setOf table (.ofText (Text.ofString key)) exports true
  mark i generation := changeOutside fun o =>
    { o with registry := o.registry.markEvaluated i generation }
  fail := throwFailure

/-- Require a module on behalf of a record. -/
def requireModule (parent : Nat) (chain : List String) (args : Array Value) : M Value := do
  match args.toList with
  | [v] => do
    let specifier ← inScript (coerceText v)
    if Text.allBlank specifier then throwFailure Registry.blankSpecifier
    Registry.require moduleRunner parent chain specifier
  | vs => throwFailure (Registry.wrongCount vs.length)

/-- Register a module under a name. -/
def registerModule (args : Array Value) : M Value := do
  needArguments args 2
  let name ← inScript (coerceText (argAt args 0))
  if Text.allBlank name then throwFailure Registry.blankName
  let body ← inScript (coerceText (argAt args 1))
  changeOutside fun o => { o with registry := o.registry.setModule (.named name body) }
  return .undefined

/-- Functions that reach out of the engine. -/
def hostFunction (f : HostFn) (args : Array Value) : M Value := do
  match f with
  | .console level => writeLine level args
  | .require parent chain => requireModule parent chain args
  | .setModule => registerModule args
  | .modules => do
    let keys ← look (·.outside.registry.keys)
    newArray (keys.map fun k => Value.str (Text.ofString k)).toArray
  | .setTimeout => do
    needArguments args 1
    let delay ← delayOf args[1]?
    setTimer (argAt args 0) delay (args.extract 2 args.size) false
  | .setInterval => do
    needArguments args 1
    let delay ← delayOf args[1]?
    setTimer (argAt args 0) (delay.max (.millis 1)) (args.extract 2 args.size) true
  | .setImmediate => do
    needArguments args 1
    setTimer (argAt args 0) ⟨0⟩ (args.extract 1 args.size) false
  | .clearTimer => do
    if let some id ← handleOf args[0]? then clearTimer id
    return .undefined

end ScriptHost.Engine
