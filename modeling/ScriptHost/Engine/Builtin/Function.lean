import ScriptHost.Engine.Builtin.Basic
import ScriptHost.Script.Early
import ScriptHost.Script.Parser.Declaration
/-!
Functions on functions and on errors.
-/

namespace ScriptHost.Engine.Builtin

/-- Run a text as a script. -/
def runText (text : String) (strict : Bool) : M Value := do
  match Script.Source.read text.toList.toArray false false with
  | .error fault => throwNew .syntaxError fault.complaint.message
  | .ok source =>
    match Script.Early.offence source with
    | some complaint => throwNew .syntaxError complaint
    | none => runSource source strict

/-- The text of a function that the engine brought along. -/
def nativeText (name : String) : String := "function " ++ name ++ "() \x7b\n    [native code]\n\x7d"

/-- The text of a function. -/
def functionText (v : Value) : M String := do
  match v with
  | .obj id => do
    let o ← objectOf id
    unless o.isCallable do throwType "not a function"
    match o.kind with
    | .closure k => return k.func.info.text
    | _ =>
      match ← getId id (.text "name") with
      | .str name => return nativeText name
      | _ => return nativeText ""
  | _ => throwType "not a function"

/-- A function made of texts: its parameters and its body. -/
def functionFromTexts (args : Array Value) : M Value := do
  let texts ← args.toList.mapM toText
  let params := String.intercalate "," texts.dropLast
  let body := texts.getLastD ""
  runText ("(function anonymous(" ++ params ++ "\n) \x7b\n" ++ body ++ "\n\x7d)") false

/-- A function that calls another one with a fixed object and first arguments. -/
def bindFunction (target this : Value) (args : Array Value) : M Value := do
  let id ← objectId target
  let length ← if (← ownProperty id (.text "length")).isSome then
      match ← getId id (.text "length") with
      | .num x => pure (if x.isNaN then 0 else max 0 (Number.truncate x - Float.ofNat args.size))
      | _ => pure 0
    else pure 0
  let name ← match ← getId id (.text "name") with
    | .str s => pure s
    | _ => pure ""
  let props := (Table.insert {} (.text "length") (.data (.num length) .fixed)).insert (.text "name")
    (.data (.str ("bound " ++ name)) .fixed)
  allocate { proto := ← getPrototype id, props, kind := .bound target this args }

/-- Functions on functions. -/
def function (f : FunctionFn) (i : Invocation) : M Value := do
  match f with
  | .new => functionFromTexts i.args
  | .prototype => return .undefined
  | .apply => do
    unless ← isCallable i.this do throwType "not a function"
    call i.this (i.arg 0) (← arrayLike (i.arg 1))
  | .bind => do
    unless ← isCallable i.this do throwType "not a function"
    bindFunction i.this (i.arg 0) (i.args.extract 1 i.args.size)
  | .call => call i.this (i.arg 0) (i.args.extract 1 i.args.size)
  | .toString => return .str (← functionText i.this)
  | .hasInstance => return .bool (← ordinaryInstance (i.arg 0) reach i.this)
  | .thrower => throwType "invalid property access"

/-- The text of an error: its name and its message. -/
def errorText (v : Value) : M String := do
  if v.isPrimitive then throwType "not an object"
  let name ← match ← getNamed v "name" with
    | .undefined => pure "Error"
    | x => toText x
  let message ← match ← getNamed v "message" with
    | .undefined => pure ""
    | x => toText x
  if name.isEmpty then return message
  if message.isEmpty then return name
  return name ++ ": " ++ message

/-- A new error of a kind. -/
def newError (kind : ErrorKind) (i : Invocation) : M Value := do
  let isAggregate := kind = .aggregate
  let message := i.arg (if isAggregate then 1 else 0)
  let options := i.arg (if isAggregate then 2 else 1)
  let newTarget := if i.isNew then i.newTarget else i.callee
  let proto ← prototypeFor newTarget kind.prototype
  let v ← allocate { proto, kind := .error }
  let id ← objectId v
  let put (name : String) (x : Value) : M Unit := changeObject id (·.put (.text name) (.data x .hidden))
  unless message matches .undefined do put "message" (.str (← toText message))
  if let .obj o := options then
    if ← hasProperty o (.text "cause") then put "cause" (← getId o (.text "cause"))
  if isAggregate then put "errors" (← newArray (← listOf (i.arg 0)))
  put "stack" (.str (← look World.trace))
  return v

/-- Functions on errors. -/
def error (f : ErrorFn) (i : Invocation) : M Value := do
  match f with
  | .new kind => newError kind i
  | .toString => return .str (← errorText i.this)
  | .captureStackTrace => do
    let id ← objectId (i.arg 0)
    let trace ← look World.trace
    changeObject id (·.put (.text "stack") (.data (.str trace) .hidden))
    return .undefined

end ScriptHost.Engine.Builtin
