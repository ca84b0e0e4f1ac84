import ScriptHost.Engine.Builtin.Json
import ScriptHost.Json.Reader
/-!
Values handed out of the engine. A value leaves it as JSON, as a text, or as a failure; what a script
throws while a value is converted is part of the outcome. `ConversionFailure` says why a value has not
the form that is asked for: inside a script that is a type error, outside a failure of the engine.
-/

namespace ScriptHost.Engine

/-! ## Aborted scripts -/

/-- What a computation threw, as a value. -/
def caught (t : Thrown) : M Value := do
  match t with
  | .value v | .leave v => return v
  | .abort =>
    update fun w =>
      let props : Table := (Table.insert {} (.text "message") (.data (.str "interrupted") .hidden)).insert
        (.text "stack") (.data (.str "    at <eval>\n") .hidden)
      let (id, w) := w.alloc { proto := .obj Intrinsic.internalError.id, props, kind := .error }
      (.obj id, w)

/-! ## Kinds of values -/

/-- The name of the kind of a value, with a name of its own for null. -/
def kindName (v : Value) : M String := do
  match v with
  | .null => return "null"
  | v => typeOf v

/-- The name that a value's representation has in complaints. -/
def formName (v : Value) : M String := do
  match v with
  | .absent => return "uninitialized"
  | .undefined => return "undefined"
  | .null => return "null"
  | .bool _ => return "bool"
  | .num x =>
    return if x.floor == x && x.abs < 2147483648 && !(x == 0 && x.toBits != 0) then "int" else "float"
  | .str _ => return "string"
  | .sym _ => return "symbol"
  | .big _ => return "big_int"
  | .obj id => do
    if ← isConstructor v then return "constructor"
    let o ← objectOf id
    if o.isCallable then return "function"
    match o.kind with
    | .array .. => return "array"
    | .promise .. => return "promise"
    | .error => return "exception"
    | _ => return "object"

/-- The value has not the form that was asked for. -/
def wrongForm (v : Value) (form : String) : M String := do
  return "Error converting from js '" ++ (← formName v) ++ "' into type '" ++ form ++ "'"

/-- What a thrown value is called where it cannot be looked at. -/
def thrownText : String := "Exception generated by QuickJS"

/-- A text whose surrogates have no partners from a place on. -/
def brokenText (place : Nat) : String :=
  "Conversion from string failed: invalid utf-8 sequence of 1 bytes from index " ++ toString place

/-- Why a value could not be converted. -/
inductive ConversionFailure where
  /-- A script threw. -/
  | thrown (t : Thrown)
  | wrong (text : String)

/-- What came of a conversion. -/
abbrev Converted (α : Type) := Except ConversionFailure α

/-- The value as an object. -/
def asObject (v : Value) : M (Converted Nat) := do
  match v with
  | .obj id => return .ok id
  | v => return .error (.wrong (← wrongForm v "object"))

/-- The value as a function. -/
def asFunction (v : Value) : M (Converted Value) := do
  if ← isCallable v then return .ok v
  return .error (.wrong (← wrongForm v "function"))

/-- The value as an array. -/
def asArray (v : Value) : M (Converted Nat) := do
  match v with
  | .obj id =>
    if (← objectOf id).isArray then return .ok id
    return .error (.wrong (← wrongForm v "array"))
  | v => return .error (.wrong (← wrongForm v "array"))

/-- The value as a truth value. -/
def asBool (v : Value) : M (Converted Bool) := do
  match v with
  | .bool b => return .ok b
  | v => return .error (.wrong (← wrongForm v "bool"))

/-- The text of a script as characters. -/
def asText (s : String) : Except ConversionFailure String :=
  match Text.wellFormed? s with
  | .ok s => .ok s
  | .error place => .error (.wrong (brokenText place))

/-- The value made a text, as characters. -/
def coerceText (v : Value) : M (Converted String) := do
  match ← outcome (toText v) with
  | .ok s => return asText s
  | .error t => return .error (.thrown t)

/-- The value of a conversion inside a script. -/
def inScript {α : Type} (m : M (Converted α)) : M α := do
  match ← m with
  | .ok a => return a
  | .error (.thrown t) => raise t
  | .error (.wrong text) => throwType text

/-- What went wrong with a conversion, without looking at what was thrown. -/
def ConversionFailure.failure : ConversionFailure → Failure
  | .thrown _ => .engine thrownText
  | .wrong text => .engine text

/-! ## Failures -/

/-- A property made a text, where it has one. -/
def optionalText (id : Nat) (name : String) : M (Option String) := do
  match ← outcome (getId id (.text name)) with
  | .ok v =>
    match ← coerceText v with
    | .ok s => return some s
    | .error _ => return none
  | .error _ => return none

/-- The property is there and neither undefined nor null. -/
def textIfAny (id : Nat) (name : String) : M String := do
  match ← outcome (getId id (.text name)) with
  | .ok v =>
    if v.isNothing then return ""
    match ← coerceText v with
    | .ok s => return s
    | .error _ => return ""
  | .error _ => return ""

/-- The value is an error that the engine made. -/
def isError (v : Value) : M Bool := do
  match v with
  | .obj id => return ((← objectOf id).kind matches .error)
  | _ => return false

/-- The failure that a thrown value is. -/
def failureOf (v : Value) : M Failure := do
  match v, ← isError v with
  | .obj id, true => do
    let name ← optionalText id "name"
    let name := match name with
      | some s => if s.isEmpty then "Error" else s
      | none => "Error"
    let text ← textIfAny id "message"
    let stack ← textIfAny id "stack"
    return .script name text (!stack.isEmpty)
  | v, _ =>
    match ← coerceText v with
    | .ok text => return .script "Error" text false
    | .error (.thrown _) => return .engine ("failed to stringify exception: " ++ thrownText)
    | .error (.wrong text) => return .engine ("failed to stringify exception: " ++ text)

/-- The failure that something thrown is; an aborted script is one that was interrupted. -/
def convertThrown (t : Thrown) : M Failure := do
  let v ← caught t
  match ← takeFired with
  | some reason => return .interrupted reason
  | none => failureOf v

/-- The failure that a failed conversion is, when what was thrown is looked at. -/
def ConversionFailure.converted : ConversionFailure → M Failure
  | .thrown t => convertThrown t
  | .wrong text => pure (.engine text)

/-! ## Handing out -/

/-- The text of a value. -/
def displayText (v : Value) : M (Except Failure String) := do
  match ← coerceText v with
  | .ok s => return .ok s
  | .error e => return .error e.failure

/-- The JSON that a text of the engine stands for. -/
def readExport (text : String) : Except Failure Json :=
  match Json.parse text with
  | .ok json => .ok json
  | .error refusal => .error (.internal ("invalid JSON from interpreter: " ++ refusal.message))

/-- A value as JSON: what cannot be written is null, and a whole number of any size is its text. -/
def exportJson (v : Value) : M (Except Failure Json) := do
  match v with
  | .undefined | .sym _ | .absent => return .ok .null
  | .big _ => do
    match ← displayText v with
    | .ok s => return .ok (Json.str s)
    | .error e => return .error e
  | v => do
    if ← isCallable v then return .ok .null
    match ← outcome (Builtin.stringify v .undefined .undefined) with
    | .ok (.str text) =>
      match asText text with
      | .ok text => return readExport text
      | .error e => return .error e.failure
    | .ok _ => return .ok .null
    | .error t => do return .error (← failureOf (← caught t))

/-- A text reads like that of an error. -/
def readsLikeError (text : String) : Bool :=
  let (word, rest) := text.toList.span Text.isWordChar
  rest.head? = some ':' &&
    ("Error".toList.isSuffixOf word || "Exception".toList.isSuffixOf word)

/-- The failure that the value is with which a promise was rejected. -/
def classifyRejection (v : Value) : M Failure := do
  if ← isError v then failureOf v
  else
    let kind ← kindName v
    match ← displayText v with
    | .error e => return e
    | .ok text => return if readsLikeError text then .rejected text else .nonErrorRejection text kind

end ScriptHost.Engine
