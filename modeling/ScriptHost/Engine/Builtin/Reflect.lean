import ScriptHost.Engine.Builtin.Function
/-!
Functions that reflect on objects, proxies, and the functions of the global object.
-/

namespace ScriptHost.Engine.Builtin

/-- A proxy for an object. -/
def newProxy (target handler : Value) : M Value := do
  match target, handler with
  | .obj t, .obj _ => do
    let callable ← isCallable target
    let constructs ← isConstructor target
    let o ← objectOf t
    allocate { proto := o.proto, kind := .proxy target handler callable constructs }
  | _, _ => throwType "not an object"

/-- Functions that reflect on objects. -/
def reflect (f : ReflectFn) (i : Invocation) : M Value := do
  let v := i.arg 0
  match f with
  | .proxy => do
    unless i.isNew do throwType "must be called with new"
    newProxy v (i.arg 1)
  | .revocable => do
    let p ← newProxy v (i.arg 1)
    let revoke ← newNative (.reflect .revoke) 0 #[p]
    objectWith [("proxy", p), ("revoke", revoke)]
  | .revoke => do
    if let .obj id := argAt i.kept 0 then
      changeObject id fun o =>
        match o.kind with
        | .proxy _ _ callable constructs => { o with kind := .proxy .null .null callable constructs }
        | _ => o
    return .undefined
  | .apply => do
    unless ← isCallable v do throwType "not a function"
    match i.arg 2 with
    | .obj _ => call v (i.arg 1) (← arrayLike (i.arg 2))
    | _ => throwType "not an object"
  | .construct => do
    let newTarget := if i.args.size > 2 then i.arg 2 else v
    unless (← isConstructor v) && (← isConstructor newTarget) do throwType "not a constructor"
    match i.arg 1 with
    | .obj _ => construct v (← arrayLike (i.arg 1)) newTarget
    | _ => throwType "not an object"
  | f => do
    let id ← objectId v
    match f with
    | .defineProperty => do
      let k ← toKey (i.arg 1)
      return .bool (← defineProperty id k (← wantedOf (i.arg 2)))
    | .deleteProperty => return .bool (← deleteProperty id (← toKey (i.arg 1)))
    | .get => do
      let k ← toKey (i.arg 1)
      getOn reach id k (if i.args.size > 2 then i.arg 2 else v)
    | .getOwnPropertyDescriptor => do
      match ← ownProperty id (← toKey (i.arg 1)) with
      | some s => describeSlot s
      | none => return .undefined
    | .getPrototypeOf => getPrototype id
    | .has => return .bool (← hasProperty id (← toKey (i.arg 1)))
    | .isExtensible => return .bool (← extensibleOn reach id)
    | .ownKeys => do namesArray (← ownKeys id)
    | .preventExtensions => return .bool (← preventOn reach id)
    | .set => do
      let k ← toKey (i.arg 1)
      return .bool (← setOn reach id k (i.arg 2) (if i.args.size > 3 then i.arg 3 else v))
    | .setPrototypeOf => do
      match i.arg 1 with
      | .obj _ | .null => return .bool (← setPrototype id (i.arg 1))
      | _ => throwType "not an object"
    | _ => return .undefined

/-! ## The global object -/

/-- The characters that stay as they are in a component of an address. -/
def plainInAddress (c : Char) : Bool := c.isAlphanum || "-_.!~*'()".toList.contains c

/-- The characters that also stay as they are in a whole address. -/
def markInAddress (c : Char) : Bool := ";/?:@&=+$,#".toList.contains c

/-- A byte as it is written in an address. -/
def escapedByte (b : UInt8) : String := "%" ++
  (String.ofList [Number.digitOf (b.toNat / 16), Number.digitOf (b.toNat % 16)]).map Char.toUpper

/-- A text as it is written in an address. -/
def encodeAddress (s : String) (keeps : Char → Bool) : M Value := do
  match Text.wellFormed? s with
  | .error _ => throwNew .uri "invalid character"
  | .ok s => return .str (String.join (s.toList.map fun c =>
      if keeps c then String.singleton c
      else String.join (c.toString.toUTF8.toList.map escapedByte)))

/-- The bytes that an address was written for. -/
def decodeBytes (keeps : Char → Bool) : List Char → ByteArray → Option ByteArray
  | [], acc => some acc
  | '%' :: a :: b :: rest, acc =>
    if Script.Token.isDigitOf 16 a && Script.Token.isDigitOf 16 b then
      let n := Script.Token.numberOf 16 [a, b]
      if n < 128 && keeps (Char.ofNat n) then
        decodeBytes keeps rest (acc ++ (String.ofList ['%', a, b]).toUTF8)
      else decodeBytes keeps rest (acc.push (UInt8.ofNat n))
    else none
  | '%' :: _, _ => none
  | c :: rest, acc => decodeBytes keeps rest (acc ++ c.toString.toUTF8)

/-- The text that an address was written for. -/
def decodeAddress (s : String) (keeps : Char → Bool) : M Value := do
  match decodeBytes keeps s.toList ByteArray.empty with
  | some bytes =>
    match String.fromUTF8? bytes with
    | some s => return .str (Text.ofString s)
    | none => throwNew .uri "malformed UTF-8"
  | none => throwNew .uri "expecting hex digit"

/-- Functions of the global object. -/
def global (f : GlobalFn) (i : Invocation) : M Value := do
  let v := i.arg 0
  match f with
  | .eval =>
    match v with
    | .str s => runText s false
    | v => return v
  | .queueMicrotask => do
    enqueue (.call (← i.callback 0))
    return .undefined
  | .encodeURIComponent => do encodeAddress (← toText v) plainInAddress
  | .encodeURI => do encodeAddress (← toText v) fun c => plainInAddress c || markInAddress c
  | .decodeURIComponent => do decodeAddress (← toText v) fun _ => false
  | .decodeURI => do decodeAddress (← toText v) markInAddress

end ScriptHost.Engine.Builtin
