import ScriptHost.Engine.Builtin.Basic
/-!
Values as JSON texts and back. An object can say itself what stands for it, through a method of its own
or through a function that is given along.
-/

namespace ScriptHost.Engine.Builtin

/-! ## Writing -/

/-- The four hexadecimal digits of a unit. -/
def unitDigits (u : Nat) : String := String.ofList
  [Number.digitOf (u / 4096 % 16), Number.digitOf (u / 256 % 16), Number.digitOf (u / 16 % 16), Number.digitOf (u % 16)]

/-- A character inside a JSON text. -/
def quotedChar (c : Char) : String :=
  if c = '"' then "\\\"" else if c = '\\' then "\\\\"
  else if c = '\n' then "\\n" else if c = '\r' then "\\r" else if c = '\t' then "\\t"
  else if c.toNat = 8 then "\\b" else if c.toNat = 12 then "\\f"
  else if c.toNat < 32 then "\\u" ++ unitDigits c.toNat
  else String.singleton c

/-- The characters of a JSON text; a surrogate without a partner is written by its number. -/
def quotedChars : List Char → String → String
  | [], acc => acc
  | c :: rest, acc =>
    if Text.isStandIn c then
      match rest with
      | d :: rest' =>
        if Text.isStandIn d && Text.isHigh (c.toNat - Text.standInOffset) &&
            Text.isLow (d.toNat - Text.standInOffset) then
          quotedChars rest' ((acc.push c).push d)
        else quotedChars (d :: rest') (acc ++ "\\u" ++ unitDigits (c.toNat - Text.standInOffset))
      | [] => acc ++ "\\u" ++ unitDigits (c.toNat - Text.standInOffset)
    else quotedChars rest (acc ++ quotedChar c)

/-- A text in quotes. -/
def quoted (s : String) : String := (quotedChars s.toList "\"").push '"'

/-- How a value is written. -/
structure Writing where
  /-- Replaces each value. -/
  replacer : Value := .undefined
  /-- The only names that are written. -/
  names : Option (List Key) := none
  /-- What a further level is indented by. -/
  gap : String := ""

/-- Levels that a value may be deep. -/
def deepestValue : Nat := 1000

/-- What stands for a value: what its own method and the replacer say. -/
def standFor (w : Writing) (holder : Value) (key : String) (v : Value) : M Value := do
  let v ← match v with
    | .obj _ | .big _ => do
      let f ← getNamed v "toJSON"
      if ← isCallable f then call f v #[.str key] else pure v
    | v => pure v
  let v ← if w.replacer matches .undefined then pure v else call w.replacer holder #[.str key, v]
  match v with
  | .obj id =>
    match (← objectOf id).kind with
    | .box (.num _) => return .num (← toNumber v)
    | .box (.str _) => return .str (← toText v)
    | .box (.bool b) => return .bool b
    | .box (.big n) => return .big n
    | _ => return v
  | v => return v

/-- Write a value that stands for itself; whether there was anything to write. -/
def writeValue (w : Writing) : Nat → List Nat → String → Value → String → M (Option String)
  | 0, _, _, _, _ => throwNew .range "Maximum call stack size exceeded"
  | n + 1, above, indent, v, acc => do
    match v with
    | .null => return some (acc ++ "null")
    | .bool b => return some (acc ++ if b then "true" else "false")
    | .num x => return some (acc ++ if x.isNaN || x.isInf then "null" else Number.text x)
    | .str s => return some (acc ++ quoted s)
    | .big _ => throwType "BigInt are forbidden in JSON.stringify"
    | .obj id => do
      if (← objectOf id).isCallable then return none
      if above.contains id then throwType "circular reference"
      tick
      let inner := indent ++ w.gap
      let separator := if w.gap.isEmpty then "," else ",\n" ++ inner
      let colon := if w.gap.isEmpty then ":" else ": "
      let close (acc : String) (isEmpty : Bool) (mark : String) : String :=
        if isEmpty || w.gap.isEmpty then acc ++ mark else acc ++ "\n" ++ indent ++ mark
      let start (acc : String) : String := if w.gap.isEmpty then acc else acc ++ "\n" ++ inner
      if ← isArray v then
        let length ← lengthOf v
        let acc ← (List.range length).foldlM (fun acc i => do
          let acc := if i = 0 then start acc else acc ++ separator
          let x ← standFor w v (toString i) (← getOf v (.index i))
          return (← writeValue w n (id :: above) inner x acc).getD (acc ++ "null")) (acc ++ "[")
        return some (close acc (length = 0) "]")
      else
        let keys ← match w.names with
          | some names => pure names
          | none => enumerableKeys id
        let (acc, isEmpty) ← keys.foldlM (fun (acc, isEmpty) k => do
          let x ← standFor w v k.shown (← getOf v k)
          let head := (if isEmpty then start acc else acc ++ separator) ++ quoted k.shown ++ colon
          match ← writeValue w n (id :: above) inner x head with
          | some acc => return (acc, false)
          | none => return (acc, isEmpty)) (acc ++ "\x7b", true)
        return some (close acc isEmpty "\x7d")
    | _ => return none

/-- The names that a list of names gives. -/
def namesFrom (v : Value) : M (List Key) := do
  let items ← elementsOf v (← lengthOf v)
  let keys ← items.toList.filterMapM fun x => do
    match x with
    | .str s => return some (Key.ofText s)
    | .num _ => do return some (Key.ofText (← toText x))
    | .obj id =>
      match (← objectOf id).kind with
      | .box (.str _) | .box (.num _) => do return some (Key.ofText (← toText x))
      | _ => return none
    | _ => return none
  return keys.eraseDups

/-- What a further level is indented by. -/
def gapFrom (v : Value) : M String := do
  let v ← match v with
    | .obj id =>
      match (← objectOf id).kind with
      | .box (.num _) => do pure (Value.num (← toNumber v))
      | .box (.str _) => do pure (Value.str (← toText v))
      | _ => pure v
    | v => pure v
  match v with
  | .num x =>
    let n := if x.isNaN || x < 1 then 0 else if x > 10 then 10 else x.toUInt64.toNat
    return String.ofList (List.replicate n ' ')
  | .str s => return Text.slice s 0 10
  | _ => return ""

/-- A value as a JSON text; undefined where nothing can be written. -/
def stringify (v replacer space : Value) : M Value := do
  let names ← if ← isArray replacer then some <$> namesFrom replacer else pure none
  let replacer ← if ← isCallable replacer then pure replacer else pure Value.undefined
  let w : Writing := { replacer, names, gap := ← gapFrom space }
  let holder ← objectWith [("", v)]
  let v ← standFor w holder "" v
  match ← writeValue w deepestValue [] "" v "" with
  | some s => return .str s
  | none => return .undefined

/-! ## Reading -/

/-- What cannot go on a JSON text. -/
def unexpectedIn {α : Type} (cs : List Char) : M α :=
  match cs with
  | [] => throwNew .syntaxError "Unexpected end of JSON input"
  | c :: _ => throwNew .syntaxError ("unexpected token: '" ++ String.singleton c ++ "'")

/-- The text behind blanks. -/
def skipBlanks (cs : List Char) : List Char :=
  cs.dropWhile fun c => c = ' ' || c = '\n' || c = '\r' || c = '\t'

/-- The value of hexadecimal digits. -/
def hexOf (cs : List Char) : Option Nat :=
  if cs.length = 4 && cs.all (Script.Token.isDigitOf 16) then some (Script.Token.numberOf 16 cs)
  else none

/-- The units of a quoted text, and what is behind it. -/
def readQuoted : Nat → List Char → List (List Nat) → M (String × List Char)
  | 0, cs, _ => unexpectedIn cs
  | n + 1, cs, acc =>
    match cs with
    | '"' :: rest => pure (Text.ofUnits acc.reverse.flatten, rest)
    | '\\' :: 'u' :: rest =>
      match hexOf (rest.take 4) with
      | some u => readQuoted n (rest.drop 4) ([u] :: acc)
      | none => throwNew .syntaxError "Bad Unicode escape"
    | '\\' :: e :: rest =>
      let known : Option Nat := match e with
        | '"' => some 34
        | '\\' => some 92
        | '/' => some 47
        | 'b' => some 8
        | 'f' => some 12
        | 'n' => some 10
        | 'r' => some 13
        | 't' => some 9
        | _ => none
      match known with
      | some u => readQuoted n rest ([u] :: acc)
      | none => throwNew .syntaxError "Bad escaped character"
    | c :: rest =>
      if c.toNat < 32 then throwNew .syntaxError "Bad control character in string literal"
      else readQuoted n rest (Text.unitsOfChar c :: acc)
    | [] => throwNew .syntaxError "Unexpected end of JSON input"

/-- A number at the front of a JSON text. -/
def readNumber (cs : List Char) : M (Value × List Char) := do
  let (sign, rest) := match cs with
    | '-' :: r => (['-'], r)
    | r => ([], r)
  let (whole, rest) := rest.span Char.isDigit
  if whole.isEmpty then return ← unexpectedIn rest
  if whole.length > 1 && whole.head? = some '0' then return ← unexpectedIn (whole.drop 1)
  let (fraction, rest) ← match rest with
    | '.' :: r => do
      let (ds, after) := r.span Char.isDigit
      if ds.isEmpty then unexpectedIn after else pure ('.' :: ds, after)
    | r => pure ([], r)
  let (exponent, rest) ← match rest with
    | e :: r =>
      if e = 'e' || e = 'E' then do
        let (mark, r) := match r with
          | '+' :: r => (['+'], r)
          | '-' :: r => (['-'], r)
          | r => ([], r)
        let (ds, after) := r.span Char.isDigit
        if ds.isEmpty then unexpectedIn after else pure ('e' :: mark ++ ds, after)
      else pure ([], rest)
    | [] => pure ([], rest)
  return (.num (numberOfText (String.ofList (sign ++ whole ++ fraction ++ exponent))), rest)

mutual

/-- A value at the front of a JSON text, and what is behind it. -/
def readJson : Nat → List Char → M (Value × List Char)
  | 0, cs => unexpectedIn cs
  | n + 1, cs =>
    match skipBlanks cs with
    | '\x7b' :: rest => do
      let o ← newObject
      match skipBlanks rest with
      | '\x7d' :: rest => return (o, rest)
      | rest => do
        let rest ← readFields n o rest
        return (o, rest)
    | '[' :: rest =>
      match skipBlanks rest with
      | ']' :: rest => do return (← newArray #[], rest)
      | rest => do
        let (items, rest) ← readItems n rest #[]
        return (← newArray items, rest)
    | '"' :: rest => do
      let (s, rest) ← readQuoted (rest.length + 1) rest []
      return (.str s, rest)
    | 't' :: 'r' :: 'u' :: 'e' :: rest => pure (.bool true, rest)
    | 'f' :: 'a' :: 'l' :: 's' :: 'e' :: rest => pure (.bool false, rest)
    | 'n' :: 'u' :: 'l' :: 'l' :: rest => pure (.null, rest)
    | cs => readNumber cs
termination_by n => (n, 0)

/-- The fields of an object up to its closing brace. -/
def readFields : Nat → Value → List Char → M (List Char)
  | 0, _, cs => unexpectedIn cs
  | n + 1, o, cs =>
    match skipBlanks cs with
    | '"' :: rest => do
      let (name, rest) ← readQuoted (rest.length + 1) rest []
      match skipBlanks rest with
      | ':' :: rest => do
        let (v, rest) ← readJson n rest
        putField o (.ofText name) v
        match skipBlanks rest with
        | ',' :: rest => readFields n o rest
        | '\x7d' :: rest => return rest
        | cs => unexpectedIn cs
      | cs => unexpectedIn cs
    | cs => unexpectedIn cs
termination_by n => (n, 1)

/-- The elements of an array up to its closing bracket. -/
def readItems : Nat → List Char → Array Value → M (Array Value × List Char)
  | 0, cs, _ => unexpectedIn cs
  | n + 1, cs, acc => do
    let (v, rest) ← readJson n cs
    match skipBlanks rest with
    | ',' :: rest => readItems n rest (acc.push v)
    | ']' :: rest => return (acc.push v, rest)
    | cs => unexpectedIn cs
termination_by n => (n, 1)

end

/-- Let a function replace the values of an object, the inner ones first. -/
def revive (f : Value) : Nat → Value → Key → M Value
  | 0, _, _ => pure .undefined
  | n + 1, holder, k => do
    let v ← getOf holder k
    if let .obj id := v then
      let keys ← if ← isArray v then pure ((List.range (← lengthOf v)).map Key.index)
        else enumerableKeys id
      keys.forM fun k => do
        match ← revive f n v k with
        | .undefined => discard (deleteProperty id k)
        | x => discard (defineProperty id k (.ofSlot (.data x .full)))
    call f holder #[k.toValue, v]

/-- Functions on JSON texts. -/
def json (f : JsonFn) (i : Invocation) : M Value := do
  match f with
  | .parse => do
    let s ← toText (i.arg 0)
    let cs := s.toList
    let (v, rest) ← readJson (cs.length + 1) cs
    unless (skipBlanks rest).isEmpty do unexpectedIn (skipBlanks rest)
    if ← isCallable (i.arg 1) then revive (i.arg 1) deepestValue (← objectWith [("", v)]) (.text "")
    else return v
  | .stringify => stringify (i.arg 0) (i.arg 1) (i.arg 2)

end ScriptHost.Engine.Builtin
