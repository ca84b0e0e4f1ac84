import ScriptHost.Json.Basic
/-!
Reading JSON. A reader walks over the bytes of a text and either yields a value or stops with a
cause and the line and column, counted in bytes, where it stands. Nesting is limited to 127 levels.
The readers for parts of a text are open, so that a record can be read without building a value.
-/

namespace ScriptHost.Json

/-- Why a text was refused. -/
inductive Cause where
  | endInList | endInObject | endInString | endInValue
  | expectedColon | expectedListEnd | expectedObjectEnd | expectedWord | expectedValue
  | badEscape | badNumber | numberRange | controlCharacter | keyNotString
  | loneSurrogate | trailingComma | trailingCharacters | cutEscape | nesting
  | unlike (text : String)
  deriving DecidableEq, Inhabited

/-- The wording of a cause. -/
def Cause.message : Cause → String
  | .endInList => "EOF while parsing a list"
  | .endInObject => "EOF while parsing an object"
  | .endInString => "EOF while parsing a string"
  | .endInValue => "EOF while parsing a value"
  | .expectedColon => "expected \x60:\x60"
  | .expectedListEnd => "expected \x60,\x60 or \x60]\x60"
  | .expectedObjectEnd => "expected \x60,\x60 or \x60\x7d\x60"
  | .expectedWord => "expected ident"
  | .expectedValue => "expected value"
  | .badEscape => "invalid escape"
  | .badNumber => "invalid number"
  | .numberRange => "number out of range"
  | .controlCharacter => "control character (\\u0000-\\u001F) found while parsing a string"
  | .keyNotString => "key must be a string"
  | .loneSurrogate => "lone leading surrogate in hex escape"
  | .trailingComma => "trailing comma"
  | .trailingCharacters => "trailing characters"
  | .cutEscape => "unexpected end of hex escape"
  | .nesting => "recursion limit exceeded"
  | .unlike text => text

/-- A refusal: its cause and, once known, its line and column. -/
structure Refusal where
  cause : Cause
  place : Option (Nat × Nat)
  deriving DecidableEq, Inhabited

/-- The wording of a refusal. -/
def Refusal.message (r : Refusal) : String :=
  match r.place with
  | none => r.cause.message
  | some (line, column) => s!"{r.cause.message} at line {line} column {column}"

/-- What a reader comes to, and the byte where it stands then. -/
inductive Reply (α : Type) where
  | ok (value : α) (pos : Nat)
  | refused (why : Refusal) (pos : Nat)

/-- A walk over the bytes of a text, from a position. -/
def Reader (α : Type) := ByteArray → Nat → Reply α

namespace Reader

instance : Monad Reader where
  pure a := fun _ pos => .ok a pos
  bind m f := fun text pos =>
    match m text pos with
    | .ok a pos' => f a text pos'
    | .refused why pos' => .refused why pos'

/-- The line and column of a byte. -/
def placeOf (text : ByteArray) (index : Nat) : Nat × Nat :=
  (List.range index).foldl
    (fun (line, column) i => if text.get! i = 10 then (line + 1, 0) else (line, column + 1)) (1, 0)

/-- Refuse at the byte where the reader stands. -/
def refuse {α : Type} (cause : Cause) : Reader α :=
  fun text pos => .refused ⟨cause, some (placeOf text pos)⟩ pos

/-- Refuse at the byte that would be read next. -/
def refuseNext {α : Type} (cause : Cause) : Reader α :=
  fun text pos => .refused ⟨cause, some (placeOf text (min text.size (pos + 1)))⟩ pos

/-- Refuse without a place; an enclosing reader supplies it. -/
def refuseUnplaced {α : Type} (cause : Cause) : Reader α := fun _ pos => .refused ⟨cause, none⟩ pos

/-- A refusal without a place is placed where the reader stands. -/
def placed {α : Type} (m : Reader α) : Reader α := fun text pos =>
  match m text pos with
  | .refused ⟨cause, none⟩ pos' => .refused ⟨cause, some (placeOf text pos')⟩ pos'
  | reply => reply

/-- Run the second reader whatever the first came to; the first refusal stands. -/
def closing {α : Type} (m : Reader α) (close : Reader Unit) : Reader α := fun text pos =>
  match m text pos with
  | .ok a pos' =>
    match close text pos' with
    | .ok () pos'' => .ok a pos''
    | .refused why pos'' => .refused why pos''
  | .refused why pos' =>
    match close text pos' with
    | .ok () pos'' => .refused why pos''
    | .refused _ pos'' => .refused why pos''

/-- The next byte, which stays. -/
def peek : Reader (Option UInt8) := fun text pos =>
  .ok (if pos < text.size then some (text.get! pos) else none) pos

/-- Pass over a byte. -/
def skip : Reader Unit := fun _ pos => .ok () (pos + 1)

/-- The next byte, which is passed over. -/
def next : Reader (Option UInt8) := fun text pos =>
  if pos < text.size then .ok (some (text.get! pos)) (pos + 1) else .ok none pos

/-- The number of bytes of the text. -/
def bound : Reader Nat := fun text pos => .ok (text.size + 1) pos

/-- Pass over blanks and look at what follows. -/
def token : Reader (Option UInt8) := fun text pos =>
  let rec go : Nat → Nat → Nat
    | 0, i => i
    | n + 1, i =>
      let b := if i < text.size then text.get! i else 0
      if b = 32 || b = 10 || b = 9 || b = 13 then go n (i + 1) else i
  peek text (go (text.size + 1 - pos) pos)

/-- A byte that is a decimal digit. -/
def isDigit (b : UInt8) : Bool := 48 ≤ b && b ≤ 57

/-- The next byte is a decimal digit; which one. -/
def peekDigit : Reader (Option Nat) := do
  match ← peek with
  | some b => return if isDigit b then some (b.toNat - 48) else none
  | none => return none

/-- The rest of a word whose first letter was read. -/
def word (rest : List UInt8) : Reader Unit :=
  rest.forM fun expected => do
    match ← next with
    | none => refuse .endInValue
    | some b => if b = expected then pure () else refuse .expectedWord

/-! ## Strings -/

def hexValue (b : UInt8) : Option Nat :=
  if 48 ≤ b && b ≤ 57 then some (b.toNat - 48)
  else if 97 ≤ b && b ≤ 102 then some (b.toNat - 87)
  else if 65 ≤ b && b ≤ 70 then some (b.toNat - 55)
  else none

/-- Four hexadecimal digits. -/
def hexEscape : Reader Nat := fun text pos =>
  if pos + 4 ≤ text.size then
    let digits := (List.range 4).map fun i => hexValue (text.get! (pos + i))
    match digits with
    | [some a, some b, some c, some d] => .ok (((a * 16 + b) * 16 + c) * 16 + d) (pos + 4)
    | _ => refuse .badEscape text (pos + 4)
  else refuse .endInString text text.size

/-- A character written in hexadecimal, a pair of surrogates for one beyond the first plane. -/
def unicodeEscape : Reader Char := do
  let n ← hexEscape
  if 0xdc00 ≤ n && n ≤ 0xdfff then refuse .loneSurrogate
  else if n < 0xd800 || n > 0xdbff then return Char.ofNat n
  else
    match ← peek with
    | none => refuse .endInString
    | some 92 => skip
    | some _ => do skip; refuse .cutEscape
    match ← peek with
    | none => refuse .endInString
    | some 117 => skip
    | some _ => do skip; refuse .cutEscape
    let m ← hexEscape
    if m < 0xdc00 || m > 0xdfff then refuse .loneSurrogate
    else return Char.ofNat (0x10000 + (n - 0xd800) * 0x400 + (m - 0xdc00))

/-- What follows a backslash. -/
def escape : Reader Char := do
  match ← next with
  | none => refuse .endInString
  | some 34 => return '"'
  | some 92 => return '\\'
  | some 47 => return '/'
  | some 98 => return '\x08'
  | some 102 => return '\x0c'
  | some 110 => return '\n'
  | some 114 => return '\r'
  | some 116 => return '\t'
  | some 117 => unicodeEscape
  | some _ => refuse .badEscape

/-- The bytes of a string up to its closing quote. -/
def stringBytes : Nat → ByteArray → Reader ByteArray
  | 0, _ => refuse .endInString
  | n + 1, acc => do
    match ← peek with
    | none => refuse .endInString
    | some 34 => do skip; return acc
    | some 92 => do
      skip
      let c ← escape
      stringBytes n (acc ++ c.toString.toUTF8)
    | some b =>
      if b < 32 then do skip; refuse .controlCharacter
      else do skip; stringBytes n (acc.push b)

/-- The rest of a string whose opening quote was read. -/
def string : Reader String := do
  let bytes ← stringBytes (← bound) ByteArray.empty
  return String.fromUTF8! bytes

/-- Pass over a string without looking at the characters its escapes stand for. -/
def skipString : Nat → Reader Unit
  | 0 => refuse .endInString
  | n + 1 => do
    match ← peek with
    | none => refuse .endInString
    | some 34 => skip
    | some 92 => do
      skip
      match ← next with
      | none => refuse .endInString
      | some 117 => do let _ ← hexEscape; skipString n
      | some b =>
        if [34, 92, 47, 98, 102, 110, 114, 116].contains b then skipString n else refuse .badEscape
    | some b => if b < 32 then refuse .controlCharacter else do skip; skipString n

/-! ## Numbers -/

/-- The greatest number of 64 bits. -/
def maxWord : Nat := 0xFFFFFFFFFFFFFFFF

/-- The greatest exponent that is counted. -/
def maxExponent : Nat := 0x7FFFFFFF

/-- A power of ten as a binary number, up to the greatest that is finite. -/
def tenTo (n : Nat) : Float := Float.ofScientific 1 false n

/-- A decimal as a binary number: the digits are rounded first and then multiplied or divided by a
power of ten, which rounds again. Dividing goes in strides of 308. -/
def scaleFloat (digits : Nat) (e : Int) : Except Cause Float :=
  let f := Float.ofScientific digits false 0
  if e ≥ 0 then
    if e > 308 then (if f == 0 then .ok f else .error .numberRange)
    else
      let g := f * tenTo e.toNat
      if g.isInf then .error .numberRange else .ok g
  else .ok (go 400 f (-e).toNat)
where
  go : Nat → Float → Nat → Float
    | 0, f, _ => f
    | n + 1, f, k =>
      if k ≤ 308 then f / tenTo k else if f == 0 then f else go n (f / tenTo 308) (k - 308)

/-- Pass over digits. -/
def skipDigits : Nat → Reader Nat
  | 0 => return 0
  | n + 1 => do
    match ← peekDigit with
    | some _ => do skip; return (← skipDigits n) + 1
    | none => return 0

def finish (positive : Bool) (digits : Nat) (e : Int) : Reader Json :=
  match scaleFloat digits e with
  | .ok f => return .float (if positive then f else -f)
  | .error cause => refuse cause

/-- Digits of an exponent, none once it is beyond counting. -/
def exponentDigits : Nat → Nat → Reader (Option Nat)
  | 0, e => return some e
  | n + 1, e => do
    match ← peekDigit with
    | some d => do
      skip
      if e * 10 + d > maxExponent then return none else exponentDigits n (e * 10 + d)
    | none => return some e

/-- What follows the letter of an exponent. -/
def exponent (positive : Bool) (digits : Nat) (start : Int) : Reader Json := do
  skip
  let up ← match ← peek with
    | some 43 => do skip; pure true
    | some 45 => do skip; pure false
    | _ => pure true
  match ← next with
  | none => refuse .endInValue
  | some b =>
    if isDigit b then do
      match ← exponentDigits (← bound) (b.toNat - 48) with
      | some e => finish positive digits (if up then start + e else start - e)
      | none =>
        if digits ≠ 0 && up then refuse .numberRange
        else do
          let _ ← skipDigits (← bound)
          return .float (if positive then 0.0 else -0.0)
    else refuse .badNumber

def exponentOrEnd (positive : Bool) (digits : Nat) (e : Int) : Reader Json := do
  match ← peek with
  | some 101 | some 69 => exponent positive digits e
  | _ => finish positive digits e

/-- Digits after the point, as long as they fit; how many were passed. -/
def fraction : Nat → Nat → Nat → Reader (Nat × Nat × Bool)
  | 0, digits, count => return (digits, count, false)
  | n + 1, digits, count => do
    match ← peekDigit with
    | some d =>
      if digits * 10 + d > maxWord then return (digits, count, true)
      else do skip; fraction n (digits * 10 + d) (count + 1)
    | none => return (digits, count, false)

/-- What follows a point. -/
def decimal (positive : Bool) (digits : Nat) (before : Int) : Reader Json := do
  skip
  let (digits, count, full) ← fraction (← bound) digits 0
  if full then do
    let _ ← skipDigits (← bound)
    exponentOrEnd positive digits (before - count)
  else if count = 0 then
    match ← peek with
    | some _ => refuseNext .badNumber
    | none => refuseNext .endInValue
  else exponentOrEnd positive digits (before - count)

/-- Digits of a whole number, as long as they fit in a word. -/
def wholeDigits : Nat → Nat → Reader (Nat × Bool)
  | 0, digits => return (digits, false)
  | n + 1, digits => do
    match ← peekDigit with
    | some d =>
      if digits * 10 + d > maxWord then return (digits, true)
      else do skip; wholeDigits n (digits * 10 + d)
    | none => return (digits, false)

/-- A number after its sign. -/
def number (positive : Bool) : Reader Json := do
  match ← next with
  | some b =>
    if b = 48 then do
      match ← peekDigit with
      | some _ => refuseNext .badNumber
      | none => rest 0
    else if isDigit b then do
      let (digits, full) ← wholeDigits (← bound) (b.toNat - 48)
      if full then do
        let more ← skipDigits (← bound)
        match ← peek with
        | some 46 => decimal positive digits more
        | _ => exponentOrEnd positive digits more
      else rest digits
    else refuse .badNumber
  | none => refuse .badNumber
where
  rest (digits : Nat) : Reader Json := do
    match ← peek with
    | some 46 => decimal positive digits 0
    | some 101 | some 69 => exponent positive digits 0
    | _ =>
      if positive then return .int digits
      else if digits = 0 || digits > 0x8000000000000000 then return .float (-(Float.ofScientific digits false 0))
      else return .int (-(digits : Int))

/-- Pass over a number after its sign. -/
def skipNumber : Reader Unit := do
  match ← next with
  | some b =>
    if b = 48 then do
      match ← peekDigit with
      | some _ => refuseNext .badNumber
      | none => pure ()
    else if isDigit b then do let _ ← skipDigits (← bound)
    else refuse .badNumber
  | none => refuse .badNumber
  match ← peek with
  | some 46 => do
    skip
    let count ← skipDigits (← bound)
    if count = 0 then refuseNext .badNumber
    match ← peek with
    | some 101 | some 69 => skipExponent
    | _ => pure ()
  | some 101 | some 69 => skipExponent
  | _ => pure ()
where
  skipExponent : Reader Unit := do
    skip
    match ← peek with
    | some 43 | some 45 => skip
    | _ => pure ()
    match ← next with
    | some b => if isDigit b then do let _ ← skipDigits (← bound) else refuse .badNumber
    | none => refuse .badNumber

/-! ## Lists and objects -/

/-- Whether a list goes on, looked at before each item. -/
def hasItem (first : Bool) : Reader Bool := do
  match ← token with
  | none => refuseNext .endInList
  | some 93 => return false
  | some b =>
    if first then return true
    else if b = 44 then do
      skip
      match ← token with
      | some 93 => refuseNext .trailingComma
      | some _ => return true
      | none => refuseNext .endInValue
    else refuseNext .expectedListEnd

/-- Whether an object goes on, looked at before each name. -/
def hasKey (first : Bool) : Reader Bool := do
  match ← token with
  | none => refuseNext .endInObject
  | some 125 => return false
  | some b =>
    if first then
      if b = 34 then return true else refuseNext .keyNotString
    else if b = 44 then do
      skip
      match ← token with
      | some 34 => return true
      | some 125 => refuseNext .trailingComma
      | some _ => refuseNext .keyNotString
      | none => refuseNext .endInValue
    else refuseNext .expectedObjectEnd

/-- The name of a member. -/
def key : Reader String := do skip; string

/-- The colon after a name. -/
def colon : Reader Unit := do
  match ← token with
  | some 58 => skip
  | some _ => refuseNext .expectedColon
  | none => refuseNext .endInObject

/-- The end of a list. -/
def listEnd : Reader Unit := do
  match ← token with
  | some 93 => skip
  | some 44 => do
    skip
    match ← token with
    | some 93 => refuseNext .trailingComma
    | _ => refuseNext .trailingCharacters
  | some _ => refuseNext .trailingCharacters
  | none => refuseNext .endInList

/-- The end of an object. -/
def objectEnd : Reader Unit := do
  match ← token with
  | some 125 => skip
  | some 44 => refuseNext .trailingComma
  | some _ => refuseNext .trailingCharacters
  | none => refuseNext .endInObject

/-- The items of a list. -/
def items (item : Reader Json) : Nat → Bool → Reader (List Json)
  | 0, _ => refuse .endInList
  | n + 1, first => do
    if ← hasItem first then
      let v ← item
      return v :: (← items item n false)
    else return []

/-- The members of an object. -/
def members (item : Reader Json) :
    Nat → Bool → List (String × Json) → Reader (List (String × Json))
  | 0, _, _ => refuse .endInObject
  | n + 1, first, acc => do
    if ← hasKey first then
      let name ← key
      colon
      let v ← item
      members item n false (insertMember name v acc)
    else return acc

/-- A value, with so many levels of nesting left. -/
def value : Nat → Reader Json
  | 0 => refuse .nesting
  | levels + 1 => placed do
    match ← token with
    | none => refuseNext .endInValue
    | some 110 => do skip; word [117, 108, 108]; return .null
    | some 116 => do skip; word [114, 117, 101]; return .bool true
    | some 102 => do skip; word [97, 108, 115, 101]; return .bool false
    | some 45 => do skip; number false
    | some 34 => do skip; return .str (← string)
    | some 91 =>
      if levels = 0 then refuseNext .nesting
      else do
        skip
        let vs ← closing (items (value levels) (← bound) true) listEnd
        return .arr vs
    | some 123 =>
      if levels = 0 then refuseNext .nesting
      else do
        skip
        let ms ← closing (members (value levels) (← bound) true []) objectEnd
        return .obj ms
    | some b => if isDigit b then number true else refuseNext .expectedValue

/-- The levels of nesting a text may start with. -/
def levels : Nat := 128

/-- Nothing but blanks may follow. -/
def textEnd : Reader Unit := do
  match ← token with
  | some _ => refuseNext .trailingCharacters
  | none => pure ()

/-- Pass over a value; `outer` holds the brackets around it, innermost first. -/
def skipLoop : Nat → List UInt8 → Reader Unit
  | 0, _ => refuse .endInValue
  | n + 1, outer => do
    match ← token with
    | none => refuseNext .endInValue
    | some 110 => do skip; word [117, 108, 108]; after n outer
    | some 116 => do skip; word [114, 117, 101]; after n outer
    | some 102 => do skip; word [97, 108, 115, 101]; after n outer
    | some 45 => do skip; skipNumber; after n outer
    | some 34 => do skip; skipString (← bound); after n outer
    | some 91 => do skip; opened n 91 outer
    | some 123 => do skip; opened n 123 outer
    | some b => if isDigit b then do skipNumber; after n outer else refuseNext .expectedValue
where
  /-- A value inside `outer` has ended. -/
  after (n : Nat) : List UInt8 → Reader Unit
    | [] => pure ()
    | frame :: outer => do
      match ← token with
      | some 44 => do skip; memberName frame; skipLoop n (frame :: outer)
      | some b =>
        if (b = 93 && frame = 91) || (b = 125 && frame = 123) then do skip; after n outer
        else refuseNext (if frame = 91 then .expectedListEnd else .expectedObjectEnd)
      | none => refuseNext (if frame = 91 then .endInList else .endInObject)
  /-- A bracket has just been opened. -/
  opened (n : Nat) (frame : UInt8) (outer : List UInt8) : Reader Unit := do
    match ← token with
    | some b =>
      if (b = 93 && frame = 91) || (b = 125 && frame = 123) then do skip; after n outer
      else do memberName frame; skipLoop n (frame :: outer)
    | none => refuseNext (if frame = 91 then .endInList else .endInObject)
  /-- The name and colon in front of a member's value. -/
  memberName (frame : UInt8) : Reader Unit := do
    if frame = 123 then
      match ← token with
      | some 34 => skip
      | some _ => refuseNext .keyNotString
      | none => refuseNext .endInObject
      skipString (← bound)
      match ← token with
      | some 58 => skip
      | some _ => refuseNext .expectedColon
      | none => refuseNext .endInObject

/-- Pass over a value of any depth. -/
def skipValue : Reader Unit := do skipLoop (← bound) []

/-- The value of a text, or why it was refused. -/
def run {α : Type} (m : Reader α) (text : String) : Except Refusal α :=
  match m text.toUTF8 0 with
  | .ok a _ => .ok a
  | .refused why _ => .error why

/-- What a value that was not looked for is called. -/
def found (json : Json) : String :=
  match json with
  | .null => "null"
  | .bool b => s!"boolean \x60{b}\x60"
  | .int n => s!"integer \x60{n}\x60"
  | .float x => s!"floating point \x60" ++ floatText x ++ "\x60"
  | .str _ => "string"
  | .arr _ => "sequence"
  | .obj _ => "map"

end Reader

/-- The value that a text holds. -/
def parse (text : String) : Except Refusal Json :=
  Reader.run (do let v ← Reader.value Reader.levels; Reader.textEnd; return v) text

end ScriptHost.Json
