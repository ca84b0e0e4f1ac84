import ScriptHost.Number
import ScriptHost.Script.Complaint
import ScriptHost.Text.Units
import ScriptHost.Text.Word
/-!
Tokens of scripts. `Token.scan` reads the token that starts at a place, after the blanks and comments
in front of it. What a slash means depends on the grammar, and so does the end of a template hole:
`scanRegex` and `scanChunk` are asked for by the reader of expressions.
-/

namespace ScriptHost.Script

/-- The kind of a token and what it carries. -/
inductive Tok where
  | eof
  /-- A name or a keyword; whether it was written with an escape. -/
  | word (text : String) (escaped : Bool)
  | priv (text : String)
  | num (value : Float) (raw : String)
  | big (value : Nat) (raw : String)
  | str (value raw : String)
  /-- Punctuation. -/
  | sign (text : String)
  /-- The backquote that opens a template. -/
  | template
  | bad (complaint : Complaint)
  deriving Inhabited

/-- A token, where it starts and stops, and whether a line break stands in front of it. -/
structure Token where
  kind : Tok
  start : Nat
  stop : Nat
  newline : Bool
  deriving Inhabited

/-- The text of a token as complaints quote it. -/
def Tok.shown : Tok → String
  | .eof => "<eof>"
  | .word text _ => text
  | .priv text => "#" ++ text
  | .num _ raw => s!"numeric literal ({raw}, {raw})"
  | .big _ raw => s!"bigint literal ({raw}, {raw})"
  | .str value raw => s!"string literal ({value}, {raw})"
  | .sign text => text
  | .template => "\x60"
  | .bad _ => "<lexing error>"

namespace Token

/-- The character at a place, or NUL behind the end. -/
def charAt (text : Array Char) (i : Nat) : Char := (text[i]?).getD '\x00'

/-- The text between two places. -/
def textBetween (text : Array Char) (start stop : Nat) : String :=
  String.ofList (text.extract start stop).toList

/-- A line break. -/
def isLineBreak (c : Char) : Bool := c = '\n' || c = '\r' || c = '\u2028' || c = '\u2029'

/-- White space between tokens, line breaks aside. -/
def isSpace (c : Char) : Bool :=
  let n := c.toNat
  n = 0x09 || n = 0x0b || n = 0x0c || n = 0x20 || n = 0xa0 || n = 0xfeff || n = 0x1680 ||
  (0x2000 ≤ n && n ≤ 0x200a) || n = 0x202f || n = 0x205f || n = 0x3000

/-- The first place from `i` on where the condition fails. -/
def skipWhile (text : Array Char) (cond : Char → Bool) : Nat → Nat → Nat
  | 0, i => i
  | n + 1, i =>
    match text[i]? with
    | some c => if cond c then skipWhile text cond n (i + 1) else i
    | none => i

/-- The characters from `i` on are these. -/
def startsAt (text : Array Char) (i : Nat) (cs : List Char) : Bool :=
  (List.range cs.length).zip cs |>.all fun (k, c) => text[i + k]? = some c

/-- The end of a block comment whose inside starts at `i`, and whether it holds a line break. -/
def blockComment (text : Array Char) : Nat → Nat → Bool → Option Nat × Bool
  | 0, _, broken => (none, broken)
  | n + 1, i, broken =>
    match text[i]? with
    | none => (none, broken)
    | some c =>
      if c = '*' && text[i + 1]? = some '/' then (some (i + 2), broken)
      else blockComment text n (i + 1) (broken || isLineBreak c)

/-- Blanks and comments from `i` on: where they end, whether they hold a line break, and what is
wrong with them. -/
def skipBlanks (text : Array Char) : Nat → Nat → Bool → Nat × Bool × List Fault
  | 0, i, broken => (i, broken, [])
  | n + 1, i, broken =>
    match text[i]? with
    | none => (i, broken, [])
    | some c =>
      if isSpace c then skipBlanks text n (i + 1) broken
      else if isLineBreak c then skipBlanks text n (i + 1) true
      else if c = '/' && text[i + 1]? = some '/' then
        skipBlanks text n (skipWhile text (!isLineBreak ·) text.size i) broken
      else if c = '/' && text[i + 1]? = some '*' then
        match blockComment text text.size (i + 2) broken with
        | (some stop, broken) => skipBlanks text n stop broken
        | (none, broken) => (text.size, broken, [⟨.unterminatedComment, i⟩])
      else if startsAt text i ['<', '!', '-', '-'] then
        skipBlanks text n (skipWhile text (!isLineBreak ·) text.size i) broken
      else if (broken || i = 0) && startsAt text i ['-', '-', '>'] then
        skipBlanks text n (skipWhile text (!isLineBreak ·) text.size i) broken
      else (i, broken, [])

/-! ## Escapes -/

/-- The value of a digit of any base up to sixteen. -/
def digitValue (c : Char) : Option Nat :=
  if c.isDigit then some (c.toNat - 48)
  else if 'a' ≤ c ∧ c ≤ 'f' then some (c.toNat - 87)
  else if 'A' ≤ c ∧ c ≤ 'F' then some (c.toNat - 55)
  else none

/-- A character of a base. -/
def isDigitOf (radix : Nat) (c : Char) : Bool :=
  match digitValue c with
  | some d => d < radix
  | none => false

/-- Exactly `n` hexadecimal digits from `i` on. -/
def hexDigits (text : Array Char) (i n : Nat) : Option Nat :=
  (List.range n).foldlM (fun acc k => do
    let d ← digitValue (charAt text (i + k))
    return acc * 16 + d) 0

/-- What follows `\\u`: a code point and the place behind it. -/
def unicodeEscape (text : Array Char) (i : Nat) : Option (Nat × Nat) :=
  if text[i]? = some '{' then
    let stop := skipWhile text (isDigitOf 16) text.size (i + 1)
    if stop = i + 1 || text[stop]? ≠ some '}' then none
    else
      let n := (text.extract (i + 1) stop).foldl (fun acc c => acc * 16 + (digitValue c).getD 0) 0
      if n > 0x10ffff then none else some (n, stop + 1)
  else (hexDigits text i 4).map (·, i + 4)

/-- The characters of a code point in a script's text. -/
def charsOfPoint (n : Nat) : List Char :=
  if n < 0x10000 then [Text.charOfUnit n] else (Text.ofString (Char.ofNat n).toString).toList

/-- What a piece of an escape comes to. -/
inductive Escaped where
  | chars (cs : List Char) (stop : Nat)
  /-- An octal escape or a zero before a digit. -/
  | legacy (cs : List Char) (stop : Nat) (complaint : Complaint)
  | refused (complaint : Complaint)

/-- The character that a letter behind a backslash stands for. -/
def letterEscape (c : Char) : Option Char :=
  [('n', '\n'), ('r', '\r'), ('t', '\t'), ('b', '\x08'), ('v', '\x0b'), ('f', '\x0c')].lookup c

/-- What follows a backslash in a string or a template. -/
def scanEscape (text : Array Char) (i : Nat) (inTemplate : Bool) : Escaped :=
  match text[i]? with
  | none => .chars [] i
  | some c =>
    if let some value := letterEscape c then .chars [value] (i + 1)
    else if c = '\r' then .chars [] (if text[i + 1]? = some '\n' then i + 2 else i + 1)
    else if isLineBreak c then .chars [] (i + 1)
    else if c = 'x' then
      match hexDigits text (i + 1) 2 with
      | some n => .chars (charsOfPoint n) (i + 3)
      | none => .refused (.badCharacterEscape "2 hex characters")
    else if c = 'u' then
      match unicodeEscape text (i + 1) with
      | some (n, stop) => .chars (charsOfPoint n) stop
      | none =>
        .refused (.badCharacterEscape
          (if text[i + 1]? = some '{' then "1-6 hex characters" else "4 hex characters"))
    else if isDigitOf 8 c then
      let next := text[i + 1]?
      if c = '0' && !(next.any Char.isDigit) then .chars ['\x00'] (i + 1)
      else if inTemplate then .refused .legacyOctal
      else
        let longest := if c ≤ '3' then 3 else 2
        let digits := ((text.extract i (i + longest)).toList.takeWhile (isDigitOf 8))
        let n := digits.foldl (fun acc d => acc * 8 + (d.toNat - 48)) 0
        .legacy [Char.ofNat n] (i + digits.length) .legacyOctal
    else if c = '8' || c = '9' then
      if inTemplate then .refused .legacyDecimal else .legacy [c] (i + 1) .legacyDecimal
    else .chars [c] (i + 1)

/-- The characters collected in reverse, as a text; halves of a pair that meet are joined. -/
def collected (acc : List Char) : String :=
  let s := String.ofList acc.reverse
  if s.any Text.isStandIn then Text.ofUnits (Text.units s) else s

/-! ## Literals -/

/-- A token, the place behind it, and what is wrong with it. -/
structure Scanned where
  tok : Tok
  stop : Nat
  faults : List Fault := []

/-- A string whose opening quote stands at `start`. -/
def stringFrom (text : Array Char) (strict : Bool) (quote : Char) (start : Nat) :
    Nat → Nat → List Char → List Fault → Scanned
  | 0, i, acc, faults => ⟨.str (collected acc) (textBetween text start i), i, faults.reverse⟩
  | n + 1, i, acc, faults =>
    let ended (stop : Nat) (faults : List Fault) : Scanned :=
      ⟨.str (collected acc) (textBetween text start stop), stop, faults.reverse⟩
    match text[i]? with
    | none => ended i (⟨.unterminatedString, start⟩ :: faults)
    | some c =>
      if c = quote then ended (i + 1) faults
      else if c = '\n' || c = '\r' then ended i (⟨.unterminatedString, start⟩ :: faults)
      else if c = '\\' then
        match scanEscape text (i + 1) false with
        | .chars cs stop => stringFrom text strict quote start n stop (cs.reverse ++ acc) faults
        | .legacy cs stop complaint =>
          stringFrom text strict quote start n stop (cs.reverse ++ acc)
            (if strict then ⟨complaint, i⟩ :: faults else faults)
        | .refused complaint => ⟨.bad complaint, i, faults.reverse⟩
      else
        stringFrom text strict quote start n (i + 1) (c :: acc) faults

/-- Digits with separators from `i` on: the digits, the place behind them, and misplaced
separators. -/
def digitsFrom (text : Array Char) (radix start : Nat) :
    Nat → Nat → List Char → List Fault → List Char × Nat × List Fault
  | 0, i, acc, faults => (acc.reverse, i, faults.reverse)
  | n + 1, i, acc, faults =>
    match text[i]? with
    | none => (acc.reverse, i, faults.reverse)
    | some c =>
      if c = '_' then
        let before := i > start && isDigitOf radix (charAt text (i - 1))
        let after := isDigitOf radix (charAt text (i + 1))
        digitsFrom text radix start n (i + 1) acc
          (if before && after then faults else ⟨.separatorPlace, start⟩ :: faults)
      else if isDigitOf radix c then digitsFrom text radix start n (i + 1) (c :: acc) faults
      else (acc.reverse, i, faults.reverse)

/-- The number that digits of a base stand for. -/
def numberOf (radix : Nat) (digits : List Char) : Nat :=
  digits.foldl (fun acc c => acc * radix + (digitValue c).getD 0) 0

/-- A decimal as a binary number; exponents beyond every number of that many digits are cut. -/
def floatOfDecimal (digits : List Char) (e : Int) : Float :=
  let n := numberOf 10 digits
  let e := if e > 400 then 400 else if e < -(800 + digits.length : Int) then -(800 + digits.length : Int) else e
  if e ≥ 0 then Float.ofScientific n false e.toNat else Float.ofScientific n true (-e).toNat

/-- A number may not run into an identifier. -/
def endNumber (text : Array Char) (s : Scanned) : Scanned :=
  match text[s.stop]? with
  | some c => if Text.isIdentStart c then { s with tok := .bad .identifierAfterNumber } else s
  | none => s

/-- A number of base two, eight or sixteen, whose digits start at `i`. -/
def radixNumber (text : Array Char) (radix start i : Nat) : Scanned :=
  let (digits, stop, faults) := digitsFrom text radix i text.size i [] []
  if digits.isEmpty then ⟨.bad (.digitExpected radix), stop, faults⟩
  else
    let n := numberOf radix digits
    if text[stop]? = some 'n' then
      endNumber text ⟨.big n (textBetween text start (stop + 1)), stop + 1, faults⟩
    else endNumber text ⟨.num (Number.ofNat n) (textBetween text start stop), stop, faults⟩

/-- The exponent of a number whose mantissa ends at `i`. -/
def withExponent (text : Array Char) (start i : Nat) (digits : List Char) (scale : Int)
    (faults : List Fault) : Scanned :=
  if text[i]? = some 'e' || text[i]? = some 'E' then
    match text[i + 1]? with
    | none => ⟨.bad .exponentExpected, i + 1, faults⟩
    | some c =>
      let signed := c = '+' || c = '-'
      let first := if signed then i + 2 else i + 1
      let (exponent, stop, more) := digitsFrom text 10 first text.size first [] []
      if exponent.isEmpty then ⟨.bad (.digitExpected 10), stop, faults⟩
      else
        let e : Int := numberOf 10 (if exponent.length > 9 then ['9', '9', '9', '9', '9', '9'] else exponent)
        let e := if c = '-' then -e else e
        endNumber text ⟨.num (floatOfDecimal digits (scale + e)) (textBetween text start stop), stop,
          faults ++ more⟩
  else endNumber text ⟨.num (floatOfDecimal digits scale) (textBetween text start i), i, faults⟩

/-- The fraction, if any, of a number whose whole part ends at `i`. -/
def withFraction (text : Array Char) (start i : Nat) (digits : List Char)
    (faults : List Fault) : Scanned :=
  if text[i]? = some '.' then
    let (fraction, stop, more) := digitsFrom text 10 (i + 1) text.size (i + 1) [] []
    withExponent text start stop (digits ++ fraction) (-(fraction.length : Int)) (faults ++ more)
  else withExponent text start i digits 0 faults

/-- A number that starts at `i`. -/
def scanNumber (text : Array Char) (strict typed : Bool) (i : Nat) : Scanned :=
  let c := charAt text i
  let next := charAt text (i + 1)
  if c = '0' && (next = 'x' || next = 'X') then radixNumber text 16 i (i + 2)
  else if c = '0' && (next = 'o' || next = 'O') then radixNumber text 8 i (i + 2)
  else if c = '0' && (next = 'b' || next = 'B') then radixNumber text 2 i (i + 2)
  else if c = '.' then withFraction text i i [] []
  else
    let (digits, stop, faults) := digitsFrom text 10 i text.size i [] []
    if digits.length > 1 && c = '0' then
      if digits.all (isDigitOf 8) then
        let legacy : List Fault := if typed then [⟨.octalNotAvailable, i⟩] else []
        let strictly : List Fault := if strict then [⟨.legacyOctal, i⟩] else []
        endNumber text ⟨.num (Number.ofNat (numberOf 8 digits)) (textBetween text i stop), stop,
          faults ++ legacy ++ strictly⟩
      else
        withFraction text i stop digits (faults ++ if strict then [⟨.legacyDecimal, i⟩] else [])
    else if text[stop]? = some 'n' then
      endNumber text ⟨.big (numberOf 10 digits) (textBetween text i (stop + 1)), stop + 1, faults⟩
    else withFraction text i stop digits faults

/-! ## Words -/

/-- The characters of a name from `i` on; whether an escape was used; none for a broken escape. -/
def wordFrom (text : Array Char) : Nat → Nat → List Char → Bool → Option (List Char × Nat × Bool)
  | 0, i, acc, escaped => some (acc.reverse, i, escaped)
  | n + 1, i, acc, escaped =>
    match text[i]? with
    | none => some (acc.reverse, i, escaped)
    | some c =>
      if c = '\\' then
        if text[i + 1]? = some 'u' then
          match unicodeEscape text (i + 2) with
          | some (p, stop) =>
            let c := Char.ofNat p
            if (if acc.isEmpty then Text.isIdentStart c else Text.isIdentPart c)
            then wordFrom text n stop (c :: acc) true else none
          | none => none
        else none
      else if (if acc.isEmpty then Text.isIdentStart c else Text.isIdentPart c)
      then wordFrom text n (i + 1) (c :: acc) escaped
      else some (acc.reverse, i, escaped)

/-! ## Punctuation -/

/-- Punctuation of several characters, longer ones first. -/
def longSigns : List String :=
  [">>>=", "...", "===", "!==", "**=", "<<=", ">>=", ">>>", "&&=", "||=", "??=",
   "=>", "==", "!=", "<=", ">=", "&&", "||", "??", "?.", "++", "--", "+=", "-=", "*=", "/=", "%=",
   "&=", "|=", "^=", "<<", ">>", "**"]

/-- Punctuation of one character. -/
def shortSigns : List Char :=
  ['{', '}', '(', ')', '[', ']', ';', ',', '<', '>', '+', '-', '*', '/', '%', '&', '|', '^', '!',
   '~', '?', ':', '=', '.', '@', '#']

/-- Punctuation at `i`. -/
def scanSign (text : Array Char) (i : Nat) : Scanned :=
  let fits (s : String) : Bool :=
    startsAt text i s.toList &&
      !(s = "?." && (text[i + 2]?).any Char.isDigit)
  match longSigns.find? fits with
  | some s => ⟨.sign s, i + s.length, []⟩
  | none =>
    let c := charAt text i
    if shortSigns.contains c then ⟨.sign c.toString, i + 1, []⟩
    else ⟨.bad (.invalidCharacter c), i + 1, []⟩

/-- The token at `i`, where no blank stands. -/
def scanAt (text : Array Char) (strict typed : Bool) (i : Nat) : Scanned :=
  match text[i]? with
  | none => ⟨.eof, i, []⟩
  | some c =>
    if c = '\\' || Text.isIdentStart c then
      match wordFrom text text.size i [] false with
      | some (cs, stop, escaped) => ⟨.word (String.ofList cs) escaped, stop, []⟩
      | none => ⟨.bad .unicodeEscapeExpected, i + 1, []⟩
    else if c.isDigit || (c = '.' && (text[i + 1]?).any Char.isDigit) then
      scanNumber text strict typed i
    else if c = '"' || c = '\'' then stringFrom text strict c i text.size (i + 1) [] []
    else if c = '\x60' then ⟨.template, i + 1, []⟩
    else if c = '#' && (text[i + 1]?).any (fun d => d = '\\' || Text.isIdentStart d) then
      match wordFrom text text.size (i + 1) [] false with
      | some (cs, stop, _) => ⟨.priv (String.ofList cs), stop, []⟩
      | none => ⟨.bad .unicodeEscapeExpected, i + 2, []⟩
    else scanSign text i

/-- The end of a first line that starts with `#!`; without one, the start of the text. -/
def interpreterEnd (text : Array Char) : Nat :=
  if startsAt text 0 ['#', '!'] then skipWhile text (!isLineBreak ·) text.size 0 else 0

/-- The token behind `i`, and what is wrong with it and the comments before it. -/
def scan (text : Array Char) (strict typed : Bool) (i : Nat) : Token × List Fault :=
  let (start, broken, faults) := skipBlanks text (text.size + 1) i false
  let s := scanAt text strict typed start
  (⟨s.tok, start, s.stop, broken⟩, faults ++ s.faults)

/-! ## What depends on the grammar -/

/-- The end of the body of a regular expression whose inside starts at `i`. -/
def regexEnd (text : Array Char) : Nat → Nat → Bool → Option Nat
  | 0, _, _ => none
  | n + 1, i, inClass =>
    match text[i]? with
    | none => none
    | some c =>
      if isLineBreak c then none
      else if c = '\\' then
        if (text[i + 1]?).all isLineBreak then none else regexEnd text n (i + 2) inClass
      else if c = '[' then regexEnd text n (i + 1) true
      else if c = ']' then regexEnd text n (i + 1) false
      else if c = '/' && !inClass then some i
      else regexEnd text n (i + 1) inClass

/-- A regular expression whose slash stands at `start`: its body, its flags, and where it stops. -/
def scanRegex (text : Array Char) (start : Nat) : Option (String × String × Nat) :=
  match regexEnd text text.size (start + 1) false with
  | none => none
  | some slash =>
    let stop := skipWhile text Text.isIdentPart text.size (slash + 1)
    some (textBetween text (start + 1) slash, textBetween text (slash + 1) stop, stop)

/-- A piece of a template: the piece, whether a hole follows, and where it stops. -/
def chunkFrom (text : Array Char) :
    Nat → Nat → List Char → Option (List Char) → Option ((String × Option String) × Bool × Nat)
  | 0, _, _, _ => none
  | n + 1, i, raw, cooked =>
    let piece : (String × Option String) := (String.ofList raw.reverse, cooked.map collected)
    match text[i]? with
    | none => none
    | some c =>
      if c = '\x60' then some (piece, false, i + 1)
      else if c = '$' && text[i + 1]? = some '{' then some (piece, true, i + 2)
      else if c = '\\' then
        match scanEscape text (i + 1) true with
        | .chars cs stop =>
          let stop := if stop = i + 1 then i + 1 else stop
          chunkFrom text n stop ((text.extract i stop).toList.reverse ++ raw)
            (cooked.map (cs.reverse ++ ·))
        | _ =>
          chunkFrom text n (i + 2) ((text.extract i (i + 2)).toList.reverse ++ raw) none
      else if c = '\r' then
        let stop := if text[i + 1]? = some '\n' then i + 2 else i + 1
        chunkFrom text n stop ('\n' :: raw) (cooked.map ('\n' :: ·))
      else
        chunkFrom text n (i + 1) (c :: raw) (cooked.map (c :: ·))

/-- The piece of a template that starts at `i`: its text as written, its value unless an escape in it
is invalid, whether a hole follows, and where it stops. -/
def scanChunk (text : Array Char) (i : Nat) : Option ((String × Option String) × Bool × Nat) :=
  chunkFrom text (text.size + 1) i [] (some [])

end Token

end ScriptHost.Script
