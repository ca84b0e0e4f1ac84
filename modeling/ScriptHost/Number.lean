import ScriptHost.Decimal.Shortest
/-!
The numbers of scripts: binary fractions of 64 bits, their texts, their whole parts and the operators
on them. Bit operators work on the 32-bit word that a number stands for.
-/

namespace ScriptHost.Number

/-- Not a number. -/
def nan : Float := 0.0 / 0.0

/-- Numbers are written positionally from 10⁻⁶ up to 10²¹, and zero has no sign. -/
def layout : Decimal.Layout := ⟨6, 21, false, false⟩

/-- The text of a number. -/
def text (x : Float) : String :=
  if x.isNaN then "NaN"
  else if x.isInf then (if x < 0 then "-Infinity" else "Infinity")
  else layout.finite x

/-- The nearest number to a whole number that is not negative. -/
def ofNat (n : Nat) : Float := Float.ofScientific n false 0

/-- The nearest number to a whole number. -/
def ofInt (n : Int) : Float := if n < 0 then -(ofNat n.natAbs) else ofNat n.natAbs

/-- The whole part of a finite number; zero for others. -/
def whole (x : Float) : Int :=
  let s := Stored.ofFloat x
  if s.field = 2047 then 0
  else
    let n : Nat := if s.exponent ≥ 0 then s.mantissa <<< s.exponent.toNat
      else s.mantissa >>> (-s.exponent).toNat
    if s.negative then -(n : Int) else n

/-- The number without its fraction. -/
def truncate (x : Float) : Float := if x < 0 then x.ceil else x.floor

/-- The 32-bit word of a number. -/
def word (x : Float) : UInt32 :=
  if x.abs < 4503599627370496 then x.toInt64.toInt32.toUInt32
  else UInt32.ofNat (whole x % 4294967296).toNat

/-- A word as a signed number. -/
def ofSigned (u : UInt32) : Float := Float.ofInt u.toInt32.toInt

/-- A word as an unsigned number. -/
def ofWord (u : UInt32) : Float := Float.ofNat u.toNat

/-- Raise a number to a power; one to no power in particular is not a number. -/
def power (x y : Float) : Float :=
  if y.isNaN then nan
  else if y == 0 then 1
  else if y.isInf && x.abs == 1 then nan
  else Float.pow x y

/-- The exact remainder of two finite whole parts, scaled to a common exponent. -/
def remainder (x y : Float) : Float :=
  if x.isNaN || y.isNaN || x.isInf || y == 0 then nan
  else if y.isInf || x == 0 then x
  else if x.abs < 9007199254740992 && y.abs < 9007199254740992 && x.floor == x && y.floor == y then
    let r := x.abs.toUInt64 % y.abs.toUInt64
    let r := Float.ofNat r.toNat
    if x < 0 then -r else r
  else
    let (s, t) := (Stored.ofFloat x, Stored.ofFloat y)
    let low := min s.exponent t.exponent
    let a := s.mantissa <<< (s.exponent - low).toNat
    let b := t.mantissa <<< (t.exponent - low).toNat
    let size : Float := Float.scaleB (ofNat (a % b)) low
    if s.negative then -size else size

/-- The operators that join two numbers to a number. -/
def operators : List String := ["+", "-", "*", "/", "%", "**", "&", "|", "^", "<<", ">>", ">>>"]

/-- An operator on numbers. -/
def operate (op : String) (x y : Float) : Float :=
  match op with
  | "+" => x + y
  | "-" => x - y
  | "*" => x * y
  | "/" => x / y
  | "%" => remainder x y
  | "**" => power x y
  | "&" => ofSigned (word x &&& word y)
  | "|" => ofSigned (word x ||| word y)
  | "^" => ofSigned (word x ^^^ word y)
  | "<<" => ofSigned (word x <<< (word y % 32))
  | ">>" => Float.ofInt ((word x).toInt32 >>> (word y % 32).toInt32).toInt
  | _ => ofWord (word x >>> (word y % 32))

/-- The number whose word has every bit changed. -/
def complement (x : Float) : Float := ofSigned (~~~(word x))

end ScriptHost.Number
