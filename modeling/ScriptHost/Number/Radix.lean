import ScriptHost.Number
/-!
Numbers written in other bases than ten. A fraction is written until its digits, read as one whole
number, need all the bits of a number; the last of them is rounded by what is left.
-/

namespace ScriptHost.Number

/-- A digit of a base up to 36. -/
def digitOf (n : Nat) : Char := if n < 10 then Char.ofNat (48 + n) else Char.ofNat (87 + n)

/-- The digits of a whole number in a base, in front of others. -/
def digitsIn (radix : Nat) : Nat → Nat → List Nat → List Nat
  | 0, _, acc => acc
  | fuel + 1, n, acc =>
    if n < radix then n :: acc else digitsIn radix fuel (n / radix) (n % radix :: acc)

/-- The text of digits. -/
def ofDigits (ds : List Nat) : String := String.ofList (ds.map digitOf)

/-- The text of a whole number of any size in a base. -/
def wholeText (radix : Nat) (n : Int) : String :=
  (if n < 0 then "-" else "") ++ ofDigits (digitsIn radix (n.natAbs.log2 + 2) n.natAbs [])

/-- The largest number below which all whole numbers are numbers. -/
def maxExact : Nat := 9007199254740991

/-- The digits of a number too large to have a fraction, in front of others; digits that it does not
determine are zero. -/
def largeDigits (radix : Nat) : Nat → Float → List Nat → List Nat
  | 0, _, acc => acc
  | fuel + 1, x, acc =>
    if x < ofNat radix then x.toUInt64.toNat :: acc
    else
      let rest := (x / ofNat radix).floor
      let digit := if rest ≥ ofNat maxExact then 0 else (remainder x (ofNat radix)).toUInt64.toNat
      largeDigits radix fuel rest (digit :: acc)

/-- The digits of a fraction in a base, last one first, and what is left of it; `seen` is the number
that the digits so far are. -/
def fractionDigits (radix : Nat) : Nat → Nat → Float → List Nat → List Nat × Float
  | 0, _, x, acc => (acc, x)
  | fuel + 1, seen, x, acc =>
    if x == 0 || seen > maxExact / 2 then (acc, x)
    else
      let y := x * ofNat radix
      let digit := y.floor.toUInt64.toNat
      fractionDigits radix fuel (seen * radix + digit) (y - y.floor) (digit :: acc)

/-- The text of a number that is not negative, in a base. -/
def unsignedTextIn (radix : Nat) (x : Float) : String :=
  let whole := (Number.whole x).natAbs
  if whole > maxExact then ofDigits (largeDigits radix 1100 x [])
  else
    let most := (1074 / Float.log2 (ofNat radix)).ceil.toUInt64.toNat
    let (ds, rest) := fractionDigits radix most whole (x - x.floor) []
    let written (whole : Nat) (ds : List Nat) : String :=
      wholeText radix whole ++ (if ds.isEmpty then "" else "." ++ ofDigits ds.reverse)
    if rest * ofNat radix ≥ ofNat (radix / 2) then
      match ds.dropWhile (· = radix - 1) with
      | [] => written (whole + 1) []
      | d :: ds => written whole ((d + 1) :: ds)
    else written whole (ds.dropWhile (· = 0))

/-- The text of a number in a base. -/
def textIn (radix : Nat) (x : Float) : String :=
  if radix = 10 || x.isNaN || x.isInf then text x
  else if x < 0 then "-" ++ unsignedTextIn radix (-x)
  else unsignedTextIn radix x

end ScriptHost.Number
