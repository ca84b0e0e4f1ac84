/-!
Decimals for binary floating point. `Decimal.shortest` finds the fewest digits that read back as a
given number, and among those the digits nearest to it; it tests, for one digit, two, and so on,
the two neighbours of the number on that decimal grid in exact arithmetic. `Layout` holds the
decisions of one written form.
-/

namespace ScriptHost

/-- The number `digits · 10 ^ scale`. -/
structure Decimal where
  digits : Nat
  scale : Int
  deriving DecidableEq, Inhabited

/-- A positive binary number `mantissa · 2 ^ exponent`. -/
structure Binary where
  mantissa : Nat
  exponent : Int
  /-- The next number below is half as far away as the next number above. -/
  nearBelow : Bool
  deriving DecidableEq, Inhabited

/-- A finite binary number of 64 bits as it is stored. -/
structure Stored where
  negative : Bool
  /-- The exponent, counted from the least one; zero for the numbers without a leading bit. -/
  field : Nat
  fraction : Nat
  deriving DecidableEq, Inhabited

namespace Stored

/-- The number of fractions. -/
def fractions : Nat := 0x10000000000000

/-- How a number is stored. -/
def ofFloat (x : Float) : Stored :=
  let bits := x.toBits.toNat
  ⟨bits >>> 63 == 1, (bits >>> 52) % 2048, bits % fractions⟩

/-- The fraction behind its leading bit. -/
def mantissa (s : Stored) : Nat := if s.field = 0 then s.fraction else s.fraction + fractions

/-- The exponent of the last bit of the mantissa. -/
def exponent (s : Stored) : Int := (max s.field 1 : Nat) - 1075

/-- The number without its sign; the next one below it is near where the fraction is zero. -/
def binary (s : Stored) : Binary := ⟨s.mantissa, s.exponent, s.fraction = 0 && s.field > 1⟩

end Stored

namespace Decimal

/-- Powers with a possibly negative exponent, as a pair of factors above and below the line. -/
private def scaled (base : Nat) (e : Int) : Nat × Nat :=
  if e ≥ 0 then (Nat.pow base e.toNat, 1) else (1, Nat.pow base (-e).toNat)

/-- The least `e` with `b < 10 ^ e`. -/
def pointOf (b : Binary) : Int :=
  let low : Int := (b.mantissa.log2 : Int) + b.exponent
  let guess := Int.fdiv (low * 1233) 4096 + 1
  let (up, down) := scaled 2 b.exponent
  let (tenUp, tenDown) := scaled 10 guess
  if b.mantissa * up * tenDown ≥ tenUp * down then guess + 1 else guess

/-- A neighbour on the grid of `10 ^ k`, if one of the two reads back as `b`: the nearer one, and
of two equally near the even one. -/
def onGrid (b : Binary) (k : Int) : Option Nat :=
  let (up, down) := scaled 2 (b.exponent - 2)
  let (tenUp, tenDown) := scaled 10 k
  let unit := down * tenUp
  let at4 (m : Nat) := m * up * tenDown
  let value := at4 (4 * b.mantissa)
  let low := at4 (4 * b.mantissa - (if b.nearBelow then 1 else 2))
  let high := at4 (4 * b.mantissa + 2)
  let ends := b.mantissa % 2 = 0
  let reads (d : Nat) : Bool :=
    let x := d * unit
    (low < x || (ends && low = x)) && (x < high || (ends && x = high))
  let d := value / unit
  let belowBy := value - d * unit
  let aboveBy := (d + 1) * unit - value
  match reads d, reads (d + 1) with
  | true, true => some (if belowBy < aboveBy || (belowBy = aboveBy && d % 2 = 0) then d else d + 1)
  | true, false => some d
  | false, true => some (d + 1)
  | false, false => none

/-- Digits without the zeros at the end. -/
def trim : Nat → Decimal → Decimal
  | 0, d => d
  | fuel + 1, d =>
    if d.digits ≠ 0 && d.digits % 10 = 0 then trim fuel ⟨d.digits / 10, d.scale + 1⟩ else d

/-- The fewest digits that read back as `b`; seventeen always do. -/
def shortest (b : Binary) : Decimal :=
  let point := pointOf b
  let tries := (List.range 17).findSome? fun n =>
    let k : Int := point - (Int.ofNat n + 1)
    (onGrid b k).map (⟨·, k⟩)
  trim 20 (tries.getD ⟨0, 0⟩)

/-- The sign and the shortest decimal of a finite number. -/
def ofFloat (x : Float) : Bool × Decimal :=
  let s := Stored.ofFloat x
  (s.negative, if s.mantissa = 0 then ⟨0, 0⟩ else shortest s.binary)

/-- How numbers are laid out in one written form. -/
structure Layout where
  /-- The point may stand up to this many places in front of the first digit. -/
  leading : Nat
  /-- The point may stand up to this many places after the first digit. -/
  trailing : Nat
  /-- A whole number written without exponent ends in `.0`. -/
  pointZero : Bool
  /-- Zero keeps its sign. -/
  signedZero : Bool

/-- Digits and point, or digits and exponent. -/
def Layout.positive (l : Layout) (d : Decimal) : String :=
  let digits := Nat.toDigits 10 d.digits
  let count : Int := digits.length
  let point := count + d.scale
  let zeros (n : Int) := List.replicate n.toNat '0'
  if d.digits = 0 then (if l.pointZero then "0.0" else "0")
  else if 0 ≤ d.scale ∧ point ≤ l.trailing then
    String.ofList (digits ++ zeros d.scale) ++ (if l.pointZero then ".0" else "")
  else if 0 < point ∧ point ≤ l.trailing then
    String.ofList (digits.take point.toNat ++ ['.'] ++ digits.drop point.toNat)
  else if -(l.leading : Int) < point ∧ point ≤ 0 then
    String.ofList (['0', '.'] ++ zeros (-point) ++ digits)
  else
    let e := point - 1
    let shown := toString e.natAbs
    let mark := if e < 0 then "e-" else "e+"
    let mantissa := match digits with
      | [] => []
      | [d] => [d]
      | d :: rest => d :: '.' :: rest
    String.ofList mantissa ++ mark ++ shown

/-- The written form of a finite number. -/
def Layout.finite (l : Layout) (x : Float) : String :=
  let (negative, d) := ofFloat x
  let text := l.positive d
  if negative && (l.signedZero || d.digits ≠ 0) then "-" ++ text else text

end Decimal

end ScriptHost
