import ScriptHost.Engine.Scope
/-!
Operators on values that were already found. Numbers and whole numbers of any size do not mix.
-/

namespace ScriptHost.Engine

/-- A whole number cut to the word of so many bits, as a signed number. -/
def signedWord (bits : Nat) (n : Int) : Int :=
  let m := n % (1 <<< bits : Nat)
  if bits > 0 && m ≥ (1 <<< (bits - 1) : Nat) then m - (1 <<< bits : Nat) else m

/-- A bit operation on whole numbers of any size: on words wide enough for both. -/
def bigBits (f : Nat → Nat → Nat) (a b : Int) : Int :=
  let bits := max a.natAbs.log2 b.natAbs.log2 + 2
  let word (n : Int) : Nat := (n % (1 <<< bits : Nat)).toNat
  signedWord bits (f (word a) (word b))

/-- Shift a whole number to the left, or to the right by a negative amount. -/
def bigShift (a n : Int) : M Int := do
  if n ≥ 0 then
    if n > 1048576 && a ≠ 0 then throwNew .range "BigInt is too large to allocate"
    return if a = 0 then 0 else a * (1 <<< n.toNat : Nat)
  else return if n.natAbs > a.natAbs.log2 + 1 then (if a < 0 then -1 else 0) else a / (1 <<< n.natAbs : Nat)

/-- An operator on whole numbers of any size. -/
def bigOperator (op : String) (a b : Int) : M Value := do
  match op with
  | "+" => return .big (a + b)
  | "-" => return .big (a - b)
  | "*" => return .big (a * b)
  | "/" =>
    if b = 0 then throwNew .range "BigInt division by zero" else return .big (a.tdiv b)
  | "%" =>
    if b = 0 then throwNew .range "BigInt division by zero" else return .big (a.tmod b)
  | "**" =>
    if b < 0 then throwNew .range "BigInt negative exponent"
    else if a.natAbs > 1 && b * (a.natAbs.log2 + 1) > 1048576 then
      throwNew .range "BigInt is too large to allocate"
    else return .big (if a.natAbs ≤ 1 then (if a = -1 then (if b % 2 = 0 then 1 else -1)
      else if b = 0 then 1 else a) else a.pow b.toNat)
  | "&" => return .big (bigBits Nat.land a b)
  | "|" => return .big (bigBits Nat.lor a b)
  | "^" => return .big (bigBits Nat.xor a b)
  | "<<" => return .big (← bigShift a b)
  | ">>" => return .big (← bigShift a (-b))
  | _ => throwType "bigint operands are forbidden for >>>"

/-- An operator on two values that are made numbers of one kind. -/
def arithmetic (op : String) (a b : Value) : M Value := do
  match a, b with
  | .num x, .num y => return .num (Number.operate op x y)
  | a, b =>
    let p ← toNumeric a
    let q ← toNumeric b
    match p, q with
    | .num x, .num y => return .num (Number.operate op x y)
    | .big x, .big y => bigOperator op x y
    | _, _ => throwType "cannot convert BigInt to number"

/-- The sum of numbers, or the texts of two values one after the other. -/
def add (a b : Value) : M Value := do
  match a, b with
  | .num x, .num y => return .num (x + y)
  | .str s, .str t => return .str (← concatTexts s t)
  | a, b =>
    let p ← toPrimitive a .default
    let q ← toPrimitive b .default
    match p, q with
    | .str s, q => return .str (← concatTexts s (← primitiveText q))
    | p, .str t => return .str (← concatTexts (← primitiveText p) t)
    | p, q => arithmetic "+" p q

/-- A binary operator. -/
def binaryOperator (op : String) (a b : Value) : M Value := do
  match op with
  | "+" => add a b
  | "<" => return .bool ((← compareValues a b true) = some .lt)
  | "===" => return .bool (strictEquals a b)
  | "!==" => return .bool (!strictEquals a b)
  | "==" => return .bool (← looseEquals a b)
  | "!=" => return .bool !(← looseEquals a b)
  | ">" => return .bool ((← compareValues a b true) = some .gt)
  | "<=" =>
    let r ← compareValues a b true
    return .bool (r = some .lt || r = some .eq)
  | ">=" =>
    let r ← compareValues a b true
    return .bool (r = some .gt || r = some .eq)
  | "instanceof" => return .bool (← instanceOf a b)
  | "in" =>
    match b with
    | .obj id => return .bool (← hasProperty id (← toKey a))
    | _ => throwType "invalid 'in' operand"
  | op => arithmetic op a b

/-- A unary operator, `typeof`, `delete` and `void` aside. -/
def unaryOperator (op : String) (v : Value) : M Value := do
  match op with
  | "!" => return .bool !v.truthy
  | "-" =>
    match ← toNumeric v with
    | .big n => return .big (-n)
    | .num x => return .num (-x)
    | v => return v
  | "+" => return .num (← toNumber v)
  | _ =>
    match ← toNumeric v with
    | .big n => return .big (-n - 1)
    | .num x => return .num (Number.complement x)
    | v => return v

/-- One more or one less. -/
def stepNumber (op : String) (v : Value) : Value :=
  match v with
  | .big n => .big (if op = "++" then n + 1 else n - 1)
  | .num x => .num (if op == "++" then x + 1 else x - 1)
  | v => v

end ScriptHost.Engine
