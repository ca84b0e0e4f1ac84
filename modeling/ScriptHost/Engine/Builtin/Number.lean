import ScriptHost.Engine.Builtin.Basic
/-!
Functions on numbers, truth values and whole numbers of any size, and those of mathematics. Texts with
a fixed number of digits are rounded from the exact value.
-/

namespace ScriptHost.Engine.Builtin

/-- A positive finite number as a fraction of whole numbers. -/
def fractionOf (x : Float) : Nat × Nat :=
  let s := Stored.ofFloat x
  if s.exponent ≥ 0 then (s.mantissa <<< s.exponent.toNat, 1)
  else (s.mantissa, 1 <<< (-s.exponent).toNat)

/-- A fraction rounded to a whole number, a half away from zero. -/
def roundFraction (a b : Nat) : Nat := (2 * a + b) / (2 * b)

/-- Zeros in front of digits up to a width. -/
def padDigits (width : Nat) (s : String) : String :=
  String.ofList (List.replicate (width - s.length) '0') ++ s

/-- A number with so many digits behind the point. -/
def fixedText (x : Float) (digits : Nat) : String :=
  if x.isNaN || x.isInf || x.abs ≥ 1e21 then Number.text x
  else
    let (a, b) := fractionOf x
    let n := roundFraction (a * Nat.pow 10 digits) b
    let text := padDigits (digits + 1) (toString n)
    let whole := (text.take (text.length - digits)).toString
    let shown := if digits = 0 then text
      else whole ++ "." ++ (text.drop (text.length - digits)).toString
    if x < 0 && n > 0 then "-" ++ shown else if x < 0 then "-" ++ shown else shown

/-- The exponent of the first digit of a positive fraction. -/
def decimalExponent (a b : Nat) : Int :=
  if a ≥ b then ((toString (a / b)).length : Int) - 1
  else
    let guess := (toString (b / a)).length
    if a * Nat.pow 10 (guess - 1) ≥ b then -((guess : Int) - 1) else -(guess : Int)

/-- The first so many digits of a number, rounded, and the exponent of the first one. -/
def roundedDigits (x : Float) (count : Nat) : String × Int :=
  if x == 0 then (padDigits count "", 0)
  else
    let (a, b) := fractionOf x
    let e := decimalExponent a b
    let shift := (count : Int) - 1 - e
    let n := if shift ≥ 0 then roundFraction (a * Nat.pow 10 shift.toNat) b
      else roundFraction a (b * Nat.pow 10 (-shift).toNat)
    let s := toString n
    if s.length > count then ((s.take count).toString, e + 1) else (s, e)

/-- Digits with a point behind the first one, and an exponent. -/
def scientific (digits : String) (e : Int) : String :=
  let head := (digits.take 1).toString
  let tail := (digits.drop 1).toString
  let point := if tail.isEmpty then "" else "." ++ tail
  let sign := if e < 0 then "-" else "+"
  head ++ point ++ "e" ++ sign ++ toString e.natAbs

/-- A number with one digit in front of the point and an exponent. -/
def exponentialText (x : Float) (digits : Option Nat) : String :=
  let sign := if x < 0 then "-" else ""
  match digits with
  | some d =>
    let (s, e) := roundedDigits x (d + 1)
    sign ++ scientific s e
  | none =>
    let shortest := (List.range 17).findSome? fun k =>
      let (s, e) := roundedDigits x (k + 1)
      let text := scientific s e
      if numberOfText text == x.abs then some text else none
    sign ++ shortest.getD "0e+0"

/-- A number with so many digits in all. -/
def precisionText (x : Float) (count : Nat) : String :=
  let sign := if x < 0 then "-" else ""
  let (s, e) := roundedDigits x count
  if e < -6 || e ≥ count then sign ++ scientific s e
  else if e ≥ 0 then
    let whole := (s.take (e.toNat + 1)).toString
    let rest := (s.drop (e.toNat + 1)).toString
    sign ++ (if rest.isEmpty then whole else whole ++ "." ++ rest)
  else sign ++ "0." ++ padDigits (s.length + ((-e).toNat - 1)) s

/-- The number that a method was called on. -/
def thisNumber (v : Value) : M Float := do
  match v with
  | .num x => return x
  | .obj id =>
    match (← objectOf id).kind with
    | .box (.num x) => return x
    | _ => throwType "not a number"
  | _ => throwType "not a number"

/-- A whole number at the front of a text, in a base. -/
def parseWhole (s : String) (radix : Float) : Float :=
  let cs := s.toList.dropWhile isScriptBlank
  let (negative, cs) := match cs with
    | '-' :: r => (true, r)
    | '+' :: r => (false, r)
    | r => (false, r)
  let r := (Number.word radix).toInt32.toInt
  if r ≠ 0 && (r < 2 || r > 36) then Number.nan
  else
    let (r, cs) := match cs with
      | '0' :: x :: rest =>
        if (x = 'x' || x = 'X') && (r = 0 || r = 16) then ((16 : Nat), rest)
        else ((if r = 0 then 10 else r.toNat), cs)
      | cs => ((if r = 0 then 10 else r.toNat), cs)
    let value (c : Char) : Nat :=
      if c.isDigit then c.toNat - 48
      else if 'a' ≤ c && c ≤ 'z' then c.toNat - 87
      else if 'A' ≤ c && c ≤ 'Z' then c.toNat - 55
      else 99
    let digits := cs.takeWhile fun c => value c < r
    if digits.isEmpty then Number.nan
    else
      let n := digits.foldl (fun n c => n * r + value c) 0
      let x := Number.ofInt n
      if negative then -x else x

/-- The number at the front of a text. -/
def parseDecimal (s : String) : Float :=
  match spanDecimal (s.toList.dropWhile isScriptBlank) with
  | some (x, _) => x
  | none => Number.nan

/-- A number is whole. -/
def isWhole (v : Value) : Bool :=
  match v with
  | .num x => !x.isNaN && !x.isInf && x.floor == x
  | _ => false

/-- A count of digits from an argument, within bounds. -/
def digitsArg (v : Value) (low high : Float) (complaint : String) : M Nat := do
  let x ← toWhole v
  if x < low || x > high then throwNew .range complaint
  return x.toUInt64.toNat

/-- The value as a number, from a whole number of any size as well. -/
def numberFrom (v : Value) : M Float := do
  match ← toNumeric v with
  | .big n => return Number.ofInt n
  | .num x => return x
  | _ => return Number.nan

/-- An object around a primitive value. -/
def boxed (i : Invocation) (proto : Intrinsic) (v : Value) : M Value := do
  if i.isNew then allocate { proto := ← prototypeFor i.newTarget proto, kind := .box v }
  else return v

/-- Functions on numbers. -/
def number (f : NumberFn) (i : Invocation) : M Value := do
  let v := i.arg 0
  match f with
  | .new => do
    let x ← if i.args.isEmpty then pure 0 else numberFrom v
    boxed i .number (.num x)
  | .isFinite => return .bool (match v with
      | .num x => !x.isNaN && !x.isInf
      | _ => false)
  | .isInteger => return .bool (isWhole v)
  | .isNaN => return .bool (match v with
      | .num x => x.isNaN
      | _ => false)
  | .isSafeInteger => return .bool (match v with
      | .num x => isWhole v && x.abs ≤ 9007199254740991
      | _ => false)
  | .toExponential => do
    let x ← thisNumber i.this
    let d ← digitsArg v 0 100 "toExponential() argument must be between 0 and 100"
    if x.isNaN || x.isInf then return .str (Number.text x)
    return .str (exponentialText x (if v matches .undefined then none else some d))
  | .toFixed => do
    let x ← thisNumber i.this
    let d ← digitsArg v 0 100 "toFixed() digits argument must be between 0 and 100"
    return .str (fixedText x d)
  | .toPrecision => do
    let x ← thisNumber i.this
    if (v matches .undefined) || x.isNaN || x.isInf then return .str (Number.text x)
    let d ← digitsArg v 1 100 "toPrecision() argument must be between 1 and 100"
    return .str (precisionText x d)
  | .toLocaleString => return .str (Number.text (← thisNumber i.this))
  | .toString => do
    let x ← thisNumber i.this
    if v matches .undefined then return .str (Number.text x)
    let radix ← digitsArg v 2 36 "toString() radix argument must be between 2 and 36"
    return .str (Number.textIn radix x)
  | .valueOf => return .num (← thisNumber i.this)
  | .parseInt => do
    let s ← toText v
    return .num (parseWhole s (← toNumber (i.arg 1)))
  | .parseFloat => return .num (parseDecimal (← toText v))
  | .globalIsNaN => return .bool (← toNumber v).isNaN
  | .globalIsFinite => do
    let x ← toNumber v
    return .bool (!x.isNaN && !x.isInf)

/-- The truth value that a method was called on. -/
def thisBool (v : Value) : M Bool := do
  match v with
  | .bool b => return b
  | .obj id =>
    match (← objectOf id).kind with
    | .box (.bool b) => return b
    | _ => throwType "not a boolean"
  | _ => throwType "not a boolean"

/-- Functions on truth values. -/
def boolean (f : BooleanFn) (i : Invocation) : M Value := do
  match f with
  | .new => boxed i .boolean (.bool (i.arg 0).truthy)
  | .toString => return .str (if ← thisBool i.this then "true" else "false")
  | .valueOf => return .bool (← thisBool i.this)

/-- The whole number that a method was called on. -/
def thisBig (v : Value) : M Int := do
  match v with
  | .big n => return n
  | .obj id =>
    match (← objectOf id).kind with
    | .box (.big n) => return n
    | _ => throwType "not a BigInt"
  | _ => throwType "not a BigInt"

/-- Functions on whole numbers of any size. -/
def bigint (f : BigIntFn) (i : Invocation) : M Value := do
  let v := i.arg 0
  match f with
  | .new => do
    if i.isNew then throwType "not a constructor"
    match ← toPrimitive v .number with
    | .num x =>
      if x.isNaN || x.isInf then throwNew .range "cannot convert NaN or Infinity to BigInt"
      if x.floor != x then throwNew .range "cannot convert to BigInt: not an integer"
      return .big (Number.whole x)
    | p => return .big (← toBig p)
  | .asIntN => do
    let bits ← toLength v
    return .big (signedWord bits (← toBig (i.arg 1)))
  | .asUintN => do
    let bits ← toLength v
    return .big ((← toBig (i.arg 1)) % (1 <<< bits : Nat))
  | .toString | .toLocaleString => do
    let n ← thisBig i.this
    if v matches .undefined then return .str (toString n)
    let radix ← digitsArg v 2 36 "radix must be between 2 and 36"
    return .str (Number.wholeText radix n)
  | .valueOf => return .big (← thisBig i.this)

/-- The number rounded to a whole one, a half upwards. -/
def roundUp (x : Float) : Float :=
  if x.isNaN || x.isInf || x.floor == x then x
  else
    let r := (x + 0.5).floor
    let r := if x == 0.49999999999999994 then 0 else r
    if r == 0 && x < 0 then -0.0 else r

/-- The greater of two numbers; a number with a sign is less than zero without. -/
def greater (x y : Float) : Float :=
  if x.isNaN || y.isNaN then Number.nan
  else if x == 0 && y == 0 then (if x.toBits = 0 then x else y)
  else if x > y then x else y

/-- The lesser of two numbers. -/
def lesser (x y : Float) : Float :=
  if x.isNaN || y.isNaN then Number.nan
  else if x == 0 && y == 0 then (if x.toBits = 0 then y else x)
  else if x < y then x else y

/-- Functions of mathematics. -/
def math (f : MathFn) (i : Invocation) : M Value := do
  match f with
  | .max => do
    let xs ← i.args.toList.mapM toNumber
    return .num (xs.foldl greater (-(1.0 / 0.0)))
  | .min => do
    let xs ← i.args.toList.mapM toNumber
    return .num (xs.foldl lesser (1.0 / 0.0))
  | .hypot => do
    let xs ← i.args.toList.mapM toNumber
    if xs.any Float.isInf then return .num (1.0 / 0.0)
    return .num (xs.foldl (fun s x => s + x * x) 0).sqrt
  | .random => do
    let n ← update fun w => (w.heap.size + w.captures, { w with captures := w.captures + 1 })
    let mixed := (UInt64.ofNat n + 0x9e3779b97f4a7c15) * 0xbf58476d1ce4e5b9
    return .num (Float.ofNat ((mixed ^^^ (mixed >>> 31)) >>> 11).toNat / 9007199254740992)
  | f => do
    let x ← toNumber (i.arg 0)
    match f with
    | .abs => return .num x.abs
    | .acos => return .num x.acos
    | .acosh => return .num x.acosh
    | .asin => return .num x.asin
    | .asinh => return .num x.asinh
    | .atan => return .num x.atan
    | .atan2 => return .num (Float.atan2 x (← toNumber (i.arg 1)))
    | .atanh => return .num x.atanh
    | .cbrt => return .num x.cbrt
    | .ceil => return .num x.ceil
    | .clz32 =>
      let n := (Number.word x).toNat
      return .ofNat (if n = 0 then 32 else 31 - n.log2)
    | .cos => return .num x.cos
    | .cosh => return .num x.cosh
    | .exp => return .num x.exp
    | .expm1 => return .num (if x.abs < 1e-5 then x + x * x / 2 else x.exp - 1)
    | .floor => return .num x.floor
    | .fround => return .num x.toFloat32.toFloat
    | .imul => do
      let y ← toNumber (i.arg 1)
      return .num (Number.ofSigned (Number.word x * Number.word y))
    | .log => return .num x.log
    | .log10 => return .num x.log10
    | .log1p => return .num (if x.abs < 1e-5 then x - x * x / 2 else (1 + x).log)
    | .log2 => return .num x.log2
    | .pow => return .num (Number.power x (← toNumber (i.arg 1)))
    | .round => return .num (roundUp x)
    | .sign => return .num (if x > 0 then 1 else if x < 0 then -1 else x)
    | .sin => return .num x.sin
    | .sinh => return .num x.sinh
    | .sqrt => return .num x.sqrt
    | .tan => return .num x.tan
    | .tanh => return .num x.tanh
    | _ => return .num (Number.truncate x)

/-- The symbol that a method was called on. -/
def thisSymbol (v : Value) : M Nat := do
  match v with
  | .sym id => return id
  | .obj id =>
    match (← objectOf id).kind with
    | .box (.sym s) => return s
    | _ => throwType "not a symbol"
  | _ => throwType "not a symbol"

/-- The description of a symbol. -/
def descriptionOf (id : Nat) : M (Option String) := look fun w => w.symbols.getD id none

/-- Functions on symbols. -/
def symbol (f : SymbolFn) (i : Invocation) : M Value := do
  let v := i.arg 0
  match f with
  | .new => do
    if i.isNew then throwType "not a constructor"
    let text ← if v matches .undefined then pure none else some <$> toText v
    return .sym (← newSymbol text)
  | .for_ => do
    let text ← toText v
    match ← look fun w => w.shared.lookup text with
    | some id => return .sym id
    | none => do
      let id ← newSymbol (some text)
      change fun w => { w with shared := (text, id) :: w.shared }
      return .sym id
  | .keyFor => do
    match v with
    | .sym id =>
      match ← look fun w => w.shared.find? (·.2 = id) with
      | some (text, _) => return .str text
      | none => return .undefined
    | _ => throwType "not a symbol"
  | .toString => do
    let text ← descriptionOf (← thisSymbol i.this)
    return .str ("Symbol(" ++ text.getD "" ++ ")")
  | .valueOf | .toPrimitive => return .sym (← thisSymbol i.this)
  | .description => do
    match ← descriptionOf (← thisSymbol i.this) with
    | some text => return .str text
    | none => return .undefined

end ScriptHost.Engine.Builtin
