import ScriptHost.Number.Radix
import ScriptHost.Engine.Object
import ScriptHost.Script.Token
/-!
Conversions between kinds of values, and the comparisons that rest on them. An object becomes a
primitive value through its own methods, so most conversions can run script code.
-/

namespace ScriptHost.Engine

/-! ## Numbers and texts -/

/-- White space and line breaks of scripts. -/
def isScriptBlank (c : Char) : Bool := Script.Token.isSpace c || Script.Token.isLineBreak c

/-- A text without the blanks at both ends. -/
def trimBlanks (cs : List Char) : List Char :=
  ((cs.dropWhile isScriptBlank).reverse.dropWhile isScriptBlank).reverse

/-- Digits in front of a rest. -/
def spanDigits (cs : List Char) : List Char × List Char := cs.span Char.isDigit

/-- An exponent at the front; the rest. -/
def spanExponent (cs : List Char) : Int × List Char :=
  match cs with
  | c :: rest =>
    if c = 'e' || c = 'E' then
      let (negative, digits) := match rest with
        | '+' :: r => (false, r)
        | '-' :: r => (true, r)
        | r => (false, r)
      let (ds, after) := spanDigits digits
      if ds.isEmpty then (0, cs)
      else
        let n : Int := Script.Token.numberOf 10 (if ds.length > 9 then ['9', '9', '9', '9', '9'] else ds)
        (if negative then -n else n, after)
    else (0, cs)
  | [] => (0, [])

/-- A decimal number at the front, and the rest. -/
def spanDecimal (cs : List Char) : Option (Float × List Char) :=
  let (negative, unsigned) := match cs with
    | '+' :: r => (false, r)
    | '-' :: r => (true, r)
    | r => (false, r)
  let sign (x : Float) : Float := if negative then -x else x
  if "Infinity".toList.isPrefixOf unsigned then some (sign (1.0 / 0.0), unsigned.drop 8)
  else
    let (whole, rest) := spanDigits unsigned
    let (fraction, rest) := match rest with
      | '.' :: r =>
        let (f, after) := spanDigits r
        if whole.isEmpty && f.isEmpty then ([], rest) else (f, after)
      | r => ([], r)
    if whole.isEmpty && fraction.isEmpty then none
    else
      let (e, rest) := spanExponent rest
      some (sign (Script.Token.floatOfDecimal (whole ++ fraction) (e - fraction.length)), rest)

/-- The number that a text writes; NaN if it writes none. -/
def numberOfText (s : String) : Float :=
  match trimBlanks s.toList with
  | [] => 0
  | '0' :: r :: digits =>
    let radix := if r = 'x' || r = 'X' then 16 else if r = 'o' || r = 'O' then 8
      else if r = 'b' || r = 'B' then 2 else 0
    if radix > 0 then
      if digits.isEmpty || !digits.all (Script.Token.isDigitOf radix) then Number.nan
      else Number.ofNat (Script.Token.numberOf radix digits)
    else match spanDecimal ('0' :: r :: digits) with
      | some (x, []) => x
      | _ => Number.nan
  | cs =>
    match spanDecimal cs with
    | some (x, []) => x
    | _ => Number.nan

/-- The whole number that a text writes. -/
def bigOfText? (s : String) : Option Int :=
  match trimBlanks s.toList with
  | [] => some 0
  | '-' :: digits =>
    if digits.isEmpty || !digits.all Char.isDigit then none
    else some (-(Script.Token.numberOf 10 digits : Int))
  | '+' :: digits =>
    if digits.isEmpty || !digits.all Char.isDigit then none
    else some (Script.Token.numberOf 10 digits)
  | '0' :: r :: digits =>
    let radix := if r = 'x' || r = 'X' then 16 else if r = 'o' || r = 'O' then 8
      else if r = 'b' || r = 'B' then 2 else 0
    if radix > 0 then
      if digits.isEmpty || !digits.all (Script.Token.isDigitOf radix) then none
      else some (Script.Token.numberOf radix digits)
    else if (r :: digits).all Char.isDigit then some (Script.Token.numberOf 10 (r :: digits)) else none
  | cs => if cs.all Char.isDigit then some (Script.Token.numberOf 10 cs) else none

/-! ## Conversions -/

/-- What a conversion would rather have. -/
inductive Hint where
  | default | number | string
  deriving DecidableEq

/-- The name of a hint. -/
def Hint.name : Hint → String
  | .default => "default"
  | .number => "number"
  | .string => "string"

/-- The first method among the names that gives a primitive value. -/
def ordinaryPrimitive (v : Value) : List String → M Value
  | [] => throwType "toPrimitive"
  | name :: rest => do
    let f ← getNamed v name
    if ← isCallable f then
      let r ← call f v #[]
      if r.isPrimitive then return r
    ordinaryPrimitive v rest

/-- The value as a primitive value. -/
def toPrimitive (v : Value) (hint : Hint) : M Value := do
  match v with
  | .obj _ => do
    match ← methodOf v WellKnown.toPrimitive.key with
    | some f => do
      let r ← call f v #[.str hint.name]
      if r.isPrimitive then return r else throwType "toPrimitive"
    | none =>
      ordinaryPrimitive v (if hint = .string then ["toString", "valueOf"] else ["valueOf", "toString"])
  | v => return v

/-- The text of a primitive value. -/
def primitiveText (v : Value) : M String :=
  match v with
  | .absent | .undefined => pure "undefined"
  | .null => pure "null"
  | .bool b => pure (if b then "true" else "false")
  | .num x => pure (Number.text x)
  | .str s => pure s
  | .big n => pure (toString n)
  | .sym _ => throwType "cannot convert symbol to string"
  | .obj _ => throwType "toPrimitive"

/-- The value as a text. -/
def toText (v : Value) : M String := do
  match v with
  | .str s => return s
  | v => primitiveText (← toPrimitive v .string)

/-- The number of a primitive value. -/
def primitiveNumber (v : Value) : M Float :=
  match v with
  | .absent | .undefined => pure Number.nan
  | .null => pure 0
  | .bool b => pure (if b then 1 else 0)
  | .num x => pure x
  | .str s => pure (numberOfText s)
  | .big _ => throwType "cannot convert BigInt to number"
  | .sym _ => throwType "cannot convert symbol to number"
  | .obj _ => throwType "toPrimitive"

/-- The value as a number. -/
def toNumber (v : Value) : M Float := do
  match v with
  | .num x => return x
  | v => primitiveNumber (← toPrimitive v .number)

/-- The value as a number or a whole number of any size. -/
def toNumeric (v : Value) : M Value := do
  match v with
  | .num _ | .big _ => return v
  | v =>
    match ← toPrimitive v .number with
    | .big n => return .big n
    | v => return .num (← primitiveNumber v)

/-- The value as a whole number of any size. -/
def toBig (v : Value) : M Int := do
  match ← toPrimitive v .number with
  | .big n => return n
  | .bool b => return if b then 1 else 0
  | .str s =>
    match bigOfText? s with
    | some n => return n
    | none => throwNew .syntaxError "invalid bigint literal"
  | _ => throwType "cannot convert to BigInt"

/-- The value as a whole number, which may be infinite. -/
def toWhole (v : Value) : M Float := do
  let x ← toNumber v
  return if x.isNaN then 0 else Number.truncate x

/-- The value as a length. -/
def toLength (v : Value) : M Nat := do
  let x ← toWhole v
  return if x ≤ 0 then 0 else if x > 9007199254740991 then 9007199254740991 else x.toUInt64.toNat

/-- The value as a position in something so long; negative ones count from the end. -/
def toPosition (v : Value) (length absent : Nat) : M Nat := do
  match v with
  | .undefined | .absent => return absent
  | v =>
    let x ← toWhole v
    if x < 0 then
      let y := Float.ofNat length + x
      return if y ≤ 0 then 0 else y.toUInt64.toNat
    else return if x ≥ Float.ofNat length then length else x.toUInt64.toNat

/-- The value as the name of a property. -/
def toKey (v : Value) : M Key := do
  match v with
  | .str s => return .ofText s
  | .num x =>
    if x ≥ 0 && x < 4294967295 && x.floor == x then return .index x.toUInt64.toNat
    else return .ofText (Number.text x)
  | .sym id => return .sym id
  | v =>
    match ← toPrimitive v .string with
    | .sym id => return .sym id
    | p => return .ofText (← primitiveText p)

/-- The value as an object. -/
def toObject (v : Value) : M Value := do
  match v with
  | .obj _ => return v
  | v =>
    match prototypeOf v with
    | some p => allocate { proto := .obj p.id, kind := .box v }
    | none => throwType "cannot convert to object"

/-- The length of something like an array. -/
def lengthOf (v : Value) : M Nat := do toLength (← getNamed v "length")

/-- The name of the kind of a value. -/
def typeOf (v : Value) : M String :=
  match v with
  | .absent | .undefined => pure "undefined"
  | .null => pure "object"
  | .bool _ => pure "boolean"
  | .num _ => pure "number"
  | .str _ => pure "string"
  | .sym _ => pure "symbol"
  | .big _ => pure "bigint"
  | .obj id => do return if (← objectOf id).isCallable then "function" else "object"

/-! ## Comparisons -/

/-- The values are equal without any conversion. -/
def strictEquals : Value → Value → Bool
  | .num a, .num b => a == b
  | a, b => sameValue a b

/-- The values are the same, zeros of either sign included. -/
def sameValueZero : Value → Value → Bool
  | .num a, .num b => a == b || (a.isNaN && b.isNaN)
  | a, b => sameValue a b

/-- A number is this whole number. -/
def equalsBig (x : Float) (n : Int) : Bool :=
  !x.isNaN && !x.isInf && x.floor == x && Number.whole x = n

/-- The values are equal after conversions; each conversion leads closer to numbers. -/
def looseEqualsIn : Nat → Value → Value → M Bool
  | 0, _, _ => pure false
  | n + 1, a, b => do
    match a, b with
    | .absent, _ | _, .absent => return false
    | .undefined, .null | .null, .undefined | .undefined, .undefined | .null, .null => return true
    | .num x, .num y => return x == y
    | .str _, .str _ | .bool _, .bool _ | .sym _, .sym _ | .big _, .big _ | .obj _, .obj _ =>
      return sameValue a b
    | .undefined, _ | .null, _ | _, .undefined | _, .null => return false
    | .num x, .str s | .str s, .num x => return x == numberOfText s
    | .big x, .str s | .str s, .big x => return (bigOfText? s).any (· = x)
    | .bool x, _ => looseEqualsIn n (.num (if x then 1 else 0)) b
    | _, .bool x => looseEqualsIn n a (.num (if x then 1 else 0))
    | .obj _, _ => do looseEqualsIn n (← toPrimitive a .default) b
    | _, .obj _ => do looseEqualsIn n a (← toPrimitive b .default)
    | .num x, .big y | .big y, .num x => return equalsBig x y
    | .sym _, _ | _, .sym _ => return false

/-- The values are equal after conversions. -/
def looseEquals (a b : Value) : M Bool := looseEqualsIn 8 a b

/-- How two numbers or whole numbers compare; nothing for what does not compare. -/
def compareNumeric : Value → Value → Option Ordering
  | .num x, .num y => if x < y then some .lt else if x > y then some .gt else if x == y then some .eq else none
  | .big x, .big y => some (compare x y)
  | .big x, .num y =>
    if y.isNaN then none
    else if y.isInf then some (if y > 0 then .lt else .gt)
    else
      let t := Number.whole y
      if x < t then some .lt else if x > t then some .gt
      else if y > Number.truncate y then some .lt else if y < Number.truncate y then some .gt else some .eq
  | .num x, .big y =>
    if x.isNaN then none
    else if x.isInf then some (if x > 0 then .gt else .lt)
    else
      let t := Number.whole x
      if t < y then some .lt else if t > y then some .gt
      else if x < Number.truncate x then some .lt else if x > Number.truncate x then some .gt else some .eq
  | _, _ => none

/-- How two values compare after conversions; `leftFirst`: which one is converted first. -/
def compareValues (a b : Value) (leftFirst : Bool) : M (Option Ordering) := do
  match a, b with
  | .num x, .num y => return compareNumeric (.num x) (.num y)
  | a, b =>
    let (p, q) ← if leftFirst then do
        let p ← toPrimitive a .number
        let q ← toPrimitive b .number
        pure (p, q)
      else do
        let q ← toPrimitive b .number
        let p ← toPrimitive a .number
        pure (p, q)
    match p, q with
    | .str x, .str y => return some (if Text.unitsLt x y then .lt else if x = y then .eq else .gt)
    | .big x, .str y => return (bigOfText? y).map (compare x)
    | .str x, .big y => return (bigOfText? x).map (compare · y)
    | p, q => return compareNumeric (← toNumeric p) (← toNumeric q)

/-- An object stands in the chain of prototypes of a value. -/
def isInstanceIn (proto : Value) : Nat → Value → M Bool
  | n + 1, .obj id => do
    let p ← getPrototype id
    if p matches .null then return false
    if sameValue p proto then return true
    isInstanceIn proto n p
  | _, _ => pure false

/-- The value was made by a function, as its prototype shows. -/
def ordinaryInstance (v : Value) : Nat → Value → M Bool
  | n + 1, .obj id => do
    let o ← objectOf id
    if !o.isCallable then return false
    match o.kind with
    | .bound target .. => ordinaryInstance v n target
    | _ =>
      if v.isPrimitive then return false
      let proto ← getId id (.text "prototype")
      if proto.isPrimitive then throwType "operand 'prototype' property is not an object"
      isInstanceIn proto reach v
  | _, _ => pure false

/-- The value is an instance of what the right side says. -/
def instanceOf (v f : Value) : M Bool := do
  if f.isPrimitive then throwType "invalid 'instanceof' right operand"
  match ← methodOf f WellKnown.hasInstance.key with
  | some m => return (← call m f #[v]).truthy
  | none =>
    if !(← isCallable f) then throwType "invalid 'instanceof' right operand"
    ordinaryInstance v reach f

end ScriptHost.Engine
