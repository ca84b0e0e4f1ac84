import ScriptHost.Engine.Builtin.Array
/-!
Functions on texts. Positions count 16-bit units.
-/

namespace ScriptHost.Engine.Builtin

/-- The text that a method was called on. -/
def thisText (v : Value) : M String := do
  if v.isNothing then throwType "cannot convert to object"
  toText v

/-- The text that a box or a text holds. -/
def plainText (v : Value) : M String := do
  match v with
  | .str s => return s
  | .obj id =>
    match (← objectOf id).kind with
    | .box (.str s) => return s
    | _ => throwType "not a string"
  | _ => throwType "not a string"

/-- One list begins with another one. -/
def startsWithUnits : List Nat → List Nat → Bool
  | _, [] => true
  | a :: as, b :: bs => a = b && startsWithUnits as bs
  | [], _ :: _ => false

/-- The first place of a list in another one, from a place on. -/
def findUnits (needle : List Nat) : List Nat → Nat → Option Nat
  | [], i => if needle.isEmpty then some i else none
  | u :: us, i => if startsWithUnits (u :: us) needle then some i else findUnits needle us (i + 1)

/-- The first place of a text in another one, from a place on. -/
def indexOfText (s needle : String) (start : Nat) : Option Nat :=
  let us := Text.units s
  if start > us.length then none else findUnits (Text.units needle) (us.drop start) start

/-- The last place of a text in another one, up to a place. -/
def lastIndexOfText (s needle : String) (last : Nat) : Option Nat :=
  let us := Text.units s
  let ns := Text.units needle
  let last := min last (us.length - ns.length)
  if ns.length > us.length then none
  else ((List.range (last + 1)).reverse).find? fun k => startsWithUnits (us.drop k) ns

/-- The units of a text between places. -/
def part (s : String) (start stop : Nat) : String := Text.slice s start stop

/-- A replacement with its references to what was found. -/
def expandReplacement (s found : String) (place : Nat) : List Char → String
  | '$' :: '$' :: rest => "$" ++ expandReplacement s found place rest
  | '$' :: '&' :: rest => found ++ expandReplacement s found place rest
  | '$' :: '\x60' :: rest => part s 0 place ++ expandReplacement s found place rest
  | '$' :: '\'' :: rest =>
    part s (place + Text.length found) (Text.length s) ++ expandReplacement s found place rest
  | c :: rest => String.singleton c ++ expandReplacement s found place rest
  | [] => ""

/-- The text that takes the place of what was found. -/
def replacementFor (s found : String) (place : Nat) (by_ : Value) : M String := do
  if ← isCallable by_ then toText (← call by_ .undefined #[.str found, .ofNat place, .str s])
  else return expandReplacement s found place (← toText by_).toList

/-- Replace the first or all occurrences of a text. -/
def replaceFrom (s needle : String) (by_ : Value) (all : Bool) : Nat → Nat → Nat → String → M String
  | 0, done, _, acc => concatTexts acc (part s done (Text.length s))
  | n + 1, done, start, acc => do
    match indexOfText s needle start with
    | none => concatTexts acc (part s done (Text.length s))
    | some place => do
      let text ← replacementFor s needle place by_
      let acc ← concatTexts (← concatTexts acc (part s done place)) text
      let size := Text.length needle
      let next := place + size
      if all then replaceFrom s needle by_ all n next (if size = 0 then place + 1 else next) acc
      else concatTexts acc (part s next (Text.length s))

/-- The pieces of a text between occurrences of another one. -/
def splitUnits (needle : List Nat) : List Nat → List Nat → List (List Nat)
  | [], piece => [piece.reverse]
  | u :: us, piece =>
    if startsWithUnits (u :: us) needle then
      piece.reverse :: splitUnits needle (us.drop (needle.length - 1)) []
    else splitUnits needle us (u :: piece)
termination_by us => us.length
decreasing_by all_goals simp only [List.length_drop, List.length_cons]; omega

/-- A text so often. -/
def repeatText (s : String) : Nat → String → String
  | 0, acc => acc
  | n + 1, acc => repeatText s n (acc ++ s)

/-- The text filled up to a length. -/
def padText (i : Invocation) (atEnd : Bool) : M Value := do
  let s ← thisText i.this
  let n ← toLength (i.arg 0)
  let filler ← if i.arg 1 matches .undefined then pure " " else toText (i.arg 1)
  let length := Text.length s
  if n ≤ length || filler.isEmpty then return .str s
  claimText n
  let size := Text.length filler
  let pad := part (repeatText filler ((n - length) / size + 1) "") 0 (n - length)
  return .str (if atEnd then Text.append s pad else Text.append pad s)

/-- A place in a text from an argument, cut to the text. -/
def clampPlace (v : Value) (length absent : Nat) : M Nat := do
  if v matches .undefined then return absent
  let x ← toWhole v
  return if x ≤ 0 then 0 else if x > Float.ofNat length then length else x.toUInt64.toNat

/-- A search for a pattern object is refused. -/
def refusePattern (v : Value) : M Unit := do
  if let .obj id := v then
    if (← objectOf id).kind matches .regexp .. then throwType "regexp not supported"

/-- A unit at a place that may be outside. -/
def unitAtArg (s : String) (v : Value) : M (Option Nat) := do
  let x ← toWhole v
  if x < 0 || x ≥ Float.ofNat (Text.length s) then return none
  return Text.unitAt? s x.toUInt64.toNat

/-- The character that starts at a place. -/
def pointAt (us : List Nat) : Option (Nat × Nat) :=
  match us with
  | [] => none
  | hi :: lo :: _ =>
    if Text.isHigh hi && Text.isLow lo then
      some (0x10000 + (hi - 0xd800) * 0x400 + (lo - 0xdc00), 2)
    else some (hi, 1)
  | [u] => some (u, 1)

/-- The units of a character by its number. -/
def unitsOfPoint (n : Nat) : List Nat :=
  if n < 0x10000 then [n]
  else [0xd800 + (n - 0x10000) / 0x400, 0xdc00 + (n - 0x10000) % 0x400]

/-- The next step of an iterator over the characters of a text. -/
def stepText (this : Value) : M Value := do
  match this with
  | .obj id =>
    match (← objectOf id).kind with
    | .iterator (.str s) n walk =>
      match pointAt ((Text.units s).drop n) with
      | some (_, size) => do
        changeObject id ({ · with kind := .iterator (.str s) (n + size) walk })
        stepResult (.str (part s n (n + size))) false
      | none => stepResult .undefined true
    | _ => throwType "String Iterator object expected"
  | _ => throwType "String Iterator object expected"

/-- The text with every surrogate without a partner replaced. -/
def mendText (s : String) : String :=
  match Text.wellFormed? s with
  | .ok _ => s
  | .error _ =>
    let rec go : List Nat → List Nat
      | hi :: lo :: rest =>
        if Text.isHigh hi && Text.isLow lo then hi :: lo :: go rest
        else (if Text.isHigh hi || Text.isLow hi then 0xfffd else hi) :: go (lo :: rest)
      | [u] => [if Text.isHigh u || Text.isLow u then 0xfffd else u]
      | [] => []
    Text.ofUnits (go (Text.units s))

/-- Functions on texts. -/
def string (f : StringFn) (i : Invocation) : M Value := do
  let v := i.arg 0
  match f with
  | .new => do
    let s ← if i.args.isEmpty then pure "" else
      match v with
      | .sym id =>
        if i.isNew then toText v
        else do pure ("Symbol(" ++ ((← look fun w => w.symbols.getD id none).getD "") ++ ")")
      | v => toText v
    if i.isNew then
      allocate { proto := ← prototypeFor i.newTarget .string, kind := .box (.str s) }
    else return .str s
  | .fromCharCode => do
    let us ← i.args.toList.mapM fun v => do return (Number.word (← toNumber v)).toNat % 0x10000
    return .str (Text.ofUnits us)
  | .fromCodePoint => do
    let us ← i.args.toList.mapM fun v => do
      let x ← toNumber v
      if x.isNaN || x < 0 || x > 1114111 || x.floor != x then
        throwNew .range "invalid code point"
      return unitsOfPoint x.toUInt64.toNat
    return .str (Text.ofUnits us.flatten)
  | .raw => do
    let raw ← getNamed v "raw"
    let n ← lengthOf raw
    let pieces ← (List.range n).mapM fun k => do
      let s ← toText (← getOf raw (.index k))
      if k + 1 < n && k + 1 < i.args.size then
        return Text.append s (← toText (i.arg (k + 1)))
      else return s
    return .str (pieces.foldl Text.append "")
  | .toString | .valueOf => return .str (← plainText i.this)
  | .next => stepText i.this
  | .padEnd => padText i true
  | .padStart => padText i false
  | f => do
    let s ← thisText i.this
    let length := Text.length s
    match f with
    | .at_ => do
      let x ← toWhole v
      let x := if x < 0 then Float.ofNat length + x else x
      if x < 0 || x ≥ Float.ofNat length then return .undefined
      return .str (part s x.toUInt64.toNat (x.toUInt64.toNat + 1))
    | .charAt => do
      match ← unitAtArg s v with
      | some u => return .str (Text.ofUnits [u])
      | none => return .str ""
    | .charCodeAt => do
      match ← unitAtArg s v with
      | some u => return .ofNat u
      | none => return .num Number.nan
    | .codePointAt => do
      let x ← toWhole v
      if x < 0 || x ≥ Float.ofNat length then return .undefined
      match pointAt ((Text.units s).drop x.toUInt64.toNat) with
      | some (n, _) => return .ofNat n
      | none => return .undefined
    | .concat => do
      return .str (← i.args.toList.foldlM (fun acc v => do concatTexts acc (← toText v)) s)
    | .endsWith => do
      refusePattern v
      let needle ← toText v
      let stop ← clampPlace (i.arg 1) length length
      let size := Text.length needle
      return .bool (size ≤ stop && part s (stop - size) stop == needle)
    | .startsWith => do
      refusePattern v
      let needle ← toText v
      let start ← clampPlace (i.arg 1) length 0
      return .bool (startsWithUnits ((Text.units s).drop start) (Text.units needle))
    | .includes => do
      refusePattern v
      let needle ← toText v
      let start ← clampPlace (i.arg 1) length 0
      return .bool (indexOfText s needle start).isSome
    | .indexOf => do
      let needle ← toText v
      let start ← clampPlace (i.arg 1) length 0
      match indexOfText s needle start with
      | some k => return .ofNat k
      | none => return .num (-1)
    | .lastIndexOf => do
      let needle ← toText v
      let x ← toNumber (i.arg 1)
      let last := if x.isNaN || x > Float.ofNat length then length
        else if x ≤ 0 then 0 else x.toUInt64.toNat
      match lastIndexOfText s needle last with
      | some k => return .ofNat k
      | none => return .num (-1)
    | .isWellFormed => return .bool (match Text.wellFormed? s with
        | .ok _ => true
        | .error _ => false)
    | .toWellFormed => return .str (mendText s)
    | .localeCompare => do
      let t ← toText v
      return .num (if Text.unitsLt s t then -1 else if s == t then 0 else 1)
    | .normalize => return .str s
    | .repeat_ => do
      let x ← toWhole v
      if x < 0 || x > 2147483647 then throwNew .range "invalid repeat count"
      let n := x.toUInt64.toNat
      if n = 0 || s.isEmpty then return .str ""
      claimText (n * s.utf8ByteSize)
      if Text.isPlain s then return .str (repeatText s n "")
      else return .str ((List.range n).foldl (fun acc _ => Text.append acc s) "")
    | .replace | .replaceAll => do
      refusePattern v
      let needle ← toText v
      let by_ ← if ← isCallable (i.arg 1) then pure (i.arg 1) else Value.str <$> toText (i.arg 1)
      return .str (← replaceFrom s needle by_ (f matches .replaceAll) (length + 2) 0 0 "")
    | .slice => do
      let start ← toPosition v length 0
      let stop ← toPosition (i.arg 1) length length
      return .str (part s start stop)
    | .substring => do
      let a ← clampPlace v length 0
      let b ← clampPlace (i.arg 1) length length
      return .str (part s (min a b) (max a b))
    | .substr => do
      let start ← toPosition v length 0
      let count ← clampPlace (i.arg 1) (length - start) (length - start)
      return .str (part s start (start + count))
    | .split => do
      refusePattern v
      let limit ← if i.arg 1 matches .undefined then pure 4294967295
        else do pure (Number.word (← toNumber (i.arg 1))).toNat
      if v matches .undefined then
        return ← newArray (if limit = 0 then #[] else #[.str s])
      let separator ← toText v
      let us := Text.units s
      let pieces := if separator.isEmpty then us.map fun u => [u]
        else splitUnits (Text.units separator) us []
      newArray ((pieces.take limit).map fun us => Value.str (Text.ofUnits us)).toArray
    | .toLowerCase => return .str (s.map Char.toLower)
    | .toUpperCase => return .str (s.map Char.toUpper)
    | .trim => return .str (String.ofList (trimBlanks s.toList))
    | .trimStart => return .str (String.ofList (s.toList.dropWhile isScriptBlank))
    | .trimEnd => return .str (String.ofList (s.toList.reverse.dropWhile isScriptBlank).reverse)
    | .iterator => newIterator .stringIterator (.str s) .values
    | _ => return .undefined

end ScriptHost.Engine.Builtin
