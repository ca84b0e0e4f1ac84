/-!
Texts of 16-bit units. A script's strings are sequences of 16-bit units, in which a surrogate need
not have a partner. They are kept in a `String` all the same: a pair of surrogates is the character
it encodes, and a surrogate left alone is the stand-in character `0x100000` above it. A pair that
would encode a character in the stand-in range is kept as its two stand-ins, so every sequence of
units has exactly one text.
-/

namespace ScriptHost.Text

/-- The distance of a stand-in from its surrogate. -/
def standInOffset : Nat := 0x100000

/-- The character stands for a surrogate without a partner. -/
def isStandIn (c : Char) : Bool := 0x10d800 ≤ c.toNat && c.toNat ≤ 0x10dfff

/-- A unit that opens a pair. -/
def isHigh (u : Nat) : Bool := 0xd800 ≤ u && u < 0xdc00

/-- A unit that closes a pair. -/
def isLow (u : Nat) : Bool := 0xdc00 ≤ u && u < 0xe000

/-- The character for a unit on its own. -/
def charOfUnit (u : Nat) : Char :=
  if isHigh u || isLow u then Char.ofNat (u + standInOffset) else Char.ofNat u

/-- The character that a pair encodes. -/
def charOfPair (hi lo : Nat) : Char := Char.ofNat (0x10000 + (hi - 0xd800) * 0x400 + (lo - 0xdc00))

/-- The units of a character. -/
def unitsOfChar (c : Char) : List Nat :=
  if isStandIn c then [c.toNat - standInOffset]
  else if c.toNat < 0x10000 then [c.toNat]
  else
    let n := c.toNat - 0x10000
    [0xd800 + n / 0x400, 0xdc00 + n % 0x400]

/-- The units of a text. -/
def units (s : String) : List Nat := s.toList.flatMap unitsOfChar

/-- The characters of a sequence of units. -/
def charsOfUnits : List Nat → List Char
  | hi :: lo :: rest =>
    if isHigh hi && isLow lo && !isStandIn (charOfPair hi lo)
    then charOfPair hi lo :: charsOfUnits rest
    else charOfUnit hi :: charsOfUnits (lo :: rest)
  | [u] => [charOfUnit u]
  | [] => []

/-- The text of a sequence of units. -/
def ofUnits (us : List Nat) : String := String.ofList (charsOfUnits us)

/-- The number of units of a text. -/
def length (s : String) : Nat :=
  s.foldl (fun n c => n + (if c.toNat < 0x10000 || isStandIn c then 1 else 2)) 0

/-- No character needs two units and none is a stand-in. -/
def isPlain (s : String) : Bool := s.all fun (c : Char) => c.toNat < 0x10000

/-- One text after the other; a surrogate at the seam finds its partner. -/
def append (a b : String) : String :=
  if a.isEmpty then b else if b.isEmpty then a
  else if isStandIn a.back && isStandIn b.front then ofUnits (units a ++ units b)
  else a ++ b

/-- The units from `start` up to `stop`. -/
def slice (s : String) (start stop : Nat) : String :=
  if isPlain s then String.ofList ((s.toList.take stop).drop start)
  else ofUnits (((units s).take stop).drop start)

/-- The unit at a position. -/
def unitAt? (s : String) (i : Nat) : Option Nat := (units s)[i]?

/-- The characters of a text in which each pair of stand-ins is the character it encodes. -/
def joinStandIns : List Char → List Char
  | a :: b :: rest =>
    if isStandIn a && isStandIn b && isHigh (a.toNat - standInOffset) && isLow (b.toNat - standInOffset)
    then charOfPair (a.toNat - standInOffset) (b.toNat - standInOffset) :: joinStandIns rest
    else a :: joinStandIns (b :: rest)
  | cs => cs

/-- The bytes before the first surrogate without a partner, if there is one; `opened` holds the
place of a surrogate whose partner should come next. -/
def loneAfter (opened : Option Nat) (bytes : Nat) : List Char → Option Nat
  | [] => opened
  | a :: rest =>
    if isStandIn a then
      let u := a.toNat - standInOffset
      match opened with
      | some start => if isLow u then loneAfter none (bytes + 4) rest else some start
      | none => if isHigh u then loneAfter (some bytes) bytes rest else some bytes
    else match opened with
      | some start => some start
      | none => loneAfter none (bytes + a.utf8Size) rest

/-- Where the first surrogate without a partner stands, in bytes of the text before it. -/
def loneIndex? (s : String) : Option Nat := if s.any isStandIn then loneAfter none 0 s.toList else none

/-- The text as characters, when every surrogate has its partner. -/
def wellFormed? (s : String) : Except Nat String :=
  if s.any isStandIn then
    match loneAfter none 0 s.toList with
    | some i => .error i
    | none => .ok (String.ofList (joinStandIns s.toList))
  else .ok s

/-- The text of a string of characters: characters in the stand-in range become their units. -/
def ofString (s : String) : String :=
  if s.any isStandIn then
    String.ofList (s.toList.flatMap fun c =>
      if isStandIn c then
        let n := c.toNat - 0x10000
        [charOfUnit (0xd800 + n / 0x400), charOfUnit (0xdc00 + n % 0x400)]
      else [c])
  else s

/-- The order of texts by their units. -/
def unitsLt (a b : String) : Bool :=
  if isPlain a && isPlain b then a < b else go (units a) (units b)
where
  go : List Nat → List Nat → Bool
    | _, [] => false
    | [], _ :: _ => true
    | x :: xs, y :: ys => if x < y then true else if y < x then false else go xs ys

end ScriptHost.Text
