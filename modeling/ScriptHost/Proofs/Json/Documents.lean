import ScriptHost.Proofs.Json.Numerals
/-!
JSON texts that the engine writes, as trees. A tree that fits, because it is not too deep, has no surrogates without their
partners and only numbers in the range of the reader, is read as the value that it stands for (`parse_write`).
-/
namespace ScriptHost.Json

/-- What a JSON text is of. Strings are those of scripts. -/
inductive Doc where
  | null
  | bool (b : Bool)
  | num (x : Float) (finite : (x.isNaN || x.isInf) = false)
  | str (s : String)
  | arr (items : List Doc)
  | obj (members : List (String × Doc))

namespace Doc

mutual

/-- The text without blanks, with strings written in some way. -/
def write (quote : String → String) : Doc → String
  | .null => "null"
  | .bool b => if b then "true" else "false"
  | .num x _ => Number.text x
  | .str s => quote s
  | .arr items => "[" ++ writeItems quote true items ++ "]"
  | .obj members => "\x7b" ++ writeMembers quote true members ++ "\x7d"

/-- Items, all but the first behind commas. -/
def writeItems (quote : String → String) (first : Bool) : List Doc → String
  | [] => ""
  | d :: rest => (if first then "" else ",") ++ d.write quote ++ writeItems quote false rest

/-- Members, all but the first behind commas. -/
def writeMembers (quote : String → String) (first : Bool) : List (String × Doc) → String
  | [] => ""
  | (name,d) :: rest => (if first then "" else ",") ++ quote name ++ ":" ++ d.write quote ++ writeMembers quote false rest

end

mutual

/-- At most so many lists and objects stand one inside another, no surrogate is without its partner, and no number is
out of range. -/
def Fits (n : Nat) : Doc → Prop
  | .null | .bool _ => True
  | .num x _ => ∀ place, parse (Number.text x) ≠ .error ⟨.numberRange,place⟩
  | .str s => ∃ t, Text.wellFormed? s = .ok t
  | .arr items => ∃ m, n = m+1 ∧ FitItems m items
  | .obj members => ∃ m, n = m+1 ∧ FitMembers m members

def FitItems (n : Nat) : List Doc → Prop
  | [] => True
  | d :: rest => d.Fits n ∧ FitItems n rest

def FitMembers (n : Nat) : List (String × Doc) → Prop
  | [] => True
  | (name,d) :: rest => (∃ t, Text.wellFormed? name = .ok t) ∧ d.Fits n ∧ FitMembers n rest

end

/-- The characters of a string whose surrogates have their partners. -/
def characters (s : String) : String := (Text.wellFormed? s).toOption.getD ""

mutual

/-- The value: strings as characters, numerals as they are read alone. -/
def json : Doc → Json
  | .null => .null
  | .bool b => .bool b
  | .num x _ => (parse (Number.text x)).toOption.getD .null
  | .str s => .str (characters s)
  | .arr items => .arr (jsonItems items)
  | .obj members => .ofMembers (jsonMembers members)

def jsonItems : List Doc → List Json
  | [] => []
  | d :: rest => d.json :: jsonItems rest

def jsonMembers : List (String × Doc) → List (String × Json)
  | [] => []
  | (name,d) :: rest => (characters name,d.json) :: jsonMembers rest

end

/-- A string of a script as characters in quotes. -/
def plainly (s : String) : String := Engine.Builtin.quotedPlain (characters s)

theorem characters_eq {s t : String} (whole : Text.wellFormed? s = .ok t) : characters s = t := by
  unfold characters
  rw [whole]
  rfl

/-! ### From surrogates to characters -/

theorem pairs_string {s : String} (whole : ∃ t, Text.wellFormed? s = .ok t) :
    Text.Pairs (Engine.Builtin.quoted s).toList (plainly s).toList := by
  obtain ⟨t,whole⟩ := whole
  unfold plainly
  rw [characters_eq whole]
  exact Engine.Builtin.pairs_quoted whole

/-- What stands between the parts of a text. -/
theorem pairs_mark (mark : String) (plain : mark.toList.all (!Text.isStandIn ·) = true) :
    Text.Pairs mark.toList mark.toList := .of_plain (by simpa using plain)

theorem pairs_comma (first : Bool) :
    Text.Pairs (if first then "" else ",").toList (if first then "" else ",").toList := by
  cases first
  · exact pairs_mark "," (by decide)
  · exact pairs_mark "" (by decide)

mutual

theorem pairs_write (d : Doc) (n : Nat) (fits : d.Fits n) :
    Text.Pairs (d.write Engine.Builtin.quoted).toList (d.write plainly).toList := by
  cases d with
  | null =>
    simp only [write]
    exact pairs_mark "null" (by decide)
  | bool b =>
    simp only [write]
    split_ifs
    · exact pairs_mark "true" (by decide)
    · exact pairs_mark "false" (by decide)
  | num x finite =>
    simp only [write]
    exact .of_plain (Reader.plain_of_small (Reader.signed_text finite).small)
  | str s =>
    simp only [write]
    exact pairs_string fits
  | arr items =>
    obtain ⟨m,rfl,fits⟩ := fits
    simp only [write,String.toList_append]
    exact ((pairs_mark "[" (by decide)).append (pairs_items items m fits true)).append (pairs_mark "]" (by decide))
  | obj members =>
    obtain ⟨m,rfl,fits⟩ := fits
    simp only [write,String.toList_append]
    exact ((pairs_mark "\x7b" (by decide)).append (pairs_members members m fits true)).append (pairs_mark "\x7d" (by decide))

theorem pairs_items (items : List Doc) (n : Nat) (fits : FitItems n items) (first : Bool) :
    Text.Pairs (writeItems Engine.Builtin.quoted first items).toList (writeItems plainly first items).toList := by
  cases items with
  | nil =>
    simp only [writeItems]
    exact pairs_mark "" (by decide)
  | cons d rest =>
    obtain ⟨here,there⟩ := fits
    simp only [writeItems,String.toList_append]
    exact ((pairs_comma first).append (pairs_write d n here)).append (pairs_items rest n there false)

theorem pairs_members (members : List (String × Doc)) (n : Nat) (fits : FitMembers n members) (first : Bool) :
    Text.Pairs (writeMembers Engine.Builtin.quoted first members).toList (writeMembers plainly first members).toList := by
  match members with
  | [] =>
    simp only [writeMembers]
    exact pairs_mark "" (by decide)
  | (name,d) :: rest =>
    obtain ⟨named,here,there⟩ := fits
    simp only [writeMembers,String.toList_append]
    exact ((((pairs_comma first).append (pairs_string named)).append (pairs_mark ":" (by decide))).append
      (pairs_write d n here)).append (pairs_members rest n there false)

end

/-! ### Reading -/

open Reader

theorem bytes_append (s t : String) : bytesOf (s ++ t).toList = bytesOf s.toList ++ bytesOf t.toList := by
  rw [String.toList_append,bytesOf_append]

theorem bytes_plainly {s t : String} (whole : Text.wellFormed? s = .ok t) :
    bytesOf (plainly s).toList = 34 :: (bytesOf (Engine.Builtin.escapes t.toList) ++ [34]) := by
  unfold plainly
  rw [characters_eq whole,Engine.Builtin.toList_quotedPlain,List.cons_append]
  show String.utf8EncodeChar '"' ++ bytesOf (_ ++ ['"']) = _
  rw [bytesOf_append]
  rfl

theorem takes_key (t : String) (rest : List UInt8) :
    Takes key (34 :: (bytesOf (Engine.Builtin.escapes t.toList) ++ [34])) rest t :=
  (takes_skip 34 _).bind (takes_string t rest)

/-- Before the bytes of a value none of the others is passed over, and no list ends. -/
def Begins (bytes : List UInt8) : Prop := ∃ b left, bytes = b :: left ∧ isBlank b = false ∧ b ≠ 93

theorem Begins.append {bytes : List UInt8} (begins : Begins bytes) (rest : List UInt8) : Begins (bytes ++ rest) := by
  obtain ⟨b,left,rfl,visible,other⟩ := begins
  exact ⟨b,left ++ rest,rfl,visible,other⟩

theorem takes_comma {bytes : List UInt8} (begins : Begins bytes) (first : Bool) :
    Takes (hasItem first) (bytesOf (if first then "" else ",").toList) bytes true := by
  obtain ⟨b,left,rfl,visible,other⟩ := begins
  cases first
  · exact takes_hasItem_next visible other _
  · exact takes_hasItem_first visible other _

theorem takes_nameComma (rest : List UInt8) (first : Bool) :
    Takes (hasKey first) (bytesOf (if first then "" else ",").toList) (34 :: rest) true := by
  cases first
  · exact takes_hasKey_next rest
  · exact takes_hasKey_first rest

theorem bytes_comma : bytesOf (if false = true then "" else ",").toList = [44] := by decide

theorem delimited_items (items : List Doc) (rest : List UInt8) :
    Delimited (bytesOf (writeItems plainly false items).toList ++ 93 :: rest) := by
  intro d more same
  cases items with
  | nil =>
    simp only [writeItems] at same
    exact .inr (.inl (List.cons.inj same).1.symm)
  | cons first items =>
    simp only [writeItems,bytes_append,bytes_comma,List.append_assoc] at same
    exact .inl (List.cons.inj same).1.symm

theorem delimited_members (members : List (String × Doc)) (rest : List UInt8) :
    Delimited (bytesOf (writeMembers plainly false members).toList ++ 125 :: rest) := by
  intro d more same
  cases members with
  | nil =>
    simp only [writeMembers] at same
    exact .inr (.inr (List.cons.inj same).1.symm)
  | cons first members =>
    simp only [writeMembers,bytes_append,bytes_comma,List.append_assoc] at same
    exact .inl (List.cons.inj same).1.symm

mutual

theorem takes_write (d : Doc) (n : Nat) (fits : d.Fits n) : Begins (bytesOf (d.write plainly).toList) ∧
    ∀ rest, Delimited rest → Takes (value (n+1)) (bytesOf (d.write plainly).toList) rest d.json := by
  cases d with
  | null =>
    have bytes : bytesOf "null".toList = [110,117,108,108] := by decide
    simp only [write,json,bytes]
    exact ⟨⟨110,_,rfl,by decide,by decide⟩,fun rest _ => takes_null n rest⟩
  | bool b =>
    have yes : bytesOf "true".toList = [116,114,117,101] := by decide
    have no : bytesOf "false".toList = [102,97,108,115,101] := by decide
    cases b with
    | true =>
      simp only [write,json,if_true,yes]
      exact ⟨⟨116,_,rfl,by decide,by decide⟩,fun rest _ => takes_true n rest⟩
    | false =>
      simp only [write,json,Bool.false_eq_true,if_false,no]
      exact ⟨⟨102,_,rfl,by decide,by decide⟩,fun rest _ => takes_false n rest⟩
  | num x finite =>
    have signed := signed_text finite
    obtain ⟨number,reads,takes⟩ := (parse_signed signed).resolve_right fun ⟨place,range⟩ => fits place range
    simp only [write,json,reads]
    exact ⟨signed.head,fun rest closes => takes rest closes n⟩
  | str s =>
    obtain ⟨t,whole⟩ := fits
    simp only [write,json,bytes_plainly whole,characters_eq whole]
    exact ⟨⟨34,_,rfl,by decide,by decide⟩,fun rest _ => takes_str n (takes_string t rest)⟩
  | arr items =>
    obtain ⟨m,rfl,fits⟩ := fits
    have bytes : bytesOf ("[" ++ writeItems plainly true items ++ "]").toList =
        91 :: (bytesOf (writeItems plainly true items).toList ++ [93]) := by
      rw [bytes_append,bytes_append]
      rfl
    simp only [write,json,bytes]
    exact ⟨⟨91,_,rfl,by decide,by decide⟩,fun rest _ => takes_arr m (takes_writeItems items m fits true rest)⟩
  | obj members =>
    obtain ⟨m,rfl,fits⟩ := fits
    have bytes : bytesOf ("\x7b" ++ writeMembers plainly true members ++ "\x7d").toList =
        123 :: (bytesOf (writeMembers plainly true members).toList ++ [125]) := by
      rw [bytes_append,bytes_append]
      rfl
    simp only [write,json,bytes]
    exact ⟨⟨123,_,rfl,by decide,by decide⟩,fun rest _ => takes_obj m (takes_writeMembers members m fits true [] rest)⟩

theorem takes_writeItems (ds : List Doc) (n : Nat) (fits : FitItems n ds) (first : Bool) (rest : List UInt8) (k : Nat)
    (enough : (bytesOf (writeItems plainly first ds).toList ++ 93 :: rest).length < k) :
    Takes (items (value (n+1)) k first) (bytesOf (writeItems plainly first ds).toList) (93 :: rest) (jsonItems ds) := by
  obtain ⟨k,rfl⟩ : ∃ l, k = l+1 := ⟨k-1,by omega⟩
  cases ds with
  | nil =>
    simp only [writeItems,jsonItems]
    refine (takes_hasItem_end first rest).look ?_
    exact takes_pure [] _
  | cons d ds =>
    obtain ⟨here,there⟩ := fits
    obtain ⟨begins,takes⟩ := takes_write d n here
    simp only [writeItems,jsonItems,bytes_append,List.append_assoc,List.length_append] at enough ⊢
    refine (takes_comma ((begins.append _).append _) first).bind ?_
    refine (takes _ (delimited_items ds rest)).bind ?_
    obtain ⟨b,left,bytes,-,-⟩ := begins
    rw [bytes,List.length_cons] at enough
    refine (takes_writeItems ds n there false rest k (by rw [List.length_append]; omega)).last ?_
    exact takes_pure _ _

theorem takes_writeMembers (ms : List (String × Doc)) (n : Nat) (fits : FitMembers n ms) (first : Bool)
    (acc : List (String × Json)) (rest : List UInt8) (k : Nat)
    (enough : (bytesOf (writeMembers plainly first ms).toList ++ 125 :: rest).length < k) :
    Takes (members (value (n+1)) k first acc) (bytesOf (writeMembers plainly first ms).toList) (125 :: rest)
      ((jsonMembers ms).foldl (fun acc m => insertMember m.1 m.2 acc) acc) := by
  obtain ⟨k,rfl⟩ : ∃ l, k = l+1 := ⟨k-1,by omega⟩
  match ms with
  | [] =>
    simp only [writeMembers,jsonMembers]
    refine (takes_hasKey_end first rest).look ?_
    exact takes_pure acc _
  | (name,d) :: ms =>
    obtain ⟨⟨t,whole⟩,here,there⟩ := fits
    obtain ⟨begins,takes⟩ := takes_write d n here
    have colon : bytesOf ":".toList = [58] := by decide
    simp only [writeMembers,jsonMembers,bytes_append,bytes_plainly whole,colon,characters_eq whole,List.append_assoc,
      List.length_append,List.length_cons,List.foldl_cons] at enough ⊢
    refine (takes_nameComma _ first).bind ?_
    refine (takes_key t _).bind ?_
    refine (takes_colon _).bind ?_
    refine (takes _ (delimited_members ms rest)).bind ?_
    exact takes_writeMembers ms n there false _ rest k (by rw [List.length_append,List.length_cons]; omega)

end

theorem parse_write {d : Doc} (fits : d.Fits 127) : parse (d.write plainly) = .ok d.json := by
  obtain ⟨-,takes⟩ := takes_write d 127 fits
  refine run_of_takes ?_
  rw [toUTF8_eq]
  refine (takes [] nofun).last ?_
  refine takes_textEnd.look ?_
  exact takes_pure d.json []

end Doc
end ScriptHost.Json
