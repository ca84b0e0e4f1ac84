import Mathlib.Tactic.SplitIfs
import ScriptHost.Engine.Builtin.Json
import ScriptHost.Proofs.Json.Reading
/-!
Strings in JSON texts. The engine writes a string between quotes with escapes for some characters, and with pairs of
stand-ins for others, which are joined when the text becomes one of characters (`pairs_quoted`). A reader that goes over
the bytes of such a text comes to the characters again (`takes_string`).
-/
namespace ScriptHost.Text

theorem any_isStandIn (s : String) : s.any isStandIn = s.toList.any isStandIn := String.contains_bool_eq

/-- The first characters are the second ones, where some of these may be written as pairs of stand-ins. -/
inductive Pairs : List Char → List Char → Prop where
  | nil : Pairs [] []
  | plain {c : Char} {cs ds : List Char} (other : isStandIn c = false) (rest : Pairs cs ds) : Pairs (c :: cs) (c :: ds)
  | pair {a b : Char} {cs ds : List Char} (first : isStandIn a = true) (second : isStandIn b = true)
    (high : isHigh (a.toNat - standInOffset) = true) (low : isLow (b.toNat - standInOffset) = true) (rest : Pairs cs ds) :
    Pairs (a :: b :: cs) (charOfPair (a.toNat - standInOffset) (b.toNat - standInOffset) :: ds)

namespace Pairs
variable {cs ds es fs : List Char}

theorem append (first : Pairs cs ds) (second : Pairs es fs) : Pairs (cs ++ es) (ds ++ fs) := by
  induction first with
  | nil => exact second
  | plain other _ ih => exact .plain other ih
  | pair first second high low _ ih => exact .pair first second high low ih

theorem of_plain (plain : ∀ c ∈ cs, isStandIn c = false) : Pairs cs cs := by
  induction cs with
  | nil => exact .nil
  | cons c cs ih => exact .plain (plain c List.mem_cons_self) (ih fun d member => plain d (List.mem_cons_of_mem c member))

theorem eq_of_plain (pairs : Pairs cs ds) (plain : ∀ c ∈ cs, isStandIn c = false) : ds = cs := by
  induction pairs with
  | nil => rfl
  | plain other _ ih => rw [ih fun d member => plain d (List.mem_cons_of_mem _ member)]
  | pair first =>
    rw [plain _ List.mem_cons_self] at first
    cases first

theorem loneAfter_eq (pairs : Pairs cs ds) (n : Nat) : loneAfter none n cs = none := by
  induction pairs generalizing n with
  | nil => rfl
  | plain other _ ih =>
    unfold loneAfter
    rw [other]
    exact ih _
  | @pair a b cs ds first second high low _ ih =>
    have next : loneAfter (some n) n (b :: cs) = none := by
      unfold loneAfter
      simp only [second,low,if_true]
      exact ih _
    unfold loneAfter
    simp only [first,high,if_true]
    exact next

theorem joinStandIns_eq (pairs : Pairs cs ds) : joinStandIns cs = ds := by
  induction pairs with
  | nil => rfl
  | @plain c cs ds other rest ih =>
    cases cs with
    | nil =>
      cases rest
      rfl
    | cons d cs =>
      unfold joinStandIns
      simp only [other,Bool.false_and,Bool.false_eq_true,if_false]
      rw [ih]
  | pair first second high low _ ih =>
    unfold joinStandIns
    simp only [first,second,high,low,Bool.and_self,if_true]
    rw [ih]

end Pairs

/-- Where no surrogate is without its partner the characters are those that the joined ones are written as. -/
theorem pairs_of_loneAfter (cs : List Char) (n : Nat) (none_ : loneAfter none n cs = none) : Pairs cs (joinStandIns cs) := by
  match cs with
  | [] => exact .nil
  | [a] =>
    cases alone : isStandIn a with
    | false => exact .plain alone .nil
    | true =>
      simp only [loneAfter,alone,if_true] at none_
      split at none_ <;> cases none_
  | a :: b :: rest =>
    unfold loneAfter at none_
    cases first : isStandIn a with
    | false =>
      simp only [first,Bool.false_eq_true,if_false] at none_
      have joined := pairs_of_loneAfter (b :: rest) _ none_
      unfold joinStandIns
      simp only [first,Bool.false_and,Bool.false_eq_true,if_false]
      exact .plain first joined
    | true =>
      simp only [first,if_true] at none_
      split at none_
      · next high =>
        unfold loneAfter at none_
        cases second : isStandIn b with
        | false =>
          simp only [second,Bool.false_eq_true,if_false] at none_
          cases none_
        | true =>
          simp only [second,if_true] at none_
          split at none_
          · next low =>
            have joined := pairs_of_loneAfter rest _ none_
            unfold joinStandIns
            simp only [first,second,high,low,Bool.and_self,if_true]
            exact .pair first second high low joined
          · cases none_
      · cases none_

theorem wellFormed_iff (s t : String) : wellFormed? s = .ok t ↔ Pairs s.toList t.toList := by
  unfold wellFormed?
  rw [any_isStandIn]
  constructor
  · intro whole
    split at whole
    · cases alone : loneAfter none 0 s.toList with
      | some i =>
        simp only [alone] at whole
        cases whole
      | none =>
        simp only [alone,Except.ok.injEq] at whole
        rw [← whole,String.toList_ofList]
        exact pairs_of_loneAfter s.toList 0 alone
    · next plain =>
      cases whole
      exact .of_plain (by simpa using plain)
  · intro pairs
    split
    · rw [pairs.loneAfter_eq 0,pairs.joinStandIns_eq]
      exact congrArg Except.ok (String.ofList_toList)
    · next plain =>
      exact congrArg Except.ok (String.toList_injective (pairs.eq_of_plain (by simpa using plain)).symm)

end ScriptHost.Text

namespace ScriptHost.Engine.Builtin
open ScriptHost.Text

/-- What characters are written as. -/
def escapes (cs : List Char) : List Char := cs.flatMap fun c => (quotedChar c).toList

theorem plain_control : ∀ n < 32, (quotedChar (Char.ofNat n)).toList.all (!isStandIn ·) = true := by decide

theorem quotedChar_of_visible {c : Char} (visible : 32 ≤ c.toNat) (quote : c ≠ '"') (slash : c ≠ '\\') :
    quotedChar c = String.singleton c := by
  have other : ∀ d : Char, d.toNat < 32 → c ≠ d := by
    rintro d small rfl
    omega
  unfold quotedChar
  rw [if_neg quote,if_neg slash,if_neg (other '\n' (by decide)),if_neg (other '\r' (by decide)),
    if_neg (other '\t' (by decide)),if_neg (by omega),if_neg (by omega),if_neg (by omega)]

/-- No escape has a stand-in. -/
theorem plain_quotedChar {c : Char} (other : isStandIn c = false) : ∀ d ∈ (quotedChar c).toList, isStandIn d = false := by
  have all : (quotedChar c).toList.all (!isStandIn ·) = true := by
    by_cases small : c.toNat < 32
    · have control := plain_control c.toNat small
      rwa [Char.ofNat_toNat] at control
    by_cases quote : c = '"'
    · subst quote
      decide
    by_cases slash : c = '\\'
    · subst slash
      decide
    rw [quotedChar_of_visible (by omega) quote slash,String.toList_singleton]
    simpa using other
  simpa using all

theorem toNat_charOfPair {hi lo : Nat} (high : isHigh hi = true) (low : isLow lo = true) :
    (charOfPair hi lo).toNat = 0x10000 + (hi-0xd800)*0x400 + (lo-0xdc00) := by
  simp only [isHigh,isLow,Bool.and_eq_true,decide_eq_true_eq] at high low
  have valid : (0x10000 + (hi-0xd800)*0x400 + (lo-0xdc00)).isValidChar := .inr (by omega)
  unfold charOfPair Char.ofNat
  rw [dif_pos valid]
  rfl

theorem pairs_quotedChars {cs ds : List Char} (pairs : Pairs cs ds) (acc : String) :
    ∃ out, (quotedChars cs acc).toList = acc.toList ++ out ∧ Pairs out (escapes ds) := by
  induction pairs generalizing acc with
  | nil => exact ⟨[],(List.append_nil _).symm,.nil⟩
  | @plain c cs ds other _ ih =>
    obtain ⟨out,same,rest⟩ := ih (acc ++ quotedChar c)
    refine ⟨(quotedChar c).toList ++ out,?_,(Pairs.of_plain (plain_quotedChar other)).append rest⟩
    unfold quotedChars
    rw [other,if_neg Bool.false_ne_true,same,String.toList_append,List.append_assoc]
  | @pair a b cs ds first second high low _ ih =>
    obtain ⟨out,same,rest⟩ := ih ((acc.push a).push b)
    have value := toNat_charOfPair high low
    -- What a pair encodes is beyond all the characters that have escapes.
    have itself : quotedChar (charOfPair (a.toNat - standInOffset) (b.toNat - standInOffset)) =
        String.singleton (charOfPair (a.toNat - standInOffset) (b.toNat - standInOffset)) := by
      have far : ∀ d : Char, d.toNat < 128 → charOfPair (a.toNat - standInOffset) (b.toNat - standInOffset) ≠ d := by
        intro d small same
        rw [same] at value
        omega
      exact quotedChar_of_visible (by omega) (far '"' (by decide)) (far '\\' (by decide))
    refine ⟨a :: b :: out,?_,?_⟩
    · unfold quotedChars
      simp only [first,second,high,low,Bool.and_self,if_true]
      rw [same,String.toList_push,String.toList_push,List.append_assoc,List.append_assoc]
      rfl
    · unfold escapes
      rw [List.flatMap_cons,itself,String.toList_singleton]
      exact .pair first second high low rest

/-- A string of characters in quotes. -/
def quotedPlain (s : String) : String := String.ofList ('"' :: escapes s.toList ++ ['"'])

theorem toList_quotedPlain (s : String) : (quotedPlain s).toList = '"' :: escapes s.toList ++ ['"'] := String.toList_ofList

theorem pairs_quoted {s t : String} (whole : wellFormed? s = .ok t) : Pairs (quoted s).toList (quotedPlain t).toList := by
  obtain ⟨out,same,pairs⟩ := pairs_quotedChars ((wellFormed_iff s t).mp whole) "\""
  unfold quoted
  rw [String.toList_push,same,toList_quotedPlain]
  have quote : isStandIn '"' = false := by decide
  exact .plain quote (pairs.append (.plain quote .nil))

end ScriptHost.Engine.Builtin

namespace ScriptHost.Json.Reader
open ScriptHost.Engine.Builtin

/-- The bytes of characters. -/
def bytesOf (cs : List Char) : List UInt8 := cs.flatMap String.utf8EncodeChar

theorem bytesOf_append (cs ds : List Char) : bytesOf (cs ++ ds) = bytesOf cs ++ bytesOf ds := List.flatMap_append

theorem toUTF8_eq (s : String) : s.toUTF8.data.toList = bytesOf s.toList := by
  have encoded : s.toUTF8 = (bytesOf s.toList).toByteArray := String.utf8Encode_toList.symm
  rw [encoded,List.toList_data_toByteArray]

theorem fromUTF8_bytesOf (s : String) : String.fromUTF8! (bytesOf s.toList).toByteArray = s := by
  have encoded : (bytesOf s.toList).toByteArray = s.toByteArray := String.utf8Encode_toList
  have valid : ByteArray.IsValidUTF8 (bytesOf s.toList).toByteArray := ByteArray.isValidUTF8_utf8Encode
  unfold String.fromUTF8!
  rw [dif_pos valid]
  exact String.toByteArray_inj.mp encoded

/-! ### Escapes -/

theorem takes_hexEscape {a b c d : UInt8} {w x y z : Nat} (digits : [a,b,c,d].map hexValue = [some w,some x,some y,some z])
    (rest : List UInt8) : Takes hexEscape [a,b,c,d] rest (((w*16+x)*16+y)*16+z) := by
  intro text pos stands
  have len := stands.length
  rw [List.length_append] at len
  have inside : pos+4 ≤ text.size := by
    have four : [a,b,c,d].length = 4 := rfl
    omega
  obtain ⟨first,stands⟩ := stands.next
  obtain ⟨second,stands⟩ := stands.next
  obtain ⟨third,stands⟩ := stands.next
  obtain ⟨fourth,-⟩ := stands.next
  have read : (List.range 4).map (fun i => hexValue (text.get! (pos+i))) = [a,b,c,d].map hexValue := by
    rw [← first,← second,← third,← fourth]
    rfl
  unfold hexEscape
  rw [if_pos inside,read,digits]
  rfl

theorem hex_control : ∀ n < 32, (bytesOf (unitDigits n).toList).map hexValue =
    [some 0,some 0,some (n/16),some (n%16)] := by decide

theorem takes_unicodeEscape {n : Nat} (control : n < 32) (rest : List UInt8) :
    Takes unicodeEscape (bytesOf (unitDigits n).toList) rest (Char.ofNat n) := by
  have digits := hex_control n control
  match bytes : bytesOf (unitDigits n).toList with
  | [a,b,c,d] =>
    rw [bytes] at digits
    have value : ((0*16+0)*16+n/16)*16+n%16 = n := by omega
    have read : Takes hexEscape [a,b,c,d] rest n := value ▸ takes_hexEscape digits rest
    refine read.last ?_
    have own : ¬(0xdc00 ≤ n ∧ n ≤ 0xdfff) := by omega
    have small : n < 0xd800 := by omega
    simp only [Bool.and_eq_true,decide_eq_true_eq,own,if_false,small,decide_true,Bool.true_or,if_true]
    exact takes_pure _ rest
  | [] | [_] | [_,_] | [_,_,_] | _ :: _ :: _ :: _ :: _ :: _ =>
    rw [bytes] at digits
    simp at digits

/-- The escape of a character stands for it. -/
theorem takes_escape {c : Char} (escaped : c.toNat < 32 ∨ c = '"' ∨ c = '\\') :
    ∃ tail, bytesOf (quotedChar c).toList = 92 :: tail ∧ ∀ rest, Takes escape tail rest c := by
  unfold quotedChar
  split_ifs with quote slash newline return_ tab backspace feed control
  · subst quote
    exact ⟨[34],by decide,fun rest => (takes_next 34 rest).last (takes_pure '"' rest)⟩
  · subst slash
    exact ⟨[92],by decide,fun rest => (takes_next 92 rest).last (takes_pure '\\' rest)⟩
  · subst newline
    exact ⟨[110],by decide,fun rest => (takes_next 110 rest).last (takes_pure '\n' rest)⟩
  · subst return_
    exact ⟨[114],by decide,fun rest => (takes_next 114 rest).last (takes_pure '\r' rest)⟩
  · subst tab
    exact ⟨[116],by decide,fun rest => (takes_next 116 rest).last (takes_pure '\t' rest)⟩
  · have same : c = '\x08' := by rw [← Char.ofNat_toNat c,backspace]
    subst same
    exact ⟨[98],by decide,fun rest => (takes_next 98 rest).last (takes_pure '\x08' rest)⟩
  · have same : c = '\x0c' := by rw [← Char.ofNat_toNat c,feed]
    subst same
    exact ⟨[102],by decide,fun rest => (takes_next 102 rest).last (takes_pure '\x0c' rest)⟩
  · refine ⟨117 :: bytesOf (unitDigits c.toNat).toList,?_,fun rest => ?_⟩
    · have mark : bytesOf "\\u".toList = [92,117] := by decide
      rw [String.toList_append,bytesOf_append,mark,List.cons_append,List.singleton_append]
    · have read := takes_unicodeEscape control rest
      rw [Char.ofNat_toNat] at read
      generalize bytesOf (unitDigits c.toNat).toList = digits at read ⊢
      exact (takes_next 117 _).bind read
  · rcases escaped with small | same | same
    · exact absurd small control
    · exact absurd same quote
    · exact absurd same slash

/-! ### Strings -/

/-- A byte that stands for itself inside a string. -/
def Itself (b : UInt8) : Prop := ¬b < 32 ∧ b ≠ 34 ∧ b ≠ 92

theorem itself_of_ge {b : UInt8} (large : 128 ≤ b.toNat) : Itself b := by
  refine ⟨fun small => ?_,?_,?_⟩
  · have less : b.toNat < 32 := UInt8.lt_iff_toNat_lt.mp small
    omega
  · rintro rfl
    exact absurd large (by decide)
  · rintro rfl
    exact absurd large (by decide)

/-- Characters without escapes are written as bytes that stand for themselves. -/
theorem itself_of_char {c : Char} (visible : 32 ≤ c.toNat) (quote : c ≠ '"') (slash : c ≠ '\\') :
    ∀ b ∈ String.utf8EncodeChar c, Itself b := by
  have wide : ∀ n, 128 ≤ n → n < 256 → Itself (UInt8.ofNat n) := by
    intro n large small
    refine itself_of_ge ?_
    rw [UInt8.toNat_ofNat_of_lt' small]
    exact large
  have value : c.val.toNat = c.toNat := rfl
  intro b member
  unfold String.utf8EncodeChar at member
  simp only [value] at member
  split_ifs at member with one two three
  · rw [List.mem_singleton] at member
    subst member
    have same : (UInt8.ofNat c.toNat).toNat = c.toNat := UInt8.toNat_ofNat_of_lt' (by show c.toNat < 256; omega)
    refine ⟨fun small => ?_,fun equal => quote ?_,fun equal => slash ?_⟩
    · have less : (UInt8.ofNat c.toNat).toNat < 32 := UInt8.lt_iff_toNat_lt.mp small
      omega
    · have number : c.toNat = 34 := by rw [← same,equal]; rfl
      rw [← Char.ofNat_toNat c,number]
    · have number : c.toNat = 92 := by rw [← same,equal]; rfl
      rw [← Char.ofNat_toNat c,number]
  · simp only [List.mem_cons,List.not_mem_nil,or_false] at member
    rcases member with rfl | rfl <;> exact wide _ (by omega) (by omega)
  · simp only [List.mem_cons,List.not_mem_nil,or_false] at member
    rcases member with rfl | rfl | rfl <;> exact wide _ (by omega) (by omega)
  · simp only [List.mem_cons,List.not_mem_nil,or_false] at member
    rcases member with rfl | rfl | rfl | rfl <;> exact wide _ (by omega) (by omega)

theorem takes_copied {bs more rest : List UInt8} {a : ByteArray} {n : Nat} (xs : List UInt8) (each : ∀ b ∈ bs, Itself b)
    (then_ : Takes (stringBytes n (xs ++ bs).toByteArray) more rest a) :
    Takes (stringBytes (n+bs.length) xs.toByteArray) (bs ++ more) rest a := by
  induction bs generalizing xs with
  | nil =>
    rw [List.append_nil] at then_
    exact then_
  | cons b bs ih =>
    obtain ⟨visible,quote,slash⟩ := each b List.mem_cons_self
    have pushed : xs.toByteArray.push b = (xs ++ [b]).toByteArray := by
      rw [List.toByteArray_append,ByteArray.append_toByteArray_singleton]
    have next := ih (xs ++ [b]) (fun c member => each c (List.mem_cons_of_mem b member))
      (by rwa [List.append_assoc])
    show Takes (stringBytes (n+bs.length+1) _) _ _ _
    refine (takes_peek b _).look ?_
    split
    · next none_ => cases none_
    · next same => exact absurd (Option.some.inj same) quote
    · next same => exact absurd (Option.some.inj same) slash
    · next same =>
      cases same
      rw [if_neg visible,pushed]
      exact (takes_skip b _).bind next

theorem takes_stringBytes (cs : List Char) (xs rest : List UInt8) {n : Nat}
    (enough : (bytesOf (escapes cs) ++ [34]).length ≤ n) :
    Takes (stringBytes n xs.toByteArray) (bytesOf (escapes cs) ++ [34]) rest (xs ++ bytesOf cs).toByteArray := by
  induction cs generalizing xs n with
  | nil =>
    obtain ⟨n,rfl⟩ : ∃ k, n = k+1 := ⟨n-1,by simp [bytesOf,escapes] at enough; omega⟩
    have empty : xs ++ bytesOf [] = xs := List.append_nil xs
    rw [empty]
    refine (takes_peek 34 rest).look ?_
    exact (takes_skip 34 rest).last (takes_pure _ rest)
  | cons c cs ih =>
    have split : bytesOf (escapes (c :: cs)) = bytesOf (quotedChar c).toList ++ bytesOf (escapes cs) := by
      unfold escapes
      rw [List.flatMap_cons,bytesOf_append]
    have whole : xs ++ bytesOf (c :: cs) = xs ++ String.utf8EncodeChar c ++ bytesOf cs := by
      rw [List.append_assoc]
      rfl
    rw [split,List.append_assoc] at enough ⊢
    rw [List.length_append] at enough
    rw [whole]
    by_cases escaped : c.toNat < 32 ∨ c = '"' ∨ c = '\\'
    · obtain ⟨tail,bytes,read⟩ := takes_escape escaped
      rw [bytes,List.length_cons] at enough
      obtain ⟨n,rfl⟩ : ∃ k, n = k+1 := ⟨n-1,by omega⟩
      rw [bytes]
      refine (takes_peek 92 _).look ?_
      refine (takes_skip 92 _).bind ?_
      refine (read _).bind ?_
      have joined : xs.toByteArray ++ c.toString.toUTF8 = (xs ++ String.utf8EncodeChar c).toByteArray := by
        have single : (String.singleton c).toUTF8 = (String.utf8EncodeChar c).toByteArray := by
          rw [← List.utf8Encode_singleton,← String.toList_singleton c]
          exact String.utf8Encode_toList.symm
        rw [List.toByteArray_append,← single]
        rfl
      rw [joined]
      exact ih _ (by omega)
    · have visible : 32 ≤ c.toNat := by omega
      have quote : c ≠ '"' := fun same => escaped (.inr (.inl same))
      have slash : c ≠ '\\' := fun same => escaped (.inr (.inr same))
      have bytes : bytesOf (quotedChar c).toList = String.utf8EncodeChar c := by
        rw [quotedChar_of_visible visible quote slash,String.toList_singleton]
        exact List.append_nil _
      rw [bytes] at enough ⊢
      obtain ⟨n,rfl⟩ : ∃ k, n = k + (String.utf8EncodeChar c).length := ⟨n - (String.utf8EncodeChar c).length,by omega⟩
      exact takes_copied xs (itself_of_char visible quote slash) (ih _ (by omega))

theorem takes_string (s : String) (rest : List UInt8) :
    Takes string (bytesOf (escapes s.toList) ++ [34]) rest s := by
  refine takes_bound fun n enough => ?_
  rw [List.length_append] at enough
  have read := takes_stringBytes s.toList [] rest (n := n) (by omega)
  rw [List.nil_append] at read
  refine read.last ?_
  rw [fromUTF8_bytesOf]
  exact takes_pure s rest

end ScriptHost.Json.Reader
