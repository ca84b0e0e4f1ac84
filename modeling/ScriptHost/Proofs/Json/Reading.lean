import ScriptHost.Json.Reader
/-!
How readers go over a text. A reader that takes some bytes does so wherever they stand, as long as the same bytes
follow (`Takes`); one after another, readers take what each of them takes.
-/
namespace ScriptHost.Json.Reader
variable {α β : Type}

/-- The reader stands before these bytes, the last ones of the text. -/
structure At (text : ByteArray) (pos : Nat) (bytes : List UInt8) : Prop where
  within : pos ≤ text.size
  left : text.data.toList.drop pos = bytes

namespace At
variable {text : ByteArray} {pos : Nat} {b : UInt8} {bytes more : List UInt8}

theorem length (stands : At text pos bytes) : pos + bytes.length = text.size := by
  have within := stands.within
  rw [← stands.left,List.length_drop,Array.length_toList]
  show pos + (text.size - pos) = text.size
  omega

theorem next (stands : At text pos (b :: bytes)) : text.get! pos = b ∧ At text (pos+1) bytes := by
  have len := stands.length
  rw [List.length_cons] at len
  have lt : pos < text.data.toList.length := by
    rw [Array.length_toList]
    show pos < text.size
    omega
  have split := List.drop_eq_getElem_cons lt
  rw [stands.left] at split
  obtain ⟨head,tail⟩ := List.cons.inj split
  refine ⟨?_,by omega,tail.symm⟩
  rw [head,Array.getElem_toList]
  exact getElem!_pos text.data pos lt

theorem beyond (stands : At text pos (bytes ++ more)) : At text (pos+bytes.length) more := by
  have len := stands.length
  rw [List.length_append] at len
  refine ⟨by omega,?_⟩
  rw [← List.drop_drop,stands.left,List.drop_left]

end At

/-- Before these bytes, with the others behind them, the reader passes over them and comes to a value. -/
def Takes (m : Reader α) (taken rest : List UInt8) (a : α) : Prop :=
  ∀ text pos, At text pos (taken ++ rest) → m text pos = .ok a (pos+taken.length)

section
variable {m : Reader α} {f : α → Reader β} {taken more rest : List UInt8} {a : α} {b : β} {c : UInt8}

theorem bind_apply (m : Reader α) (f : α → Reader β) (text : ByteArray) (pos : Nat) : (m >>= f) text pos =
    match m text pos with
    | .ok a stop => f a text stop
    | .refused why stop => .refused why stop := rfl

theorem bind_ok {text : ByteArray} {i j : Nat} (ok : m text i = .ok a j) : (m >>= f) text i = f a text j := by
  rw [bind_apply,ok]

theorem Takes.bind (first : Takes m taken (more ++ rest) a) (then_ : Takes (f a) more rest b) :
    Takes (m >>= f) (taken ++ more) rest b := by
  intro text pos stands
  rw [List.append_assoc] at stands
  rw [bind_ok (first text pos stands),then_ text _ stands.beyond,List.length_append,Nat.add_assoc]

/-- A reader that takes nothing comes first. -/
theorem Takes.look (first : Takes m [] (taken ++ rest) a) (then_ : Takes (f a) taken rest b) :
    Takes (m >>= f) taken rest b := first.bind then_

/-- A reader that takes nothing comes last. -/
theorem Takes.last (first : Takes m taken rest a) (then_ : Takes (f a) [] rest b) : Takes (m >>= f) taken rest b := by
  have both := Takes.bind first then_
  rwa [List.append_nil] at both

theorem takes_pure (a : α) (rest : List UInt8) : Takes (pure a) [] rest a := fun _ _ _ => rfl

theorem takes_peek (c : UInt8) (rest : List UInt8) : Takes peek [] (c :: rest) (some c) := by
  intro text pos stands
  have len := stands.length
  rw [List.nil_append,List.length_cons] at len
  have inside : pos < text.size := by omega
  show Reply.ok (if pos < text.size then some (text.get! pos) else none) pos = _
  rw [if_pos inside,stands.next.1]
  rfl

theorem takes_peek_end : Takes peek [] [] none := by
  intro text pos stands
  have len := stands.length
  rw [List.nil_append,List.length_nil] at len
  have outside : ¬pos < text.size := by omega
  show Reply.ok (if pos < text.size then some (text.get! pos) else none) pos = _
  rw [if_neg outside]
  rfl

theorem takes_skip (c : UInt8) (rest : List UInt8) : Takes skip [c] rest () := fun _ _ _ => rfl

theorem takes_next (c : UInt8) (rest : List UInt8) : Takes next [c] rest (some c) := by
  intro text pos stands
  have len := stands.length
  rw [List.length_append,List.length_singleton] at len
  have inside : pos < text.size := by omega
  show (if pos < text.size then Reply.ok (some (text.get! pos)) (pos+1) else .ok none pos) = _
  rw [if_pos inside,stands.next.1]
  rfl

/-- What reads with any bound that is long enough reads with the one of the text. -/
theorem takes_bound {f : Nat → Reader α} (each : ∀ n, (taken ++ rest).length < n → Takes (f n) taken rest a) :
    Takes (bound >>= f) taken rest a := by
  intro text pos stands
  have len := stands.length
  exact each (text.size+1) (by omega) text pos stands

theorem Takes.placed (takes : Takes m taken rest a) : Takes (placed m) taken rest a := by
  intro text pos stands
  unfold Reader.placed
  rw [takes text pos stands]

theorem Takes.closing {close : Reader Unit} (takes : Takes m taken (more ++ rest) a) (closes : Takes close more rest ()) :
    Takes (closing m close) (taken ++ more) rest a := by
  intro text pos stands
  rw [List.append_assoc] at stands
  unfold Reader.closing
  rw [takes text pos stands]
  simp only [closes text _ stands.beyond,List.length_append,Nat.add_assoc]

/-! ### Blanks -/

/-- The byte is passed over between the parts of a text. -/
def isBlank (c : UInt8) : Bool := c = 32 || c = 10 || c = 9 || c = 13

theorem token_go_of_end {text : ByteArray} {pos : Nat} (stands : At text pos []) (n : Nat) :
    token.go text n pos = pos := by
  have len := stands.length
  rw [List.length_nil] at len
  cases n with
  | zero => rfl
  | succ n =>
    have outside : ¬pos < text.size := by omega
    unfold token.go
    rw [if_neg outside]
    rfl

theorem token_go_of_next {text : ByteArray} {pos : Nat} (stands : At text pos (c :: rest)) (visible : isBlank c = false)
    (n : Nat) : token.go text n pos = pos := by
  have len := stands.length
  rw [List.length_cons] at len
  cases n with
  | zero => rfl
  | succ n =>
    have inside : pos < text.size := by omega
    have other : (c = 32 || c = 10 || c = 9 || c = 13) = false := visible
    unfold token.go
    simp only [if_pos inside,stands.next.1,other,Bool.false_eq_true,if_false]

theorem takes_token (visible : isBlank c = false) (rest : List UInt8) : Takes token [] (c :: rest) (some c) := by
  intro text pos stands
  show peek text (token.go text (text.size+1-pos) pos) = _
  rw [token_go_of_next stands visible]
  exact takes_peek c rest text pos stands

theorem takes_token_end : Takes token [] [] none := by
  intro text pos stands
  show peek text (token.go text (text.size+1-pos) pos) = _
  rw [token_go_of_end stands]
  exact takes_peek_end text pos stands

/-! ### Words -/

theorem takes_letter (c : UInt8) (rest : List UInt8) : Takes (do
    match ← next with
    | none => refuse .endInValue
    | some b => if b = c then pure () else refuse .expectedWord) [c] rest () := by
  refine (takes_next c rest).last ?_
  simp only [if_true]
  exact takes_pure () rest

theorem takes_word (letters rest : List UInt8) : Takes (word letters) letters rest () := by
  induction letters with
  | nil => exact takes_pure () rest
  | cons c letters ih => exact (takes_letter c _).bind ih

theorem takes_textEnd : Takes textEnd [] [] () := by
  unfold textEnd
  refine takes_token_end.look ?_
  exact takes_pure () []

/-! ### Lists and objects -/

theorem takes_hasItem_end (first : Bool) (rest : List UInt8) : Takes (hasItem first) [] (93 :: rest) false := by
  unfold hasItem
  refine (takes_token rfl rest).look ?_
  exact takes_pure false _

theorem takes_hasItem_first (visible : isBlank c = false) (other : c ≠ 93) (rest : List UInt8) :
    Takes (hasItem true) [] (c :: rest) true := by
  unfold hasItem
  refine (takes_token visible rest).look ?_
  split
  · next none_ => cases none_
  · next same => exact absurd (Option.some.inj same) other
  · exact takes_pure true _

theorem takes_hasItem_next (visible : isBlank c = false) (other : c ≠ 93) (rest : List UInt8) :
    Takes (hasItem false) [44] (c :: rest) true := by
  unfold hasItem
  refine (takes_token rfl (c :: rest)).look ?_
  refine (takes_skip 44 (c :: rest)).last ?_
  refine (takes_token visible rest).look ?_
  split
  · next same => exact absurd (Option.some.inj same) other
  · exact takes_pure true _
  · next none_ => cases none_

theorem takes_hasKey_end (first : Bool) (rest : List UInt8) : Takes (hasKey first) [] (125 :: rest) false := by
  unfold hasKey
  refine (takes_token rfl rest).look ?_
  exact takes_pure false _

theorem takes_hasKey_first (rest : List UInt8) : Takes (hasKey true) [] (34 :: rest) true := by
  unfold hasKey
  refine (takes_token rfl rest).look ?_
  exact takes_pure true _

theorem takes_hasKey_next (rest : List UInt8) : Takes (hasKey false) [44] (34 :: rest) true := by
  unfold hasKey
  refine (takes_token rfl (34 :: rest)).look ?_
  refine (takes_skip 44 (34 :: rest)).last ?_
  refine (takes_token rfl rest).look ?_
  exact takes_pure true _

theorem takes_colon (rest : List UInt8) : Takes colon [58] rest () := by
  unfold colon
  refine (takes_token rfl rest).look ?_
  exact takes_skip 58 rest

theorem takes_listEnd (rest : List UInt8) : Takes listEnd [93] rest () := by
  unfold listEnd
  refine (takes_token rfl rest).look ?_
  exact takes_skip 93 rest

theorem takes_objectEnd (rest : List UInt8) : Takes objectEnd [125] rest () := by
  unfold objectEnd
  refine (takes_token rfl rest).look ?_
  exact takes_skip 125 rest

/-! ### Values -/

theorem takes_null (n : Nat) (rest : List UInt8) : Takes (value (n+1)) [110,117,108,108] rest .null := by
  refine Takes.placed ((takes_token rfl _).look ?_)
  refine (takes_skip 110 _).bind ((takes_word [117,108,108] rest).last ?_)
  exact takes_pure Json.null rest

theorem takes_true (n : Nat) (rest : List UInt8) : Takes (value (n+1)) [116,114,117,101] rest (.bool true) := by
  refine Takes.placed ((takes_token rfl _).look ?_)
  refine (takes_skip 116 _).bind ((takes_word [114,117,101] rest).last ?_)
  exact takes_pure (Json.bool true) rest

theorem takes_false (n : Nat) (rest : List UInt8) : Takes (value (n+1)) [102,97,108,115,101] rest (.bool false) := by
  refine Takes.placed ((takes_token rfl _).look ?_)
  refine (takes_skip 102 _).bind ((takes_word [97,108,115,101] rest).last ?_)
  exact takes_pure (Json.bool false) rest

theorem takes_str {s : String} (n : Nat) (reads : Takes string taken rest s) :
    Takes (value (n+1)) (34 :: taken) rest (.str s) := by
  refine Takes.placed ((takes_token rfl _).look ?_)
  refine (takes_skip 34 _).bind (reads.last ?_)
  exact takes_pure (Json.str s) rest

theorem takes_arr {vs : List Json} (n : Nat) (reads : ∀ k, (taken ++ ([93] ++ rest)).length < k →
    Takes (items (value (n+1)) k true) taken ([93] ++ rest) vs) :
    Takes (value (n+2)) (91 :: (taken ++ [93])) rest (.arr vs) := by
  refine Takes.placed ((takes_token rfl _).look ?_)
  refine (takes_skip 91 _).bind ?_
  refine ((takes_bound reads).closing (takes_listEnd rest)).last ?_
  exact takes_pure (Json.arr vs) rest

theorem takes_obj {ms : List (String × Json)} (n : Nat) (reads : ∀ k, (taken ++ ([125] ++ rest)).length < k →
    Takes (members (value (n+1)) k true []) taken ([125] ++ rest) ms) :
    Takes (value (n+2)) (123 :: (taken ++ [125])) rest (.obj ms) := by
  refine Takes.placed ((takes_token rfl _).look ?_)
  refine (takes_skip 123 _).bind ?_
  refine ((takes_bound reads).closing (takes_objectEnd rest)).last ?_
  exact takes_pure (Json.obj ms) rest

/-- What a reader takes of a whole text is what the text holds. -/
theorem run_of_takes {text : String} (takes : Takes m text.toUTF8.data.toList [] a) : run m text = .ok a := by
  have stands : At text.toUTF8 0 (text.toUTF8.data.toList ++ []) := ⟨Nat.zero_le _,by simp⟩
  unfold run
  rw [takes _ 0 stands]

end
end ScriptHost.Json.Reader
