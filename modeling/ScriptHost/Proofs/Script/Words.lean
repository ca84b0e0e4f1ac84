import ScriptHost.Proofs.Script.Closing
/-!
Words and signs at a place of a text where it is known which characters stand there.
-/
namespace ScriptHost.Script.Token

section Known
variable {text : Array Char} {strict typed : Bool} {i : Nat} {c : Char}

/-- A letter of a word that is written without escapes. -/
def isLetter (c : Char) : Bool := Text.isIdentStart c && Text.isIdentPart c && c ≠ '\\' && Twins.solid c

/-- A word goes up to the first character that is no part of one. -/
theorem wordFrom_letters {e : Char} (ends : Text.isIdentPart e = false) (plain : e ≠ '\\') :
    ∀ (cs acc : List Char) {n i : Nat}, (∀ k < cs.length, text[i + k]? = cs[k]?) → (∀ c ∈ cs, isLetter c = true) →
    text[i + cs.length]? = some e → cs.length < n → acc ++ cs ≠ [] →
    wordFrom text n i acc false = some (acc.reverse ++ cs,i + cs.length,false)
  | [], acc, n + 1, i, _, _, found, _, filled => by
    rw [List.length_nil,Nat.add_zero] at found
    rw [List.append_nil] at filled
    unfold wordFrom
    rw [found]
    simp [plain,filled,ends]
  | c :: cs, acc, n + 1, i, there, letters, found, room, filled => by
    have letter := letters c List.mem_cons_self
    simp only [isLetter,Bool.and_eq_true,decide_eq_true_eq] at letter
    obtain ⟨⟨⟨start,part⟩,slash⟩,-⟩ := letter
    have here : text[i]? = some c := there 0 (Nat.zero_lt_succ _)
    have rest := wordFrom_letters ends plain cs (c :: acc) (n := n) (i := i + 1)
      (fun k inside => by
        have next := there (k + 1) (Nat.succ_lt_succ inside)
        rwa [Nat.add_left_comm,Nat.add_comm] at next)
      (fun c member => letters c (List.mem_cons_of_mem _ member))
      (by rwa [List.length_cons,Nat.add_left_comm,Nat.add_comm] at found) (Nat.lt_of_succ_lt_succ room) (by simp)
    unfold wordFrom
    rw [here]
    simp only [slash,if_false,start,part,ite_self,if_true]
    rw [rest]
    simp [Nat.add_assoc,Nat.add_comm 1]

theorem scanAt_word {e : Char} {cs : List Char} (there : ∀ k < cs.length, text[i + k]? = cs[k]?)
    (letters : ∀ c ∈ cs, isLetter c = true) (filled : cs ≠ []) (found : text[i + cs.length]? = some e)
    (ends : Text.isIdentPart e = false) (plain : e ≠ '\\') :
    scanAt text strict typed i = ⟨.word (String.ofList cs) false,i + cs.length,[]⟩ := by
  obtain ⟨c,rest,rfl⟩ := List.exists_cons_of_ne_nil filled
  have letter := letters c List.mem_cons_self
  simp only [isLetter,Bool.and_eq_true,decide_eq_true_eq] at letter
  have room := (Array.getElem?_eq_some_iff.mp found).1
  have word := wordFrom_letters ends plain (c :: rest) [] (n := text.size) there letters found
    (by omega) filled
  have here : text[i]? = some c := there 0 (Nat.zero_lt_succ _)
  unfold scanAt
  rw [here]
  simp [letter.1.1.1,word]

/-- The token at a place where no blank stands. -/
theorem scan_solid {tok : Tok} {stop : Nat} (found : text[i]? = some c) (firm : Twins.solid c = true)
    (scanned : scanAt text strict typed i = ⟨tok,stop,[]⟩) :
    Token.scan text strict typed i = (⟨tok,i,stop,false⟩,[]) := by
  unfold Token.scan
  rw [Twins.skipBlanks_solid _ _ found firm]
  dsimp only
  rw [scanned]
  rfl

/-- The token behind a blank. -/
theorem scan_blank {tok : Tok} {stop : Nat} (blank : text[i]? = some ' ') (found : text[i + 1]? = some c)
    (firm : Twins.solid c = true) (scanned : scanAt text strict typed (i + 1) = ⟨tok,stop,[]⟩) :
    Token.scan text strict typed i = (⟨tok,i + 1,stop,false⟩,[]) := by
  have skips : skipBlanks text (text.size + 1) i false = (i + 1,false,[]) := by
    unfold skipBlanks
    rw [blank]
    simp only [show isSpace ' ' = true by decide,if_true]
    exact Twins.skipBlanks_solid _ _ found firm
  unfold Token.scan
  rw [skips]
  dsimp only
  rw [scanned]
  rfl

end Known
end ScriptHost.Script.Token
