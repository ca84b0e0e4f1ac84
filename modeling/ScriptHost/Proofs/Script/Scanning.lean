import Mathlib.Data.List.Find
import ScriptHost.Script.Token
/-!
Tokens of two texts that differ at their ends only (`Twins`): behind a brace that stands on a line of its own, and at
their first character. No token that starts up to that brace reaches over it, a string apart that is never closed, so
the texts have the same tokens (`Twins.scan_same`). Each lemma says so for one of the functions of the scanner, together
with where it stops.
-/
namespace ScriptHost.Script

namespace Token

/-- Behind a place a text has nothing but closing signs and blanks. -/
def Tail (text : Array Char) (line : Nat) : Prop :=
  ∀ i c, line < i → text[i]? = some c → c = '\x7d' ∨ c = ')' ∨ c = ' '

/-! ### Where things stop -/

theorem skipWhile_ge {text : Array Char} {cond : Char → Bool} : ∀ {n i : Nat}, i ≤ skipWhile text cond n i
  | 0, i => Nat.le_refl i
  | n + 1, i => by
    unfold skipWhile
    split
    · split
      · exact Nat.le_of_succ_le skipWhile_ge
      · exact Nat.le_refl i
    · exact Nat.le_refl i

theorem blockComment_ge {text : Array Char} : ∀ {n i : Nat} {broken broken' : Bool} {stop : Nat},
    blockComment text n i broken = (some stop,broken') → i + 2 ≤ stop
  | 0, _, _, _, _, found => by simp [blockComment] at found
  | n + 1, i, broken, broken', stop, found => by
    unfold blockComment at found
    split at found
    · simp at found
    · split at found
      · simp only [Prod.mk.injEq,Option.some.injEq] at found
        omega
      · have later := blockComment_ge found
        omega

/-- Blanks end where they begin or behind. -/
theorem skipBlanks_ge {text : Array Char} : ∀ {n i : Nat} {broken : Bool}, i ≤ (skipBlanks text n i broken).1
  | 0, i, _ => Nat.le_refl i
  | n + 1, i, _ => by
    unfold skipBlanks
    split
    · exact Nat.le_refl i
    next c found =>
    split
    · exact Nat.le_of_succ_le skipBlanks_ge
    split
    · exact Nat.le_of_succ_le skipBlanks_ge
    split
    · exact Nat.le_trans skipWhile_ge skipBlanks_ge
    split
    · split
      · next stop broken' ends =>
        exact Nat.le_trans (Nat.le_trans (Nat.le_add_right i 4) (blockComment_ge ends)) skipBlanks_ge
      · exact Nat.le_of_lt (Array.getElem?_eq_some_iff.mp found).1
    split
    · exact Nat.le_trans skipWhile_ge skipBlanks_ge
    split
    · exact Nat.le_trans skipWhile_ge skipBlanks_ge
    · exact Nat.le_refl i

theorem startsAt_iff {text : Array Char} {i : Nat} {cs : List Char} :
    startsAt text i cs = true ↔ ∀ k (_ : k < cs.length), text[i + k]? = some cs[k] := by
  unfold startsAt
  rw [List.all_eq_true]
  constructor
  · intro all k inside
    have member : (k,cs[k]) ∈ (List.range cs.length).zip cs := by
      rw [List.mem_iff_getElem]
      exact ⟨k,by simpa using inside,by simp⟩
    simpa using all _ member
  · rintro all ⟨k,c⟩ member
    obtain ⟨j,inside,same⟩ := List.mem_iff_getElem.mp member
    simp only [List.length_zip,List.length_range,Nat.min_self] at inside
    simp only [List.getElem_zip,List.getElem_range,Prod.mk.injEq] at same
    obtain ⟨rfl,rfl⟩ := same
    simpa using all j inside

/-- What stands at a place in front of a line break, and holds none, ends in front of it. -/
theorem startsAt_le {text : Array Char} {i line : Nat} {cs : List Char} (breaks : text[line]? = some '\n')
    (inside : i ≤ line) (plain : '\n' ∉ cs) (starts : startsAt text i cs = true) : i + cs.length ≤ line := by
  by_contra beyond
  have covers : line - i < cs.length := by omega
  have there := startsAt_iff.mp starts (line - i) covers
  rw [Nat.add_sub_cancel' inside,breaks] at there
  exact plain (Option.some.inj there ▸ List.getElem_mem covers)

end Token

/-- Two texts of one length: the same characters up to a brace on a line of its own, the first one apart, and behind it
a blank in the one and a parenthesis in the other. -/
structure Twins where
  inner : Array Char
  outer : Array Char
  /-- The place of the line break in front of the brace. -/
  line : Nat
  same : ∀ i, 0 < i → i ≤ line + 1 → outer[i]? = inner[i]?
  breaks : inner[line]? = some '\n'
  braced : inner[line + 1]? = some '\x7d'
  innerEnd : inner[line + 2]? = some ' '
  innerSize : inner.size = line + 3
  outerEnd : outer[line + 2]? = some ')'
  outerSize : outer.size = line + 3

namespace Twins

variable (w : Twins)

theorem size : w.outer.size = w.inner.size := w.outerSize.trans w.innerSize.symm

theorem lt_size : w.line + 1 < w.inner.size := (Array.getElem?_eq_some_iff.mp w.braced).1

theorem tail {text : Array Char} {last : Char} (size : text.size = w.line + 3)
    (braced : text[w.line + 1]? = some '\x7d') (ends : text[w.line + 2]? = some last)
    (closing : last = ')' ∨ last = ' ') : Token.Tail text w.line := by
  intro i c behind found
  have inside := (Array.getElem?_eq_some_iff.mp found).1
  obtain rfl | rfl : i = w.line + 1 ∨ i = w.line + 2 := by omega
  · exact .inl (Option.some.inj (found.symm.trans braced))
  · exact .inr (Option.some.inj (found.symm.trans ends) ▸ closing)

theorem innerTail : Token.Tail w.inner w.line := w.tail w.innerSize w.braced w.innerEnd (.inr rfl)

theorem outerTail : Token.Tail w.outer w.line :=
  w.tail w.outerSize ((w.same _ (Nat.succ_pos _) (Nat.le_refl _)).trans w.braced) w.outerEnd (.inl rfl)

variable {w}

/-- What is no closing sign stands up to the line break. -/
theorem le_line {i : Nat} {c : Char} (inside : i ≤ w.line + 1) (found : w.inner[i]? = some c)
    (other : c ≠ '\x7d') : i ≤ w.line := by
  rcases Nat.lt_or_eq_of_le inside with before | rfl
  · exact Nat.le_of_lt_succ before
  · exact absurd (Option.some.inj (found.symm.trans w.braced)) other

/-- What is no line break either stands in front of it. -/
theorem lt_line {i : Nat} {c : Char} (inside : i ≤ w.line) (found : w.inner[i]? = some c) (other : c ≠ '\n') :
    i < w.line := by
  rcases Nat.lt_or_eq_of_le inside with before | rfl
  · exact before
  · exact absurd (Option.some.inj (found.symm.trans w.breaks)) other

theorem charAt_same {i : Nat} (pos : 0 < i) (inside : i ≤ w.line + 1) :
    Token.charAt w.outer i = Token.charAt w.inner i := by
  unfold Token.charAt
  rw [w.same i pos inside]

theorem extract_same {a b : Nat} (pos : 0 < a) (inside : b ≤ w.line + 2) :
    w.outer.extract a b = w.inner.extract a b := by
  apply Array.ext_getElem?
  intro i
  rw [Array.getElem?_extract,Array.getElem?_extract,w.size]
  split
  · exact w.same (a + i) (by omega) (by omega)
  · rfl

theorem textBetween_same {a b : Nat} (pos : 0 < a) (inside : b ≤ w.line + 2) :
    Token.textBetween w.outer a b = Token.textBetween w.inner a b := by
  unfold Token.textBetween
  rw [extract_same pos inside]

/-! ### Blanks -/

/-- A run of characters that a line break is not part of. -/
theorem skipWhile_line (cond : Char → Bool) (ends : cond '\n' = false) : ∀ (n : Nat) {i : Nat}, 0 < i → i ≤ w.line →
    Token.skipWhile w.outer cond n i = Token.skipWhile w.inner cond n i ∧ Token.skipWhile w.inner cond n i ≤ w.line
  | 0, i, _, inside => ⟨rfl,inside⟩
  | n + 1, i, pos, inside => by
    unfold Token.skipWhile
    rw [w.same i pos (Nat.le_succ_of_le inside)]
    cases found : w.inner[i]? with
    | none => exact ⟨rfl,inside⟩
    | some c =>
      simp only
      split
      · next goes =>
        have before := lt_line inside found (by rintro rfl; simp [ends] at goes)
        exact skipWhile_line cond ends n (Nat.succ_pos i) before
      · exact ⟨rfl,inside⟩

theorem startsAt_same {i : Nat} {cs : List Char} (pos : 0 < i) (inside : i ≤ w.line) (plain : '\n' ∉ cs) :
    Token.startsAt w.outer i cs = Token.startsAt w.inner i cs := by
  have breaks : w.outer[w.line]? = some '\n' :=
    (w.same w.line (Nat.lt_of_lt_of_le pos inside) (Nat.le_succ w.line)).trans w.breaks
  rw [Bool.eq_iff_iff]
  constructor
  · intro starts
    have fits := Token.startsAt_le breaks inside plain starts
    rw [Token.startsAt_iff] at starts ⊢
    intro k low
    rw [← starts k low,w.same (i + k) (by omega) (by omega)]
  · intro starts
    have fits := Token.startsAt_le w.breaks inside plain starts
    rw [Token.startsAt_iff] at starts ⊢
    intro k low
    rw [← starts k low,w.same (i + k) (by omega) (by omega)]

end Twins

/-- Behind the break no block comment ends. -/
theorem Token.Tail.blockComment {text : Array Char} {line : Nat} (tail : Token.Tail text line) :
    ∀ (n : Nat) {i : Nat} (broken : Bool), line < i → Token.blockComment text n i broken = (none,broken)
  | 0, _, _, _ => rfl
  | n + 1, i, broken, behind => by
    unfold Token.blockComment
    cases found : text[i]? with
    | none => rfl
    | some c =>
      simp only
      rcases tail i c behind found with rfl | rfl | rfl
      all_goals
        simpa [Token.isLineBreak] using tail.blockComment n broken (Nat.lt_succ_of_lt behind)

namespace Twins

variable {w : Twins}

theorem blockComment_same : ∀ (n : Nat) {i : Nat} (broken : Bool), 0 < i →
    Token.blockComment w.outer n i broken = Token.blockComment w.inner n i broken ∧
      ∀ stop broken', Token.blockComment w.inner n i broken = (some stop,broken') → stop ≤ w.line
  | 0, _, _, _ => ⟨rfl,by simp [Token.blockComment]⟩
  | n + 1, i, broken, pos => by
    by_cases behind : w.line < i
    · rw [w.innerTail.blockComment _ _ behind,w.outerTail.blockComment _ _ behind]
      exact ⟨rfl,by simp⟩
    have inside := Nat.not_lt.mp behind
    unfold Token.blockComment
    rw [w.same i pos (Nat.le_succ_of_le inside),w.same (i + 1) (Nat.succ_pos i) (Nat.succ_le_succ inside)]
    cases found : w.inner[i]? with
    | none => exact ⟨rfl,by simp⟩
    | some c =>
      simp only
      split
      · next ends =>
        obtain ⟨star,slash⟩ : c = '*' ∧ w.inner[i + 1]? = some '/' := by simpa using ends
        have before := lt_line inside found (by rw [star]; decide)
        have before := lt_line before slash (by decide)
        refine ⟨rfl,fun stop broken' same => ?_⟩
        simp only [Prod.mk.injEq,Option.some.injEq] at same
        omega
      · exact blockComment_same n _ (Nat.succ_pos i)

/-- No blank and no comment begins with these. -/
def solid (c : Char) : Bool := !Token.isSpace c && !Token.isLineBreak c && !(['/','<','-'].contains c)

theorem skipBlanks_solid {text : Array Char} {i : Nat} {c : Char} (n : Nat) (broken : Bool) (found : text[i]? = some c)
    (firm : solid c = true) : Token.skipBlanks text n i broken = (i,broken,[]) := by
  cases n with
  | zero => rfl
  | succ n =>
    simp only [solid,Bool.and_eq_true,Bool.not_eq_true',List.contains_eq_mem,List.mem_cons,List.not_mem_nil,or_false,
      decide_eq_false_iff_not,not_or] at firm
    obtain ⟨⟨space,broken⟩,slash,less,minus⟩ := firm
    have other : ∀ first cs, c ≠ first → Token.startsAt text i (first :: cs) = false := by
      intro first cs ne
      by_contra starts
      have there := Token.startsAt_iff.mp (eq_true_of_ne_false starts) 0 (Nat.zero_lt_succ cs.length)
      exact ne (Option.some.inj (found.symm.trans there))
    unfold Token.skipBlanks
    rw [found]
    simp [other _ _ less,other _ _ minus,space,broken,slash]

/-- Signs that no longer one contains. -/
def loneSigns : List Char := ['(',')',',','\x7b','\x7d']

/-- What can be checked for one lone sign after another holds of all of them. -/
theorem forall_loneSigns {p : Char → Prop} [DecidablePred p] (all : loneSigns.all (fun c => decide (p c)) = true) :
    ∀ c ∈ loneSigns, p c :=
  fun c lone => of_decide_eq_true (List.all_eq_true.mp all c lone)

theorem loneSigns_solid : ∀ c ∈ loneSigns, solid c = true := forall_loneSigns (by decide)

/-- Blanks that end up to the brace, or with a comment that is never closed. -/
def UpTo (w : Twins) (blanks : Nat × Bool × List Fault) : Prop :=
  blanks.1 ≤ w.line + 1 ∨ blanks.1 = w.inner.size ∧ blanks.2.2 ≠ []

theorem skipBlanks_same : ∀ (n : Nat) {i : Nat} (broken : Bool), 0 < i → i ≤ w.line + 1 →
    Token.skipBlanks w.outer n i broken = Token.skipBlanks w.inner n i broken ∧
      UpTo w (Token.skipBlanks w.inner n i broken)
  | 0, i, _, _, inside => ⟨rfl,.inl inside⟩
  | n + 1, i, broken, pos, inside => by
    rcases Nat.lt_or_eq_of_le inside with before | rfl
    rotate_left
    · have brace := (w.same _ pos inside).trans w.braced
      rw [skipBlanks_solid (n + 1) broken brace (by decide),skipBlanks_solid (n + 1) broken w.braced (by decide)]
      exact ⟨rfl,.inl inside⟩
    have before := Nat.le_of_lt_succ before
    have next := fun broken => skipBlanks_same n broken (Nat.succ_pos i) (Nat.succ_le_succ before)
    -- A comment up to the end of the line.
    have comment : ∀ m broken,
        Token.skipBlanks w.outer n (Token.skipWhile w.outer (!Token.isLineBreak ·) m i) broken =
          Token.skipBlanks w.inner n (Token.skipWhile w.inner (!Token.isLineBreak ·) m i) broken ∧
        UpTo w (Token.skipBlanks w.inner n (Token.skipWhile w.inner (!Token.isLineBreak ·) m i) broken) := by
      intro m broken
      obtain ⟨same,low⟩ := skipWhile_line (w := w) (!Token.isLineBreak ·) (by decide) m pos before
      rw [same]
      exact skipBlanks_same n broken (Nat.lt_of_lt_of_le pos Token.skipWhile_ge)
        (Nat.le_succ_of_le low)
    unfold Token.skipBlanks
    rw [w.same i pos inside,w.same (i + 1) (Nat.succ_pos i) (Nat.succ_le_succ before),w.size,
      startsAt_same pos before (by decide),startsAt_same pos before (by decide)]
    cases found : w.inner[i]? with
    | none => exact ⟨rfl,.inl inside⟩
    | some c =>
      simp only
      split
      · exact next _
      split
      · exact next _
      split
      · exact comment _ _
      split
      · obtain ⟨same,low⟩ := blockComment_same (w := w) w.inner.size broken (Nat.succ_pos (i + 1))
        rw [same]
        cases ends : Token.blockComment w.inner w.inner.size (i + 2) broken with
        | mk stop broken' =>
          cases stop with
          | none => exact ⟨rfl,.inr ⟨rfl,by simp⟩⟩
          | some stop =>
            have low := low stop broken' ends
            have high := Token.blockComment_ge ends
            exact skipBlanks_same n broken' (by omega) (by omega)
      split
      · exact comment _ _
      split
      · exact comment _ _
      · exact ⟨rfl,.inl inside⟩

end Twins

/-! ### Escapes -/

namespace Token

theorem hexDigits_succ (text : Array Char) (i n : Nat) : hexDigits text i (n + 1) =
    (hexDigits text i n).bind fun value => (digitValue (charAt text (i + n))).map (value * 16 + ·) := by
  unfold hexDigits
  rw [List.range_succ,List.foldlM_append]
  simp only [List.foldlM_cons,List.foldlM_nil,bind_pure]
  refine congrArg (Option.bind _) (funext fun value => ?_)
  cases digitValue (charAt text (i + n)) <;> rfl

/-- Digits end in front of what is none. -/
theorem hexDigits_le {text : Array Char} {i q : Nat} {c : Char} (there : text[q]? = some c) (ends : digitValue c = none)
    (inside : i ≤ q) : ∀ {n value : Nat}, hexDigits text i n = some value → i + n ≤ q
  | 0, _, _ => inside
  | n + 1, value, found => by
    rw [hexDigits_succ,Option.bind_eq_some_iff] at found
    obtain ⟨before,first,last⟩ := found
    have low := hexDigits_le there ends inside first
    obtain ⟨digit,is,-⟩ := Option.map_eq_some_iff.mp last
    have other : i + n ≠ q := by
      rintro rfl
      unfold charAt at is
      rw [there,Option.getD_some,ends] at is
      cases is
    omega

/-- A run ends at a character that is not part of it. -/
theorem length_takeWhile_le {p : Char → Bool} : ∀ {k : Nat} {l : List Char}, (∀ c, l[k]? = some c → p c = false) →
    (l.takeWhile p).length ≤ k
  | _, [], _ => Nat.zero_le _
  | k, c :: l, ends => by
    cases goes : p c with
    | false => simp [goes]
    | true =>
      cases k with
      | zero => simp [goes] at ends
      | succ k =>
        rw [List.takeWhile_cons,goes]
        exact Nat.succ_le_succ (length_takeWhile_le fun c found => ends c (by simpa using found))

/-- The octal digits in front of a line break. -/
theorem octal_le {text : Array Char} {i n line : Nat} (breaks : text[line]? = some '\n') (inside : i ≤ line) :
    i + ((text.extract i (i + n)).toList.takeWhile (isDigitOf 8)).length ≤ line := by
  have short : ((text.extract i (i + n)).toList.takeWhile (isDigitOf 8)).length ≤ line - i := by
    refine length_takeWhile_le fun c found => ?_
    rw [Array.getElem?_toList,Array.getElem?_extract] at found
    split at found
    · rw [Nat.add_sub_cancel' inside,breaks] at found
      cases found
      decide
    · cases found
  omega

/-- An escape stops where it begins or behind. -/
def Escaped.From (i : Nat) : Escaped → Prop
  | .chars _ stop | .legacy _ stop _ => i ≤ stop
  | .refused _ => True

theorem unicodeEscape_ge {text : Array Char} {i point stop : Nat} (found : unicodeEscape text i = some (point,stop)) :
    i ≤ stop := by
  unfold unicodeEscape at found
  split at found
  · dsimp only at found
    split at found
    · cases found
    · split at found
      · cases found
      · simp only [Option.some.injEq,Prod.mk.injEq] at found
        have : i + 1 ≤ skipWhile text (isDigitOf 16) text.size (i + 1) := skipWhile_ge
        omega
  · obtain ⟨value,-,same⟩ := Option.map_eq_some_iff.mp found
    simp only [Prod.mk.injEq] at same
    omega

theorem scanEscape_from (text : Array Char) (i : Nat) (inTemplate : Bool) : (scanEscape text i inTemplate).From i := by
  unfold scanEscape
  split
  · exact Nat.le_refl i
  split
  · exact Nat.le_succ i
  split
  · show i ≤ ite _ _ _
    split <;> omega
  split
  · exact Nat.le_succ i
  split
  · split
    · exact Nat.le_add_right i 3
    · trivial
  split
  · split
    · next found => exact Nat.le_of_succ_le (unicodeEscape_ge found)
    · trivial
  split
  · dsimp only
    split
    · exact Nat.le_succ i
    split
    · trivial
    · exact Nat.le_add_right i _
  split
  · split
    · trivial
    · exact Nat.le_succ i
  · exact Nat.le_succ i

/-- An escape stops up to here. -/
def Escaped.UpTo (e : Nat) : Escaped → Prop
  | .chars _ stop | .legacy _ stop _ => stop ≤ e
  | .refused _ => True

end Token

namespace Twins

variable {w : Twins}

theorem hexDigits_same {i : Nat} (pos : 0 < i) (inside : i ≤ w.line + 1) :
    ∀ n, Token.hexDigits w.outer i n = Token.hexDigits w.inner i n
  | 0 => rfl
  | n + 1 => by
    rw [Token.hexDigits_succ,Token.hexDigits_succ,hexDigits_same pos inside n]
    cases first : Token.hexDigits w.inner i n with
    | none => rfl
    | some value =>
      rw [charAt_same (Nat.lt_of_lt_of_le pos (Nat.le_add_right i n))
        (Token.hexDigits_le w.braced (by decide) inside first)]

/-- What follows the letter of a unicode escape. -/
theorem unicodeEscape_same {i : Nat} (pos : 0 < i) (inside : i ≤ w.line) :
    Token.unicodeEscape w.outer i = Token.unicodeEscape w.inner i ∧
      ∀ point stop, Token.unicodeEscape w.inner i = some (point,stop) → stop ≤ w.line := by
  unfold Token.unicodeEscape
  rw [w.same i pos (Nat.le_succ_of_le inside),w.size]
  split
  · next opens =>
    have before := lt_line inside opens (by decide)
    obtain ⟨same,low⟩ := skipWhile_line (w := w) (Token.isDigitOf 16) (by decide) w.inner.size
      (i := i + 1) (Nat.succ_pos i) before
    have behind : i + 1 ≤ Token.skipWhile w.inner (Token.isDigitOf 16) w.inner.size (i + 1) := Token.skipWhile_ge
    dsimp only
    rw [same,w.same _ (by omega) (by omega),extract_same (Nat.succ_pos i) (by omega)]
    refine ⟨rfl,fun point stop found => ?_⟩
    split at found
    · cases found
    next closes =>
    split at found
    · cases found
    · have closing : w.inner[Token.skipWhile w.inner (Token.isDigitOf 16) w.inner.size (i + 1)]? = some '\x7d' :=
        (by simpa using closes : _ ∧ _).2
      have before := lt_line low closing (by decide)
      simp only [Option.some.injEq,Prod.mk.injEq] at found
      omega
  · rw [hexDigits_same pos (Nat.le_succ_of_le inside)]
    refine ⟨rfl,fun point stop found => ?_⟩
    obtain ⟨value,digits,same⟩ := Option.map_eq_some_iff.mp found
    simp only [Prod.mk.injEq] at same
    have := Token.hexDigits_le w.breaks (by decide) inside digits
    omega

theorem scanEscape_same {i : Nat} (pos : 0 < i) (inside : i ≤ w.line) (inTemplate : Bool) :
    Token.scanEscape w.outer i inTemplate = Token.scanEscape w.inner i inTemplate ∧
      (Token.scanEscape w.inner i inTemplate).UpTo (w.line + 1) := by
  have low := Nat.le_succ_of_le inside
  unfold Token.scanEscape
  rw [w.same i pos low,w.same (i + 1) (Nat.succ_pos i) (Nat.succ_le_succ inside),
    hexDigits_same (Nat.succ_pos i) (Nat.succ_le_succ inside)]
  cases found : w.inner[i]? with
  | none => exact ⟨rfl,low⟩
  | some c =>
    simp only
    split
    · exact ⟨rfl,Nat.succ_le_succ inside⟩
    by_cases line : c = '\n'
    · subst line
      exact ⟨rfl,Nat.succ_le_succ inside⟩
    have before := lt_line inside found line
    obtain ⟨same,stops⟩ := unicodeEscape_same (w := w) (Nat.succ_pos i) before
    rw [same]
    split
    · refine ⟨rfl,?_⟩
      show ite _ _ _ ≤ w.line + 1
      split <;> omega
    split
    · exact ⟨rfl,Nat.succ_le_succ inside⟩
    split
    · refine ⟨rfl,?_⟩
      split
      · next digits =>
        have := Token.hexDigits_le w.breaks (by decide) before digits
        exact Nat.le_succ_of_le this
      · trivial
    split
    · refine ⟨rfl,?_⟩
      split
      · next escaped => exact Nat.le_succ_of_le (stops _ _ escaped)
      · trivial
    split
    · rw [extract_same pos (by split <;> omega)]
      refine ⟨rfl,?_⟩
      split
      · exact Nat.succ_le_succ inside
      split
      · trivial
      · exact Nat.le_succ_of_le (Token.octal_le w.breaks inside)
    · refine ⟨rfl,?_⟩
      split
      · split
        · trivial
        · exact Nat.succ_le_succ inside
      · exact Nat.succ_le_succ inside

end Twins

/-! ### Literals -/

/-- The token is a closing brace or could not be read. -/
def Tok.closes : Tok → Bool
  | .sign "\x7d" | .bad _ => true
  | _ => false

/-- The token is the end of a text or could not be read. -/
def Tok.ends : Tok → Bool
  | .eof | .bad _ => true
  | _ => false

/-- A token without the text of a string. -/
def Tok.blur : Tok → Tok
  | .str _ _ => .str "" ""
  | tok => tok

namespace Twins

variable (w : Twins)

/-- A token stops in front of the brace, or it is the brace, or could not be read. -/
def Stops (kind : Tok) (stop : Nat) : Prop :=
  stop ≤ w.line + 1 ∨ kind.closes = true ∧ stop = w.line + 2

/-- What is scanned at a place of both texts: the same, but for the text of a string that is never closed. -/
structure Agree (i : Nat) (outer inner : Token.Scanned) : Prop where
  tok : outer.tok.blur = inner.tok.blur
  stop : outer.stop = inner.stop
  faults : outer.faults = inner.faults
  from_ : i ≤ inner.stop
  clean : inner.faults = [] → outer = inner ∧ w.Stops inner.tok inner.stop

variable {w}

theorem Agree.of_eq {i : Nat} {outer inner : Token.Scanned} (same : outer = inner) (low : i ≤ inner.stop)
    (high : inner.stop ≤ w.line + 1) : w.Agree i outer inner :=
  ⟨by rw [same],by rw [same],by rw [same],low,fun _ => ⟨same,.inl high⟩⟩

theorem Agree.mono {i j : Nat} {outer inner : Token.Scanned} (agree : w.Agree j outer inner) (low : i ≤ j) :
    w.Agree i outer inner :=
  { agree with from_ := Nat.le_trans low agree.from_ }

end Twins

/-- Behind the break no string ends. -/
theorem Token.Tail.stringFrom {text : Array Char} {line : Nat} (tail : Token.Tail text line) (strict : Bool)
    {quote : Char} (quotes : quote = '"' ∨ quote = '\'') (start : Nat) : ∀ (n : Nat) {i : Nat} (acc : List Char)
    (faults : List Fault), line < i → i ≤ text.size → text.size < n + i →
      ∃ value raw, Token.stringFrom text strict quote start n i acc faults =
        ⟨.str value raw,text.size,(⟨.unterminatedString,start⟩ :: faults).reverse⟩
  | 0, i, _, _, _, _, enough => by omega
  | n + 1, i, acc, faults, behind, inside, enough => by
    unfold Token.stringFrom
    cases found : text[i]? with
    | none =>
      have whole : i = text.size := Nat.le_antisymm inside (Array.getElem?_eq_none_iff.mp found)
      subst whole
      exact ⟨_,_,rfl⟩
    | some c =>
      have inside := (Array.getElem?_eq_some_iff.mp found).1
      have later := tail.stringFrom strict quotes start n (c :: acc) faults (Nat.lt_succ_of_lt behind) inside
        (by omega)
      simp only
      rcases quotes with rfl | rfl <;> rcases tail i c behind found with rfl | rfl | rfl <;> simpa using later

namespace Twins

variable {w : Twins}

theorem stringFrom_agree {strict : Bool} {quote : Char} (quotes : quote = '"' ∨ quote = '\'') {start : Nat}
    (pos : 0 < start) : ∀ {n i : Nat} {acc : List Char} {faults : List Fault}, 0 < i → i ≤ w.line + 1 →
      w.inner.size < n + i → w.Agree i (Token.stringFrom w.outer strict quote start n i acc faults)
        (Token.stringFrom w.inner strict quote start n i acc faults)
  | 0, i, _, _, _, inside, enough => by
    have := w.lt_size
    omega
  | n + 1, i, acc, faults, here, inside, enough => by
    rcases Nat.lt_or_eq_of_le inside with before | rfl
    rotate_left
    · obtain ⟨value,raw,inner⟩ := w.innerTail.stringFrom strict quotes start (n + 1) acc faults
        (Nat.lt_succ_self w.line) (Nat.le_of_lt w.lt_size) enough
      obtain ⟨value',raw',outer⟩ := w.outerTail.stringFrom strict quotes start (n + 1) acc faults
        (Nat.lt_succ_self w.line) (w.size ▸ Nat.le_of_lt w.lt_size) (w.size ▸ enough)
      rw [inner,outer]
      exact ⟨rfl,w.size,rfl,Nat.le_of_lt w.lt_size,fun none => by simp at none⟩
    have before := Nat.le_of_lt_succ before
    have raw := textBetween_same (w := w) pos (Nat.le_succ_of_le inside)
    have raw' := textBetween_same (w := w) pos (Nat.succ_le_succ inside)
    unfold Token.stringFrom
    rw [w.same i here inside]
    cases found : w.inner[i]? with
    | none =>
      simp only [raw]
      exact .of_eq rfl (Nat.le_refl i) inside
    | some c =>
      simp only [raw,raw']
      split
      · exact .of_eq rfl (Nat.le_succ i) (Nat.succ_le_succ before)
      split
      · exact .of_eq rfl (Nat.le_refl i) inside
      next goes =>
      have before := lt_line before found (by rintro rfl; simp at goes)
      split
      · obtain ⟨same,stops⟩ := scanEscape_same (w := w) (Nat.succ_pos i) before false
        have starts := Token.scanEscape_from w.inner (i + 1) false
        rw [same]
        cases escape : Token.scanEscape w.inner (i + 1) false with
        | chars cs stop =>
          rw [escape] at stops starts
          exact (stringFrom_agree quotes pos (Nat.lt_of_lt_of_le (Nat.succ_pos i) starts) stops
            (by have : i + 1 ≤ stop := starts; omega)).mono (Nat.le_of_succ_le starts)
        | legacy cs stop complaint =>
          rw [escape] at stops starts
          exact (stringFrom_agree quotes pos (Nat.lt_of_lt_of_le (Nat.succ_pos i) starts) stops
            (by have : i + 1 ≤ stop := starts; omega)).mono (Nat.le_of_succ_le starts)
        | refused complaint => exact .of_eq rfl (Nat.le_refl i) inside
      · exact (stringFrom_agree quotes pos (Nat.succ_pos i) (Nat.le_succ_of_le before) (by omega)).mono (Nat.le_succ i)

/-! ### Numbers -/

theorem digitsFrom_same (radix : Nat) {start : Nat} (pos : 0 < start) : ∀ (n : Nat) {i : Nat} (acc : List Char)
    (faults : List Fault), start ≤ i → i ≤ w.line + 1 →
      Token.digitsFrom w.outer radix start n i acc faults = Token.digitsFrom w.inner radix start n i acc faults ∧
        i ≤ (Token.digitsFrom w.inner radix start n i acc faults).2.1 ∧
        (Token.digitsFrom w.inner radix start n i acc faults).2.1 ≤ w.line + 1
  | 0, i, _, _, _, inside => ⟨rfl,Nat.le_refl i,inside⟩
  | n + 1, i, acc, faults, behind, inside => by
    have here := Nat.lt_of_lt_of_le pos behind
    unfold Token.digitsFrom
    rw [w.same i here inside]
    cases found : w.inner[i]? with
    | none => exact ⟨rfl,Nat.le_refl i,inside⟩
    | some c =>
      simp only
      split
      · next separates =>
        have before := le_line inside found (by rw [separates]; decide)
        have digit : (decide (i > start) && Token.isDigitOf radix (Token.charAt w.outer (i - 1))) =
            (decide (i > start) && Token.isDigitOf radix (Token.charAt w.inner (i - 1))) := by
          by_cases further : i > start
          · rw [charAt_same (by omega) (by omega)]
          · simp [further]
        rw [digit,charAt_same (Nat.succ_pos i) (Nat.succ_le_succ before)]
        obtain ⟨same,low,high⟩ := digitsFrom_same radix pos n acc _ (Nat.le_succ_of_le behind)
          (Nat.succ_le_succ before)
        exact ⟨same,Nat.le_of_succ_le low,high⟩
      split
      · next goes =>
        have before := le_line inside found (by rintro rfl; simp [Token.isDigitOf,Token.digitValue] at goes)
        obtain ⟨same,low,high⟩ := digitsFrom_same radix pos n (c :: acc) faults (Nat.le_succ_of_le behind)
          (Nat.succ_le_succ before)
        exact ⟨same,Nat.le_of_succ_le low,high⟩
      · exact ⟨rfl,Nat.le_refl i,inside⟩

theorem endNumber_agree {i : Nat} {s : Token.Scanned} (pos : 0 < i) (low : i ≤ s.stop) (high : s.stop ≤ w.line + 1) :
    w.Agree i (Token.endNumber w.outer s) (Token.endNumber w.inner s) := by
  unfold Token.endNumber
  rw [w.same s.stop (Nat.lt_of_lt_of_le pos low) high]
  split
  · split
    · exact .of_eq rfl low high
    · exact .of_eq rfl low high
  · exact .of_eq rfl low high

theorem radixNumber_agree {radix start i : Nat} (pos : 0 < start) (behind : start ≤ i) (inside : i ≤ w.line + 1) :
    w.Agree i (Token.radixNumber w.outer radix start i) (Token.radixNumber w.inner radix start i) := by
  have here := Nat.lt_of_lt_of_le pos behind
  obtain ⟨same,low,high⟩ := digitsFrom_same (w := w) radix here w.inner.size [] [] (Nat.le_refl i) inside
  unfold Token.radixNumber
  rw [w.size,same]
  generalize Token.digitsFrom w.inner radix i w.inner.size i [] [] = read at low high ⊢
  obtain ⟨digits,stop,faults⟩ := read
  simp only at low high ⊢
  rw [w.same stop (Nat.lt_of_lt_of_le here low) high,textBetween_same pos (Nat.le_succ_of_le high),
    textBetween_same pos (Nat.succ_le_succ high)]
  split
  · exact .of_eq rfl low high
  split
  · next big =>
    have before := le_line high big (by decide)
    exact endNumber_agree here (Nat.le_succ_of_le low) (Nat.succ_le_succ before)
  · exact endNumber_agree here low high

theorem withExponent_agree {start i : Nat} {digits : List Char} {scale : Int} {faults : List Fault} (pos : 0 < start)
    (behind : start ≤ i) (inside : i ≤ w.line + 1) :
    w.Agree i (Token.withExponent w.outer start i digits scale faults)
      (Token.withExponent w.inner start i digits scale faults) := by
  have here := Nat.lt_of_lt_of_le pos behind
  unfold Token.withExponent
  rw [w.same i here inside,textBetween_same pos (Nat.le_succ_of_le inside),w.size]
  split
  · next letter =>
    have before : i ≤ w.line := by
      rcases Bool.or_eq_true _ _ ▸ letter with found | found
      · exact le_line inside (of_decide_eq_true found) (by decide)
      · exact le_line inside (of_decide_eq_true found) (by decide)
    rw [w.same (i + 1) (Nat.succ_pos i) (Nat.succ_le_succ before)]
    cases found : w.inner[i + 1]? with
    | none => exact .of_eq rfl (Nat.le_succ i) (Nat.succ_le_succ before)
    | some c =>
      simp only
      have first : (if (decide (c = '+') || decide (c = '-')) = true then i + 2 else i + 1) ≤ w.line + 1 := by
        split
        · next signed =>
          have : i + 1 ≤ w.line := le_line (Nat.succ_le_succ before) found (by rintro rfl; simp at signed)
          omega
        · exact Nat.succ_le_succ before
      have behind : i + 1 ≤ (if (decide (c = '+') || decide (c = '-')) = true then i + 2 else i + 1) := by
        split <;> omega
      generalize (if (decide (c = '+') || decide (c = '-')) = true then i + 2 else i + 1) = place at first behind ⊢
      obtain ⟨same,low,high⟩ := digitsFrom_same (w := w) 10 (Nat.lt_of_lt_of_le (Nat.succ_pos i) behind)
        w.inner.size [] [] (Nat.le_refl place) first
      rw [same]
      generalize Token.digitsFrom w.inner 10 place w.inner.size place [] [] = read at low high ⊢
      obtain ⟨exponent,stop,more⟩ := read
      simp only at low high ⊢
      rw [textBetween_same pos (Nat.le_succ_of_le high)]
      split
      · exact .of_eq rfl (by simp only; omega) high
      · exact endNumber_agree here (by simp only; omega) high
  · exact endNumber_agree here (Nat.le_refl i) inside

theorem withFraction_agree {start i : Nat} {digits : List Char} {faults : List Fault} (pos : 0 < start)
    (behind : start ≤ i) (inside : i ≤ w.line + 1) :
    w.Agree i (Token.withFraction w.outer start i digits faults) (Token.withFraction w.inner start i digits faults) := by
  have here := Nat.lt_of_lt_of_le pos behind
  unfold Token.withFraction
  rw [w.same i here inside,w.size]
  split
  · next point =>
    have before := le_line inside point (by decide)
    obtain ⟨same,low,high⟩ := digitsFrom_same (w := w) 10 (Nat.succ_pos i) w.inner.size [] []
      (Nat.le_refl (i + 1)) (Nat.succ_le_succ before)
    rw [same]
    generalize Token.digitsFrom w.inner 10 (i + 1) w.inner.size (i + 1) [] [] = read at low high ⊢
    obtain ⟨fraction,stop,more⟩ := read
    simp only at low high ⊢
    exact (withExponent_agree pos (by omega) high).mono (Nat.le_of_succ_le low)
  · exact withExponent_agree pos behind inside

theorem scanNumber_agree {strict typed : Bool} {i : Nat} (pos : 0 < i) (inside : i ≤ w.line) :
    w.Agree i (Token.scanNumber w.outer strict typed i) (Token.scanNumber w.inner strict typed i) := by
  have low := Nat.le_succ_of_le inside
  unfold Token.scanNumber
  rw [charAt_same pos low,charAt_same (Nat.succ_pos i) (Nat.succ_le_succ inside),w.size]
  -- The letter behind a zero stands in front of the brace.
  have letter : ∀ c, Token.charAt w.inner (i + 1) = c → c ≠ '\x00' → c ≠ '\x7d' → i + 2 ≤ w.line + 1 := by
    rintro c rfl some other
    unfold Token.charAt at some other
    cases found : w.inner[i + 1]? with
    | none => simp [found] at some
    | some c =>
      have : i + 1 ≤ w.line := le_line (Nat.succ_le_succ inside) found (by simpa [found] using other)
      omega
  simp only
  split
  · next prefixed =>
    obtain ⟨-,x⟩ : _ ∧ _ := by simpa using prefixed
    exact (radixNumber_agree pos (Nat.le_add_right i 2)
      (x.elim (letter _ · (by decide) (by decide)) (letter _ · (by decide) (by decide)))).mono (Nat.le_add_right i 2)
  split
  · next prefixed =>
    obtain ⟨-,o⟩ : _ ∧ _ := by simpa using prefixed
    exact (radixNumber_agree pos (Nat.le_add_right i 2)
      (o.elim (letter _ · (by decide) (by decide)) (letter _ · (by decide) (by decide)))).mono (Nat.le_add_right i 2)
  split
  · next prefixed =>
    obtain ⟨-,b⟩ : _ ∧ _ := by simpa using prefixed
    exact (radixNumber_agree pos (Nat.le_add_right i 2)
      (b.elim (letter _ · (by decide) (by decide)) (letter _ · (by decide) (by decide)))).mono (Nat.le_add_right i 2)
  split
  · exact withFraction_agree pos (Nat.le_refl i) low
  obtain ⟨same,starts,stops⟩ := digitsFrom_same (w := w) 10 pos w.inner.size [] [] (Nat.le_refl i) low
  rw [same]
  generalize Token.digitsFrom w.inner 10 i w.inner.size i [] [] = read at starts stops ⊢
  obtain ⟨digits,stop,faults⟩ := read
  simp only at starts stops ⊢
  rw [w.same stop (Nat.lt_of_lt_of_le pos starts) stops,textBetween_same pos (Nat.le_succ_of_le stops),
    textBetween_same pos (Nat.succ_le_succ stops)]
  split
  · split
    · exact endNumber_agree pos starts stops
    · exact (withFraction_agree pos starts stops).mono starts
  split
  · next big =>
    have before := le_line stops big (by decide)
    exact endNumber_agree pos (Nat.le_succ_of_le starts) (Nat.succ_le_succ before)
  · exact (withFraction_agree pos starts stops).mono starts

/-! ### Words and signs -/

theorem wordFrom_same : ∀ (n : Nat) {i : Nat} (acc : List Char) (escaped : Bool), 0 < i → i ≤ w.line + 1 →
    Token.wordFrom w.outer n i acc escaped = Token.wordFrom w.inner n i acc escaped ∧
      ∀ r, Token.wordFrom w.inner n i acc escaped = some r → i ≤ r.2.1 ∧ r.2.1 ≤ w.line + 1
  | 0, i, _, _, _, inside => ⟨rfl,fun r found => by cases found; exact ⟨Nat.le_refl i,inside⟩⟩
  | n + 1, i, acc, escaped, pos, inside => by
    have ended : ∀ r, some (acc.reverse,i,escaped) = some r → i ≤ r.2.1 ∧ r.2.1 ≤ w.line + 1 := by
      rintro r ⟨⟩
      exact ⟨Nat.le_refl i,inside⟩
    unfold Token.wordFrom
    rw [w.same i pos inside]
    cases found : w.inner[i]? with
    | none => exact ⟨rfl,ended⟩
    | some c =>
      simp only
      split
      · next slash =>
        have before := lt_line (le_line inside found (by rw [slash]; decide)) found (by rw [slash]; decide)
        rw [w.same (i + 1) (Nat.succ_pos i) (Nat.le_succ_of_le before)]
        split
        · next letter =>
          have behind := lt_line before letter (by decide)
          obtain ⟨same,stops⟩ := unicodeEscape_same (w := w) (Nat.succ_pos (i + 1)) behind
          rw [same]
          cases point : Token.unicodeEscape w.inner (i + 2) with
          | none => exact ⟨rfl,by simp⟩
          | some r =>
            obtain ⟨p,stop⟩ := r
            have starts := Token.unicodeEscape_ge point
            have stops := stops p stop point
            obtain ⟨same,ends⟩ := wordFrom_same n (Char.ofNat p :: acc) true (by omega : 0 < stop)
              (Nat.le_succ_of_le stops)
            simp only
            rw [same]
            refine ⟨rfl,fun r found => ?_⟩
            obtain ⟨low,high⟩ := ends r (Option.ite_none_right_eq_some.mp found).2
            exact ⟨by omega,high⟩
        · exact ⟨rfl,by simp⟩
      · by_cases goes : (if acc.isEmpty then Text.isIdentStart c else Text.isIdentPart c) = true
        · have before := le_line inside found (by
            rintro rfl
            split at goes <;> exact absurd goes (by decide))
          obtain ⟨same,ends⟩ := wordFrom_same n (c :: acc) escaped (Nat.succ_pos i)
            (Nat.succ_le_succ before)
          simp only [if_pos goes]
          exact ⟨same,fun r found => ⟨Nat.le_of_succ_le (ends r found).1,(ends r found).2⟩⟩
        · simp only [if_neg goes]
          exact ⟨trivial,ended⟩

theorem longSigns_plain (s : String) (member : s ∈ Token.longSigns) :
    '\n' ∉ s.toList ∧ (∀ c ∈ loneSigns, c ∉ s.toList) ∧ s.toList ≠ [] := by
  have each : ∀ s ∈ Token.longSigns, '\n' ∉ s.toList ∧ loneSigns.all (fun c => decide (c ∉ s.toList)) = true ∧
      s.toList ≠ [] := by decide
  obtain ⟨onLine,apart,filled⟩ := each s member
  exact ⟨onLine,forall_loneSigns apart,filled⟩

end Twins

namespace Token

theorem scanSign_ge (text : Array Char) (i : Nat) : i ≤ (scanSign text i).stop := by
  unfold scanSign
  dsimp only
  split
  · exact Nat.le_add_right i _
  · split <;> exact Nat.le_succ i

theorem scanSign_lone {text : Array Char} {i : Nat} {c : Char} (found : text[i]? = some c)
    (lone : c ∈ Twins.loneSigns) : scanSign text i = ⟨.sign c.toString,i + 1,[]⟩ := by
  have none : longSigns.find? (fun s => startsAt text i s.toList &&
      !(s = "?." && (text[i + 2]?).any Char.isDigit)) = none := by
    rw [List.find?_eq_none]
    intro s member fits
    obtain ⟨-,apart,filled⟩ := Twins.longSigns_plain s member
    have there := startsAt_iff.mp (Bool.and_eq_true _ _ ▸ fits).1 0 (List.length_pos_iff.mpr filled)
    rw [Nat.add_zero,found] at there
    exact apart c lone (Option.some.inj there ▸ List.getElem_mem _)
  have short : ∀ c ∈ Twins.loneSigns, shortSigns.contains c = true := Twins.forall_loneSigns (by decide)
  unfold scanSign
  simp only [none,charAt,found,Option.getD_some,short c lone,if_true]

/-- A lone sign is a token of its own. -/
theorem scanAt_lone {text : Array Char} {strict typed : Bool} {i : Nat} {c : Char} (found : text[i]? = some c)
    (lone : c ∈ Twins.loneSigns) : scanAt text strict typed i = ⟨.sign c.toString,i + 1,[]⟩ := by
  have other : ∀ c ∈ Twins.loneSigns, Text.isIdentStart c = false ∧ c.isDigit = false ∧
      c ∉ ['\\','.','"','\'','\x60','#'] := Twins.forall_loneSigns (by decide)
  obtain ⟨ident,digit,apart⟩ := other c lone
  simp only [List.mem_cons,List.not_mem_nil,or_false,not_or] at apart
  unfold scanAt
  rw [found]
  simp [ident,digit,apart,scanSign_lone found lone]

end Token

namespace Twins

variable {w : Twins}

theorem scanSign_agree {i : Nat} (pos : 0 < i) (inside : i ≤ w.line + 1) :
    w.Agree i (Token.scanSign w.outer i) (Token.scanSign w.inner i) := by
  rcases Nat.lt_or_eq_of_le inside with before | rfl
  rotate_left
  · rw [Token.scanSign_lone w.braced (by decide),
      Token.scanSign_lone ((w.same _ pos inside).trans w.braced) (by decide)]
    exact ⟨rfl,rfl,rfl,Nat.le_succ _,fun _ => ⟨rfl,.inr ⟨rfl,rfl⟩⟩⟩
  have before := Nat.le_of_lt_succ before
  have fits : ∀ s ∈ Token.longSigns,
      (Token.startsAt w.outer i s.toList && !(s = "?." && (w.outer[i + 2]?).any Char.isDigit)) =
        (Token.startsAt w.inner i s.toList && !(s = "?." && (w.inner[i + 2]?).any Char.isDigit)) := by
    intro s member
    have plain := (longSigns_plain s member).1
    rw [startsAt_same pos before plain]
    by_cases starts : Token.startsAt w.inner i s.toList = true
    · by_cases dotted : s = "?."
      · have high : i + s.toList.length ≤ w.line := Token.startsAt_le w.breaks before plain starts
        rw [dotted] at high
        rw [w.same (i + 2) (by omega) (Nat.le_succ_of_le high)]
      · simp [dotted]
    · simp [starts]
  have same : Token.scanSign w.outer i = Token.scanSign w.inner i := by
    unfold Token.scanSign
    simp only
    rw [charAt_same pos inside,List.find?_congr fits]
  refine .of_eq same (Token.scanSign_ge w.inner i) ?_
  unfold Token.scanSign
  dsimp only
  split
  · next s found =>
    have starts := (Bool.and_eq_true _ _ ▸ List.find?_some found).1
    have plain := (longSigns_plain s (List.mem_of_find?_eq_some found)).1
    have high : i + s.toList.length ≤ w.line := Token.startsAt_le w.breaks before plain starts
    have : s.length = s.toList.length := s.length_toList.symm
    simp only
    omega
  · split <;> exact Nat.succ_le_succ before

/-! ### Tokens -/

theorem scanAt_agree (strict typed : Bool) {i : Nat} (pos : 0 < i) (inside : i ≤ w.line + 1) :
    w.Agree i (Token.scanAt w.outer strict typed i) (Token.scanAt w.inner strict typed i) := by
  rcases Nat.lt_or_eq_of_le inside with before | rfl
  rotate_left
  · rw [Token.scanAt_lone w.braced (by decide),
      Token.scanAt_lone ((w.same _ pos inside).trans w.braced) (by decide)]
    exact ⟨rfl,rfl,rfl,Nat.le_succ _,fun _ => ⟨rfl,.inr ⟨rfl,rfl⟩⟩⟩
  have before := Nat.le_of_lt_succ before
  have behind := Nat.succ_le_succ before
  unfold Token.scanAt
  rw [w.same i pos inside,w.same (i + 1) (Nat.succ_pos i) behind,w.size]
  cases found : w.inner[i]? with
  | none => exact .of_eq rfl (Nat.le_refl i) inside
  | some c =>
    simp only
    split
    · obtain ⟨same,ends⟩ := wordFrom_same (w := w) w.inner.size [] false pos inside
      rw [same]
      cases word : Token.wordFrom w.inner w.inner.size i [] false with
      | none => exact .of_eq rfl (Nat.le_succ i) behind
      | some r => exact .of_eq rfl (ends r word).1 (ends r word).2
    split
    · exact scanNumber_agree pos before
    split
    · next quotes =>
      exact (stringFrom_agree (by simpa using quotes) pos (Nat.succ_pos i) behind (by omega)).mono (Nat.le_succ i)
    split
    · exact .of_eq rfl (Nat.le_succ i) behind
    split
    · next name =>
      obtain ⟨same,ends⟩ := wordFrom_same (w := w) w.inner.size [] false (Nat.succ_pos i) behind
      rw [same]
      cases word : Token.wordFrom w.inner w.inner.size (i + 1) [] false with
      | none =>
        obtain ⟨d,first,starts⟩ := Option.any_eq_true _ _ |>.mp (Bool.and_eq_true _ _ ▸ name).2
        have : i + 1 ≤ w.line := le_line behind first (by rintro rfl; exact absurd starts (by decide))
        exact .of_eq rfl (Nat.le_add_right i 2) (Nat.succ_le_succ this)
      | some r =>
        have ends := ends r word
        exact .of_eq rfl (Nat.le_of_succ_le ends.1) ends.2
    · exact scanSign_agree pos inside

end Twins

/-! ### The end of a text -/

namespace Token

section
variable {text : Array Char}

theorem endNumber_solid {s : Scanned} (solid : s.tok ≠ .eof) : (endNumber text s).tok ≠ .eof := by
  unfold endNumber
  split
  · split
    · nofun
    · exact solid
  · exact solid

theorem radixNumber_solid (radix start i : Nat) : (radixNumber text radix start i).tok ≠ .eof := by
  unfold radixNumber
  dsimp only
  split
  · nofun
  split
  all_goals
    refine endNumber_solid ?_
    nofun

theorem withExponent_solid (start i : Nat) (digits : List Char) (scale : Int) (faults : List Fault) :
    (withExponent text start i digits scale faults).tok ≠ .eof := by
  unfold withExponent
  split
  · split
    · nofun
    · dsimp only
      generalize digitsFrom _ _ _ _ _ _ _ = digits
      split
      · nofun
      · refine endNumber_solid ?_
        nofun
  · refine endNumber_solid ?_
    nofun

theorem withFraction_solid (start i : Nat) (digits : List Char) (faults : List Fault) :
    (withFraction text start i digits faults).tok ≠ .eof := by
  unfold withFraction
  split
  all_goals apply withExponent_solid

theorem scanNumber_solid (strict typed : Bool) (i : Nat) : (scanNumber text strict typed i).tok ≠ .eof := by
  unfold scanNumber
  dsimp only
  generalize digitsFrom _ _ _ _ _ _ _ = digits
  split
  · apply radixNumber_solid
  split
  · apply radixNumber_solid
  split
  · apply radixNumber_solid
  split
  · apply withFraction_solid
  split
  · split
    · refine endNumber_solid ?_
      nofun
    · apply withFraction_solid
  split
  · refine endNumber_solid ?_
    nofun
  · apply withFraction_solid

theorem stringFrom_solid (strict : Bool) (quote : Char) (start : Nat) : ∀ (n i : Nat) (acc : List Char) (faults : List Fault),
    (stringFrom text strict quote start n i acc faults).tok ≠ .eof
  | 0, _, _, _ => by
    unfold stringFrom
    nofun
  | n + 1, i, acc, faults => by
    unfold stringFrom
    dsimp only
    split
    · nofun
    · split
      · nofun
      split
      · nofun
      split
      · split
        · apply stringFrom_solid strict quote start n
        · apply stringFrom_solid strict quote start n
        · nofun
      · apply stringFrom_solid strict quote start n

theorem scanSign_solid (i : Nat) : (scanSign text i).tok ≠ .eof := by
  unfold scanSign
  dsimp only
  split
  · nofun
  · split <;> nofun

/-- Where no character is left the text ends. -/
theorem scan_end {strict typed : Bool} {i : Nat} (behind : text.size ≤ i) :
    Token.scan text strict typed i = (⟨.eof,i,i,false⟩,[]) := by
  have none : text[i]? = none := Array.getElem?_eq_none behind
  have blanks : skipBlanks text (text.size + 1) i false = (i,false,[]) := by
    unfold skipBlanks
    rw [none]
  unfold Token.scan
  rw [blanks]
  dsimp only
  unfold scanAt
  rw [none]
  rfl

/-- A text ends only where no character is left. -/
theorem scanAt_eof {strict typed : Bool} {i : Nat} (ends : (scanAt text strict typed i).tok = .eof) : text[i]? = none := by
  cases found : text[i]? with
  | none => rfl
  | some c =>
    refine absurd ends ?_
    unfold scanAt
    rw [found]
    dsimp only
    split
    · split <;> nofun
    split
    · apply scanNumber_solid
    split
    · apply stringFrom_solid
    split
    · nofun
    split
    · split <;> nofun
    · apply scanSign_solid

end

end Token

namespace Twins

variable {w : Twins}

/-- The token behind a place up to the brace is the same in both texts, but for the text of a string that is never
closed. -/
structure SameToken (w : Twins) (outer inner : Token × List Fault) : Prop where
  kind : outer.1.kind.blur = inner.1.kind.blur
  start : outer.1.start = inner.1.start
  stop : outer.1.stop = inner.1.stop
  newline : outer.1.newline = inner.1.newline
  faults : outer.2 = inner.2
  clean : inner.2 = [] → outer = inner ∧ inner.1.start ≤ w.line + 1 ∧ w.Stops inner.1.kind inner.1.stop

theorem scan_same (strict typed : Bool) {i : Nat} (pos : 0 < i) (inside : i ≤ w.line + 1) :
    w.SameToken (Token.scan w.outer strict typed i) (Token.scan w.inner strict typed i) := by
  obtain ⟨same,ends⟩ := skipBlanks_same (w := w) (w.inner.size + 1) false pos inside
  have low : i ≤ (Token.skipBlanks w.inner (w.inner.size + 1) i false).1 := Token.skipBlanks_ge
  unfold Token.scan
  rw [w.size,same]
  generalize Token.skipBlanks w.inner (w.inner.size + 1) i false = blanks at ends low ⊢
  obtain ⟨start,broken,faults⟩ := blanks
  simp only at ends low ⊢
  rcases ends with high | ⟨whole,open_⟩
  · have agree := scanAt_agree (w := w) strict typed (Nat.lt_of_lt_of_le pos low) high
    refine ⟨agree.tok,rfl,agree.stop,rfl,by rw [agree.faults],fun none => ?_⟩
    obtain ⟨rfl,none⟩ := List.append_eq_nil_iff.mp none
    obtain ⟨same,stops⟩ := agree.clean none
    exact ⟨by rw [same],high,stops⟩
  · -- The comment ends both texts, and nothing stands behind it.
    simp only at whole open_
    subst whole
    have inner : Token.scanAt w.inner strict typed w.inner.size = ⟨.eof,w.inner.size,[]⟩ := by
      unfold Token.scanAt
      rw [Array.getElem?_eq_none (Nat.le_refl _)]
    have outer : Token.scanAt w.outer strict typed w.inner.size = ⟨.eof,w.inner.size,[]⟩ := by
      unfold Token.scanAt
      rw [Array.getElem?_eq_none (Nat.le_of_eq w.size)]
    rw [inner,outer]
    exact ⟨rfl,rfl,rfl,rfl,rfl,fun none => absurd (List.append_eq_nil_iff.mp none).1 open_⟩

end Twins

namespace Token

/-- Tokens behind the break stop where they start or behind. -/
theorem Tail.scanAt_ge {text : Array Char} {line : Nat} (tail : Tail text line) {strict typed : Bool} {i : Nat}
    (behind : line < i) : i ≤ (scanAt text strict typed i).stop := by
  unfold scanAt
  cases found : text[i]? with
  | none => exact Nat.le_refl i
  | some c =>
    have sign := scanSign_ge text i
    rcases tail i c behind found with rfl | rfl | rfl
    · simpa [show Text.isIdentStart '\x7d' = false by decide] using sign
    · simpa [show Text.isIdentStart ')' = false by decide] using sign
    · simpa [show Text.isIdentStart ' ' = false by decide] using sign

/-- Behind the break no regular expression ends. -/
theorem Tail.regexEnd {text : Array Char} {line : Nat} (tail : Tail text line) : ∀ (n : Nat) {i : Nat} (inClass : Bool),
    line < i → Token.regexEnd text n i inClass = none
  | 0, _, _, _ => rfl
  | n + 1, i, inClass, behind => by
    unfold Token.regexEnd
    cases found : text[i]? with
    | none => rfl
    | some c =>
      have later := tail.regexEnd n inClass (Nat.lt_succ_of_lt behind)
      simp only
      rcases tail i c behind found with rfl | rfl | rfl <;> simpa [isLineBreak] using later

/-- Behind the break no piece of a template ends. -/
theorem Tail.chunkFrom {text : Array Char} {line : Nat} (tail : Tail text line) : ∀ (n : Nat) {i : Nat} (raw : List Char)
    (cooked : Option (List Char)), line < i → Token.chunkFrom text n i raw cooked = none
  | 0, _, _, _, _ => rfl
  | n + 1, i, raw, cooked, behind => by
    unfold Token.chunkFrom
    cases found : text[i]? with
    | none => rfl
    | some c =>
      have later := tail.chunkFrom n (c :: raw) (cooked.map (c :: ·)) (Nat.lt_succ_of_lt behind)
      simp only
      rcases tail i c behind found with rfl | rfl | rfl <;> simpa using later

end Token

namespace Twins

variable {w : Twins}

/-- Tokens start where they are looked for or behind, and stop there or behind. -/
theorem scan_ordered (strict typed : Bool) {i : Nat} (pos : 0 < i) :
    i ≤ (Token.scan w.inner strict typed i).1.start ∧
      (Token.scan w.inner strict typed i).1.start ≤ (Token.scan w.inner strict typed i).1.stop := by
  have low : i ≤ (Token.skipBlanks w.inner (w.inner.size + 1) i false).1 := Token.skipBlanks_ge
  refine ⟨low,?_⟩
  show (Token.skipBlanks w.inner (w.inner.size + 1) i false).1 ≤ (Token.scanAt w.inner strict typed _).stop
  rcases Nat.lt_or_ge w.line (Token.skipBlanks w.inner (w.inner.size + 1) i false).1 with behind | before
  · exact w.innerTail.scanAt_ge behind
  · exact (scanAt_agree strict typed (Nat.lt_of_lt_of_le pos low) (Nat.le_succ_of_le before)).from_

/-- Behind the brace a blank ends the first text. -/
theorem scan_innerEnd (strict typed : Bool) :
    Token.scan w.inner strict typed (w.line + 2) = (⟨.eof,w.line + 3,w.line + 3,false⟩,[]) := by
  have blanks : Token.skipBlanks w.inner (w.inner.size + 1) (w.line + 2) false = (w.line + 3,false,[]) := by
    have ends : w.inner[w.line + 3]? = none := Array.getElem?_eq_none (Nat.le_of_eq w.innerSize)
    rw [w.innerSize]
    unfold Token.skipBlanks
    rw [w.innerEnd]
    simp only [show Token.isSpace ' ' = true by decide,if_true]
    unfold Token.skipBlanks
    rw [ends]
  have none : Token.scanAt w.inner strict typed (w.line + 3) = ⟨.eof,w.line + 3,[]⟩ := by
    unfold Token.scanAt
    rw [Array.getElem?_eq_none (Nat.le_of_eq w.innerSize)]
  unfold Token.scan
  rw [blanks]
  simp only
  rw [none]
  rfl

/-- Behind the brace the first text is at its end. -/
theorem scan_late {strict typed : Bool} {place : Nat} (behind : w.line + 1 < place) :
    (Token.scan w.inner strict typed place).1.kind = .eof := by
  rcases Nat.eq_or_lt_of_le (Nat.succ_le_of_lt behind) with here | further
  · rw [← here,scan_innerEnd]
  · rw [Token.scan_end (w.innerSize ▸ further)]

/-- The end of the first text is nowhere else. -/
theorem scan_eof {strict typed : Bool} {place : Nat} (ends : (Token.scan w.inner strict typed place).1.kind = .eof) :
    w.line + 1 < (Token.scan w.inner strict typed place).1.start := by
  have none : w.inner.size ≤ (Token.scan w.inner strict typed place).1.start :=
    Array.getElem?_eq_none_iff.mp (Token.scanAt_eof ends)
  have size := w.innerSize
  omega

theorem regexEnd_same : ∀ (n : Nat) {i : Nat} (inClass : Bool), 0 < i →
    Token.regexEnd w.outer n i inClass = Token.regexEnd w.inner n i inClass ∧
      ∀ slash, Token.regexEnd w.inner n i inClass = some slash → i ≤ slash ∧ slash < w.line
  | 0, _, _, _ => ⟨rfl,by simp [Token.regexEnd]⟩
  | n + 1, i, inClass, pos => by
    by_cases behind : w.line < i
    · rw [w.innerTail.regexEnd _ _ behind,w.outerTail.regexEnd _ _ behind]
      exact ⟨rfl,by simp⟩
    have inside := Nat.not_lt.mp behind
    have next : ∀ j inClass, i ≤ j → Token.regexEnd w.outer n j inClass = Token.regexEnd w.inner n j inClass ∧
        ∀ slash, Token.regexEnd w.inner n j inClass = some slash → i ≤ slash ∧ slash < w.line := by
      intro j inClass later
      obtain ⟨same,ends⟩ := regexEnd_same n inClass (Nat.lt_of_lt_of_le pos later)
      exact ⟨same,fun slash found => ⟨Nat.le_trans later (ends slash found).1,(ends slash found).2⟩⟩
    unfold Token.regexEnd
    rw [w.same i pos (Nat.le_succ_of_le inside),w.same (i + 1) (Nat.succ_pos i) (Nat.succ_le_succ inside)]
    cases found : w.inner[i]? with
    | none => exact ⟨rfl,by simp⟩
    | some c =>
      simp only
      split
      · exact ⟨rfl,by simp⟩
      next goes =>
      have before := lt_line inside found (by rintro rfl; exact goes (by decide))
      split
      · split
        · exact ⟨rfl,by simp⟩
        · exact next _ _ (Nat.le_add_right i 2)
      split
      · exact next _ _ (Nat.le_succ i)
      split
      · exact next _ _ (Nat.le_succ i)
      split
      · exact ⟨rfl,fun slash found => by cases found; exact ⟨Nat.le_refl i,before⟩⟩
      · exact next _ _ (Nat.le_succ i)

theorem scanRegex_same (start : Nat) :
    Token.scanRegex w.outer start = Token.scanRegex w.inner start ∧
      ∀ r, Token.scanRegex w.inner start = some r → start ≤ r.2.2 := by
  obtain ⟨same,ends⟩ := regexEnd_same (w := w) w.inner.size false (Nat.succ_pos start)
  unfold Token.scanRegex
  rw [w.size,same]
  cases found : Token.regexEnd w.inner w.inner.size (start + 1) false with
  | none => exact ⟨rfl,by simp⟩
  | some slash =>
    obtain ⟨low,high⟩ := ends slash found
    obtain ⟨flags,stops⟩ := skipWhile_line (w := w) Text.isIdentPart (by decide) w.inner.size
      (Nat.succ_pos slash) high
    have starts : slash + 1 ≤ Token.skipWhile w.inner Text.isIdentPart w.inner.size (slash + 1) := Token.skipWhile_ge
    simp only
    rw [flags,textBetween_same (Nat.succ_pos start) (by omega),textBetween_same (Nat.succ_pos slash) (by omega)]
    refine ⟨rfl,fun r same => ?_⟩
    cases same
    simp only
    omega

theorem chunkFrom_same : ∀ (n : Nat) {i : Nat} (raw : List Char) (cooked : Option (List Char)), 0 < i →
    Token.chunkFrom w.outer n i raw cooked = Token.chunkFrom w.inner n i raw cooked ∧
      ∀ r, Token.chunkFrom w.inner n i raw cooked = some r → i ≤ r.2.2
  | 0, _, _, _, _ => ⟨rfl,by simp [Token.chunkFrom]⟩
  | n + 1, i, raw, cooked, pos => by
    by_cases behind : w.line < i
    · rw [w.innerTail.chunkFrom _ _ _ behind,w.outerTail.chunkFrom _ _ _ behind]
      exact ⟨rfl,by simp⟩
    have inside := Nat.not_lt.mp behind
    have next : ∀ j raw cooked, i ≤ j →
        Token.chunkFrom w.outer n j raw cooked = Token.chunkFrom w.inner n j raw cooked ∧
          ∀ r, Token.chunkFrom w.inner n j raw cooked = some r → i ≤ r.2.2 := by
      intro j raw cooked later
      obtain ⟨same,ends⟩ := chunkFrom_same n raw cooked (Nat.lt_of_lt_of_le pos later)
      exact ⟨same,fun r found => Nat.le_trans later (ends r found)⟩
    unfold Token.chunkFrom
    rw [w.same i pos (Nat.le_succ_of_le inside),w.same (i + 1) (Nat.succ_pos i) (Nat.succ_le_succ inside)]
    cases found : w.inner[i]? with
    | none => exact ⟨rfl,by simp⟩
    | some c =>
      simp only
      split
      · exact ⟨rfl,fun r found => by cases found; exact Nat.le_succ i⟩
      split
      · exact ⟨rfl,fun r found => by cases found; exact Nat.le_add_right i 2⟩
      split
      · next slash =>
        have before := lt_line inside found (by rw [slash]; decide)
        obtain ⟨same,stops⟩ := scanEscape_same (w := w) (Nat.succ_pos i) before true
        have starts := Token.scanEscape_from w.inner (i + 1) true
        rw [same,extract_same (b := i + 2) pos (by omega)]
        cases escape : Token.scanEscape w.inner (i + 1) true with
        | chars cs stop =>
          rw [escape] at stops starts
          have place : (if stop = i + 1 then i + 1 else stop) = stop := by
            split
            · next first => exact first.symm
            · rfl
          simp only
          rw [place,extract_same pos (Nat.le_succ_of_le stops)]
          exact next _ _ _ (Nat.le_of_succ_le starts)
        | legacy cs stop complaint => exact next _ _ _ (Nat.le_add_right i 2)
        | refused complaint => exact next _ _ _ (Nat.le_add_right i 2)
      split
      · exact next _ _ _ (by split <;> omega)
      · exact next _ _ _ (Nat.le_succ i)

theorem scanChunk_same {i : Nat} (pos : 0 < i) : Token.scanChunk w.outer i = Token.scanChunk w.inner i ∧
    ∀ r, Token.scanChunk w.inner i = some r → i ≤ r.2.2 := by
  unfold Token.scanChunk
  rw [w.size]
  exact chunkFrom_same _ _ _ pos

/-- Behind the brace a parenthesis closes the second text. -/
theorem scan_outerEnd (strict typed : Bool) :
    Token.scan w.outer strict typed (w.line + 2) = (⟨.sign ")",w.line + 2,w.line + 3,false⟩,[]) := by
  unfold Token.scan
  rw [skipBlanks_solid _ _ w.outerEnd (by decide)]
  simp only
  rw [Token.scanAt_lone w.outerEnd (by decide)]
  rfl

end Twins

end ScriptHost.Script
