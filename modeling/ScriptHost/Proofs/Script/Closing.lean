import ScriptHost.Proofs.Script.Operands
/-!
The end of a function whose brace is the last one of two texts that differ behind it (`Twins`). A step that passes the
brace cannot be blind, since the token behind it is the end of the one text and a parenthesis in the other; but it comes
to the same value in both, and to the states that are at these tokens (`Shuts`).
-/
namespace ScriptHost.Script

open ScriptHost.Script.Parser

set_option synthInstance.maxSize 1000000

namespace Twins

variable (w : Twins)

/-- The reader at the parenthesis behind the brace, for one at the end of the first text. -/
def shut (s : Cursor) : Cursor := { s with text := w.outer, tok := ⟨.sign ")",w.line + 2,w.line + 3,false⟩ }

/-- A step that passes the brace in both texts if it does so in the first and has nothing to complain about. Behind the
brace there is no further one that it could pass. -/
class Shuts {α : Type} (m : Parser α) : Prop extends w.Moves m where
  late : ∀ s a s', w.Fits s → w.line + 1 < s.tok.start → m s = .ok a s' → s'.notes ≠ []
  same : ∀ s a s', w.Fits s → m s = .ok a s' → s'.notes = [] → w.line + 1 < s'.tok.start →
    s'.last = w.line + 2 ∧ m (w.swap s) = .ok a (w.shut s')

/-- A step that leaves the token and the complaints as they are and does the same behind the brace of both texts. -/
class Stays {α : Type} (m : Parser α) : Prop extends w.Moves m where
  stays : ∀ s, w.Fits s → ∃ a s', m s = .ok a s' ∧ s'.tok = s.tok ∧ s'.notes = s.notes ∧ s'.last = s.last ∧
    (s.last ≤ w.line + 2 → m (w.shut s) = .ok a (w.shut s'))

variable {w} {α β : Type}

/-! ### Steps that stay behind the brace -/

theorem Stays.of_look {f : Cursor → α} {m : Parser α} (run : ∀ s, m s = .ok (f s) s)
    (same : ∀ s, w.Fits s → s.last ≤ w.line + 2 → f (w.shut s) = f s) : w.Stays m where
  onward s fits := by
    rw [run]
    exact fits.onward
  stays s fits := ⟨f s,s,run s,rfl,rfl,rfl,fun behind => by rw [run,same s fits behind]⟩

instance (a : α) : w.Stays (pure a : Parser α) := .of_look (fun _ => rfl) fun _ _ _ => rfl

instance : w.Stays mode := .of_look (fun _ => rfl) fun _ _ _ => rfl

instance (start : Nat) [NeZero start] : w.Stays (textFrom start) := .of_look (fun _ => rfl) fun s fits behind => by
  show Token.textBetween w.outer start s.last = Token.textBetween s.text start s.last
  rw [fits.text]
  exact textBetween_same (Nat.pos_of_neZero start) behind

instance (l : List String) : w.Stays (setLabels l) where
  stays _ _ := ⟨(),_,rfl,rfl,rfl,rfl,fun _ => rfl⟩

instance (m : Parser α) (k : α → Parser β) [w.Stays m] [∀ a, w.Stays (k a)] : w.Stays (m >>= k) where
  stays s fits := by
    obtain ⟨a,s₁,run,tok,notes,last,there⟩ := Stays.stays (w := w) (m := m) s fits
    have onward := Moves.onward (w := w) (m := m) s fits
    rw [run] at onward
    obtain ⟨b,s₂,run',tok',notes',last',there'⟩ := Stays.stays (m := k a) s₁ onward.fits
    exact ⟨b,s₂,bind_ok_iff.mpr ⟨a,s₁,run,run'⟩,tok'.trans tok,notes'.trans notes,last'.trans last,
      fun behind => bind_ok_iff.mpr ⟨a,_,there behind,there' (last ▸ behind)⟩⟩

/-! ### Steps that pass the brace -/

/-- Nothing further is passed behind the brace, so what precedes the step that passes it is in front of it. -/
theorem Shuts.step {m : Parser α} {k : α → Parser β} (first : w.Blind m) (rest : ∀ a, w.Shuts (k a)) :
    w.Shuts (m >>= k) where
  late s b s' fits behind run := by
    obtain ⟨a,s₁,run,run'⟩ := bind_ok_iff.mp run
    have onward := first.onward s fits
    rw [run] at onward
    exact (rest a).late s₁ b s' onward.fits (Nat.lt_of_lt_of_le behind onward.later) run'
  same s b s' fits run quiet behind := by
    obtain ⟨a,s₁,run,run'⟩ := bind_ok_iff.mp run
    have onward := first.onward s fits
    rw [run] at onward
    have onward' := (rest a).onward s₁ onward.fits
    rw [run'] at onward'
    have inside : s₁.tok.start ≤ w.line + 1 :=
      Nat.not_lt.mp fun high => (rest a).late s₁ b s' onward.fits high run' quiet
    obtain ⟨last,there⟩ := (rest a).same s₁ b s' onward.fits run' quiet behind
    exact ⟨last,bind_ok_iff.mpr ⟨a,_,first.same s a s₁ fits run ⟨onward'.noted quiet,inside⟩,there⟩⟩

/-- What stays behind the brace may follow. -/
theorem Shuts.keep {m : Parser α} {k : α → Parser β} (first : w.Shuts m) (rest : ∀ a, w.Stays (k a)) :
    w.Shuts (m >>= k) where
  late s b s' fits behind run quiet := by
    obtain ⟨a,s₁,run,run'⟩ := bind_ok_iff.mp run
    have onward := first.onward s fits
    rw [run] at onward
    have onward' := (rest a).onward s₁ onward.fits
    rw [run'] at onward'
    exact first.late s a s₁ fits behind run (onward'.noted quiet)
  same s b s' fits run quiet behind := by
    obtain ⟨a,s₁,run,run'⟩ := bind_ok_iff.mp run
    have onward := first.onward s fits
    rw [run] at onward
    obtain ⟨b',s₂,stayed,tok,notes,last,there⟩ := (rest a).stays s₁ onward.fits
    cases run'.symm.trans stayed
    obtain ⟨last',there'⟩ := first.same s a s₁ fits run (notes ▸ quiet) (tok ▸ behind)
    exact ⟨last.trans last',bind_ok_iff.mpr ⟨a,_,there',there (Nat.le_of_eq last')⟩⟩

/-- Behind a complaint it does not matter what the step comes to. -/
theorem Shuts.noted {m : Parser α} [w.Moves m] (complaint : Complaint) : w.Shuts (note complaint >>= fun _ => m) where
  late s a s' fits behind run quiet := by
    obtain ⟨fault,faults,ends⟩ := noteAt_run s.tok.start complaint s
    obtain ⟨_,s₁,run,run'⟩ := bind_ok_iff.mp run
    cases ends.symm.trans run
    have onward := Moves.onward (w := w) (m := m) _ (fits.noted fault faults).fits
    rw [run'] at onward
    cases onward.noted quiet
  same s a s' fits run quiet := by
    obtain ⟨fault,faults,ends⟩ := noteAt_run s.tok.start complaint s
    obtain ⟨_,s₁,run,run'⟩ := bind_ok_iff.mp run
    cases ends.symm.trans run
    have onward := Moves.onward (w := w) (m := m) _ (fits.noted fault faults).fits
    rw [run'] at onward
    cases onward.noted quiet

instance (complaint : Complaint) : w.Shuts (fail complaint : Parser α) where
  late s a s' _ _ run := by
    obtain ⟨fault,ends⟩ := failAt_run (α := α) s.tok.start complaint s
    cases ends.symm.trans run
  same s a s' _ run := by
    obtain ⟨fault,ends⟩ := failAt_run (α := α) s.tok.start complaint s
    cases ends.symm.trans run

theorem Shuts.choice {p : Prop} [Decidable p] {a b : Parser α} (yes : w.Shuts a) (no : w.Shuts b) :
    w.Shuts (if p then a else b) := by
  split
  · exact yes
  · exact no

theorem Shuts.within {change : Mode → Mode} {m : Parser α} (inner : w.Shuts m) : w.Shuts (inMode change m) where
  late s a s' fits behind run := by
    rw [inMode_run] at run
    cases ran : m { s with mode := change s.mode } with
    | error e s'' =>
      rw [ran] at run
      cases run
    | ok a' s'' =>
      rw [ran] at run
      cases run
      exact inner.late _ a s'' (fits.mode (change s.mode)) behind ran
  same s a s' fits run quiet behind := by
    rw [inMode_run] at run ⊢
    cases ran : m { s with mode := change s.mode } with
    | error e s'' =>
      rw [ran] at run
      cases run
    | ok a' s'' =>
      rw [ran] at run
      cases run
      obtain ⟨last,there⟩ := inner.same _ a s'' (fits.mode (change s.mode)) ran quiet behind
      change m { w.swap s with mode := change (w.swap s).mode } = _ at there
      rw [there]
      exact ⟨last,rfl⟩

theorem Shuts.untyped {k : Bool → Parser α} (rest : w.Shuts (k false)) : w.Shuts (Parser.isTyped >>= k) where
  onward s fits := by
    have := rest.onward s fits
    rwa [← fits.untyped] at this
  late s a s' fits behind run := by
    change k s.typed s = _ at run
    rw [fits.untyped] at run
    exact rest.late s a s' fits behind run
  same s a s' fits run quiet behind := by
    change k s.typed s = _ at run
    show _ ∧ k s.typed (w.swap s) = _
    rw [fits.untyped] at run ⊢
    exact rest.same s a s' fits run quiet behind

/-- Behind the brace the reader is at the end of the first text and at the parenthesis of the second. -/
theorem shut_past {s : Cursor} (fits : w.Fits s) (brace : s.tok.kind = .sign "\x7d")
    (quiet : (Twins.past s s.tok.stop).notes = []) (behind : w.line + 1 < (Twins.past s s.tok.stop).tok.start) :
    s.tok.stop = w.line + 2 ∧ Twins.past (w.swap s) s.tok.stop = w.shut (Twins.past s s.tok.stop) := by
  obtain ⟨clean,none⟩ := List.append_eq_nil_iff.mp quiet
  have inside : s.tok.start ≤ w.line + 1 := Nat.not_lt.mp fun high => by
    have last := fits.late none high
    rw [brace] at last
    cases last
  have stop : s.tok.stop = w.line + 2 := by
    rcases fits.stops none inside with before | ⟨-,last⟩
    · have same := scan_same (w := w) s.mode.strict s.typed (Nat.lt_of_lt_of_le fits.begun fits.ordered) before
      rw [← fits.text] at same
      exact absurd behind (Nat.not_lt.mpr (same.clean (List.reverse_eq_nil_iff.mp clean)).2.1)
    · exact last
  refine ⟨stop,?_⟩
  rw [stop]
  unfold Twins.past
  rw [fits.text,show (w.swap s).text = w.outer from rfl,scan_innerEnd,scan_outerEnd]
  rfl

theorem Shuts.off {b : Bool} {x y : Parser α} [off : Off b] (no : w.Shuts y) : w.Shuts (if b = true then x else y) := by
  rwa [if_neg (by rw [off.off]; decide)]

/-- The brace itself: it is passed, or else something is read in front of it. -/
theorem Shuts.brace {a : α} {rest : Parser α} (further : w.Shuts rest) :
    w.Shuts (eatSign "\x7d" >>= fun eaten => if eaten = true then pure a else rest) where
  onward := (Moves.bind (eatSign "\x7d") fun eaten => if eaten = true then pure a else rest).onward
  late s b s' fits behind run quiet := by
    obtain ⟨eaten,s₁,ate,run⟩ := bind_ok_iff.mp run
    rw [eatSign_run] at ate
    split at ate
    · next brace =>
      cases ate
      cases run
      have ends := fits.late (List.append_eq_nil_iff.mp quiet).2 behind
      rw [kind_of_isSign brace] at ends
      cases ends
    · cases ate
      exact further.late s b s' fits behind run quiet
  same s b s' fits run quiet behind := by
    obtain ⟨eaten,s₁,ate,run⟩ := bind_ok_iff.mp run
    rw [eatSign_run] at ate
    split at ate
    · next brace =>
      cases ate
      cases run
      obtain ⟨stop,there⟩ := shut_past fits (kind_of_isSign brace) quiet behind
      refine ⟨stop,bind_ok_iff.mpr ⟨true,_,?_,rfl⟩⟩
      rw [eatSign_run,show (w.swap s).tok = s.tok from rfl,if_pos brace,there]
    · next other =>
      cases ate
      obtain ⟨last,there⟩ := further.same s b s' fits run quiet behind
      refine ⟨last,bind_ok_iff.mpr ⟨false,_,?_,there⟩⟩
      rw [eatSign_run,show (w.swap s).tok = s.tok from rfl,if_neg other]

/-! ### Functions -/

section Functions

variable (reads : Reads) [Reading w reads]

theorem statements_shuts (n : Nat) : w.Shuts (statements reads (.stmt true) true n) := by
  induction n with
  | zero =>
    unfold statements
    infer_instance
  | succ n ih =>
    unfold statements
    dsimp only
    refine .step inferInstance fun ended => .choice (.step inferInstance fun shown => .noted _) (.brace ?_)
    exact .step inferInstance fun s => .keep ih fun rest => inferInstance

theorem body_shuts (simple : Bool) (n : Nat) : w.Shuts (body reads (.stmt true) true simple n) := by
  induction n with
  | zero =>
    unfold body
    infer_instance
  | succ n ih =>
    have rest : w.Shuts (do let s ← reads (.stmt true); return s :: (← body reads (.stmt true) true simple n)) :=
      .step inferInstance fun s => .keep ih fun rest => inferInstance
    unfold body
    refine .step inferInstance fun directive => ?_
    dsimp only
    split
    · exact .step inferInstance fun n => statements_shuts reads n
    · exact .choice (.choice (.step inferInstance fun _ => rest) (.step inferInstance fun _ => .step inferInstance fun _ =>
        rest)) rest

theorem functionBody_shuts (simple : Bool) : w.Shuts (functionBody reads simple) := by
  have rest : w.Shuts (do
      expectSign "\x7b"
      let outer ← labels
      setLabels []
      let result ← inMode ({ · with noIn := false, beforeColon := false }) do
        let stmts ← body reads (.stmt true) true simple (← bound)
        return (stmts, (← mode).strict)
      setLabels outer
      return result) := by
    refine .step inferInstance fun _ => .step inferInstance fun outer => .step inferInstance fun _ => .keep ?_ fun result =>
      inferInstance
    exact .within (.step inferInstance fun n => .keep (body_shuts reads simple n) fun stmts => inferInstance)
  unfold functionBody
  exact .step inferInstance fun mode => .step inferInstance fun opens => .choice (.step inferInstance fun _ => rest) rest

theorem functionRest_shuts (start place : Nat) [NeZero start] (name : Option String) (kind : FuncKind)
    (isAsync isGenerator : Bool) : w.Shuts (functionRest reads start place name kind isAsync isGenerator) := by
  unfold functionRest
  dsimp only
  refine .within (.step inferInstance fun _ => .step inferInstance fun _ => .step inferInstance fun n => ?_)
  refine .step inferInstance fun params => .step inferInstance fun _ => .step inferInstance fun _ => ?_
  refine .step inferInstance fun _ => .untyped (.step inferInstance fun opens => .off ?_)
  exact .keep (functionBody_shuts reads _) fun result => inferInstance

theorem function_shuts (isExpr isAsync : Bool) (start : Nat) [NeZero start] :
    w.Shuts (function reads isExpr isAsync start) := by
  unfold function
  dsimp only
  refine .step inferInstance fun _ => .step inferInstance fun isGenerator => .step inferInstance fun place => ?_
  refine .choice ?_ ?_
  all_goals exact .step inferInstance fun name => functionRest_shuts ..

end Functions

end Twins
end ScriptHost.Script
