import Mathlib.Algebra.GroupWithZero.Nat
import ScriptHost.Script.Parser.Declaration
import ScriptHost.Proofs.Script.Scanning
/-!
Steps of a reader that do the same in two texts that differ at their ends only (`Twins`). Such a step is blind to where
the texts differ (`Blind`): where it ends soundly in the first text, in front of what follows the brace and with nothing
to complain about, it comes to the same value and the same state in the second. Every rule of the grammar is put
together from such steps, so the instances here are what the rules are checked with.
-/
namespace ScriptHost.Script

open ScriptHost.Script.Parser

-- The rules are checked by instances, and a long rule needs many of them.
set_option synthInstance.maxSize 1000000

namespace Twins

variable (w : Twins)

/-- A reader in the first of the texts. -/
structure Fits (s : Cursor) : Prop where
  text : s.text = w.inner
  untyped : s.typed = false
  begun : 0 < s.tok.start
  ordered : s.tok.start ≤ s.tok.stop
  behind : s.last ≤ s.tok.start
  stops : s.notes = [] → s.tok.start ≤ w.line + 1 → w.Stops s.tok.kind s.tok.stop
  ended : s.tok.kind = .eof → w.line + 1 < s.tok.start
  late : s.notes = [] → w.line + 1 < s.tok.start → s.tok.kind.ends = true

/-- A reader that has nothing to complain about and is not past the brace. -/
structure Sound (s : Cursor) : Prop where
  quiet : s.notes = []
  inside : s.tok.start ≤ w.line + 1

/-- What may become of a reader: it goes on, and complaints stay. -/
structure Onward (s s' : Cursor) : Prop where
  fits : w.Fits s'
  later : s.tok.start ≤ s'.tok.start
  noted : s'.notes = [] → s.notes = []

/-- The reader at the same place of the other text. -/
def swap (s : Cursor) : Cursor := { s with text := w.outer }

/-- The state that a step ends in. -/
def after {α : Type} : EStateM.Result Fault Cursor α → Cursor
  | .ok _ s | .error _ s => s

/-- A step that goes onward. -/
class Moves {α : Type} (m : Parser α) : Prop where
  onward : ∀ s, w.Fits s → w.Onward s (after (m s))

/-- A step that does the same in both texts where it ends soundly in the first. -/
class Blind {α : Type} (m : Parser α) : Prop extends w.Moves m where
  same : ∀ s a s', w.Fits s → m s = .ok a s' → w.Sound s' → m (w.swap s) = .ok a (w.swap s')

variable {w}

theorem Fits.onward {s : Cursor} (fits : w.Fits s) : w.Onward s s := ⟨fits,Nat.le_refl _,id⟩

theorem Onward.trans {s s' s'' : Cursor} (first : w.Onward s s') (second : w.Onward s' s'') : w.Onward s s'' :=
  ⟨second.fits,Nat.le_trans first.later second.later,fun none => first.noted (second.noted none)⟩

/-- What ends soundly began so. -/
theorem Onward.sound {s s' : Cursor} (onward : w.Onward s s') (sound : w.Sound s') : w.Sound s :=
  ⟨onward.noted sound.quiet,Nat.le_trans onward.later sound.inside⟩

/-! ### Steps one after another -/

section Rules

variable {α β : Type}

instance Moves.bind (m : Parser α) (k : α → Parser β) [w.Moves m] [∀ a, w.Moves (k a)] : w.Moves (m >>= k) where
  onward s fits := by
    have first := Moves.onward (m := m) s fits
    show w.Onward s (after (EStateM.bind m k s))
    unfold EStateM.bind
    cases run : m s with
    | ok a s' =>
      rw [run] at first
      exact first.trans (Moves.onward (m := k a) s' first.fits)
    | error e s' =>
      rw [run] at first
      exact first

instance Blind.bind (m : Parser α) (k : α → Parser β) [w.Blind m] [∀ a, w.Blind (k a)] : w.Blind (m >>= k) where
  same s b s' fits run sound := by
    have first := Moves.onward (w := w) (m := m) s fits
    change EStateM.bind m k s = _ at run
    show EStateM.bind m k (w.swap s) = _
    unfold EStateM.bind at run ⊢
    cases run' : m s with
    | error e s'' =>
      rw [run'] at run
      cases run
    | ok a s'' =>
      rw [run'] at run first
      have second := Moves.onward (w := w) (m := k a) s'' first.fits
      simp only at run
      rw [run] at second
      rw [Blind.same s a s'' fits run' (second.sound sound)]
      exact Blind.same s'' b s' first.fits run sound

instance Blind.pure (a : α) : w.Blind (pure a : Parser α) where
  onward _ fits := fits.onward
  same s b s' _ run _ := by
    cases run
    rfl

instance Moves.ite (p : Prop) [Decidable p] (a b : Parser α) [w.Moves a] [w.Moves b] :
    w.Moves (if p then a else b) := by
  split <;> infer_instance

instance Blind.ite (p : Prop) [Decidable p] (a b : Parser α) [w.Blind a] [w.Blind b] :
    w.Blind (if p then a else b) := by
  split <;> infer_instance

/-- A step and what follows it. -/
theorem Blind.step {m : Parser α} {k : α → Parser β} (first : w.Blind m) (rest : ∀ a, w.Blind (k a)) :
    w.Blind (m >>= k) := inferInstance

/-- A choice of two ways to go on. -/
theorem Blind.choice {p : Prop} [Decidable p] {a b : Parser α} (yes : w.Blind a) (no : w.Blind b) :
    w.Blind (if p then a else b) := inferInstance

instance Moves.map (f : α → β) (m : Parser α) [w.Moves m] : w.Moves (f <$> m) where
  onward s fits := by
    have first := Moves.onward (m := m) s fits
    show w.Onward s (after (EStateM.map f m s))
    unfold EStateM.map
    cases run : m s with
    | ok a s' =>
      rw [run] at first
      exact first
    | error e s' =>
      rw [run] at first
      exact first

instance Blind.map (f : α → β) (m : Parser α) [w.Blind m] : w.Blind (f <$> m) where
  same s b s' fits run sound := by
    change EStateM.map f m s = _ at run
    show EStateM.map f m (w.swap s) = _
    unfold EStateM.map at run ⊢
    cases run' : m s with
    | error e s'' =>
      rw [run'] at run
      cases run
    | ok a s'' =>
      rw [run'] at run
      simp only [EStateM.Result.ok.injEq] at run
      obtain ⟨rfl,rfl⟩ := run
      rw [Blind.same s a s'' fits run' sound]

instance Blind.discard (m : Parser α) [w.Blind m] : w.Blind (discard m) := Blind.map _ m

/-- A step for each member of a list. -/
instance Blind.mapM {γ : Type} (l : List γ) (f : γ → Parser α) [∀ c, w.Blind (f c)] : w.Blind (l.mapM f) := by
  induction l with
  | nil =>
    rw [List.mapM_nil]
    infer_instance
  | cons c l ih =>
    rw [List.mapM_cons]
    infer_instance

theorem Blind.each {γ : Type} {l : List γ} {f : γ → Parser α} (each : ∀ c, w.Blind (f c)) : w.Blind (l.mapM f) :=
  inferInstance

end Rules

/-! ### Steps that look at the state -/

section Looking

variable {α : Type}

/-- A step that ends where it began, with what it sees of the state. -/
theorem Blind.of_look {f : Cursor → α} {m : Parser α} (run : ∀ s, m s = .ok (f s) s)
    (same : ∀ s, w.Fits s → w.Sound s → f (w.swap s) = f s) : w.Blind m where
  onward s fits := by
    rw [run]
    exact fits.onward
  same s a s' fits ran sound := by
    rw [run] at ran ⊢
    cases ran
    rw [same s fits sound]

/-- A step that changes the state, but not the text, the token and the complaints. -/
theorem Blind.of_change {f : Cursor → Cursor} {m : Parser Unit} (run : ∀ s, m s = .ok () (f s))
    (keeps : ∀ s, (f s).text = s.text ∧ (f s).typed = s.typed ∧ (f s).tok = s.tok ∧ (f s).last = s.last ∧
      (f s).notes = s.notes) (same : ∀ s, f (w.swap s) = w.swap (f s)) : w.Blind m where
  onward s fits := by
    obtain ⟨text,typed,tok,last,notes⟩ := keeps s
    rw [run]
    show w.Onward s (f s)
    refine ⟨⟨text ▸ fits.text,typed ▸ fits.untyped,?_,?_,?_,?_,?_,?_⟩,?_,?_⟩
    · rw [tok]
      exact fits.begun
    · rw [tok]
      exact fits.ordered
    · rw [tok,last]
      exact fits.behind
    · rw [tok,notes]
      exact fits.stops
    · rw [tok]
      exact fits.ended
    · rw [tok,notes]
      exact fits.late
    · rw [tok]
    · rw [notes]
      exact id
  same s a s' fits ran sound := by
    rw [run] at ran ⊢
    cases ran
    rw [same]

instance : w.Blind current := .of_look (fun _ => rfl) fun _ _ _ => rfl
instance : w.Blind here := .of_look (fun _ => rfl) fun _ _ _ => rfl
instance : w.Blind mode := .of_look (fun _ => rfl) fun _ _ _ => rfl
instance : w.Blind labels := .of_look (fun _ => rfl) fun _ _ _ => rfl
instance : w.Blind lastEnd := .of_look (fun _ => rfl) fun _ _ _ => rfl
instance : w.Blind isTyped := .of_look (fun _ => rfl) fun _ _ _ => rfl
instance : w.Blind atArrowStart := .of_look (fun _ => rfl) fun _ _ _ => rfl
instance : w.Blind shown := .of_look (fun _ => rfl) fun _ _ _ => rfl

instance : w.Blind bound := .of_look (fun _ => rfl) fun s fits _ => by
  show w.outer.size + 2 - s.tok.start = s.text.size + 2 - s.tok.start
  rw [fits.text,w.size]

instance (start : Nat) [NeZero start] : w.Blind (textFrom start) := .of_look (fun _ => rfl) fun s fits sound => by
  show Token.textBetween w.outer start s.last = Token.textBetween s.text start s.last
  rw [fits.text]
  exact textBetween_same (Nat.pos_of_neZero start) (Nat.le_succ_of_le (Nat.le_trans fits.behind sound.inside))

instance (l : List String) : w.Blind (setLabels l) := .of_change (fun _ => rfl) (fun _ => ⟨rfl,rfl,rfl,rfl,rfl⟩) fun _ => rfl
instance : w.Blind becomeStrict := .of_change (fun _ => rfl) (fun _ => ⟨rfl,rfl,rfl,rfl,rfl⟩) fun _ => rfl
instance : w.Blind markArrowStart := .of_change (fun _ => rfl) (fun _ => ⟨rfl,rfl,rfl,rfl,rfl⟩) fun _ => rfl

/-- The token at hand does not start the text. -/
theorem Blind.on_token {k : Token → Parser α} (each : ∀ tok, [NeZero tok.start] → w.Blind (k tok)) :
    w.Blind (Parser.current >>= k) where
  onward s fits := by
    have : NeZero s.tok.start := ⟨Nat.ne_of_gt fits.begun⟩
    exact (each s.tok).onward s fits
  same s a s' fits run sound := by
    have : NeZero s.tok.start := ⟨Nat.ne_of_gt fits.begun⟩
    exact (each s.tok).same s a s' fits run sound

theorem Blind.on_place {k : Nat → Parser α} (each : ∀ place, [NeZero place] → w.Blind (k place)) :
    w.Blind (Parser.here >>= k) where
  onward s fits := by
    have : NeZero s.tok.start := ⟨Nat.ne_of_gt fits.begun⟩
    exact (each s.tok.start).onward s fits
  same s a s' fits run sound := by
    have : NeZero s.tok.start := ⟨Nat.ne_of_gt fits.begun⟩
    exact (each s.tok.start).same s a s' fits run sound

instance (priority := high) Blind.here (k : Nat → Parser α) [each : ∀ n, w.Blind (k (n + 1))] :
    w.Blind (Parser.here >>= k) := .on_place fun place _ => by
  obtain ⟨n,rfl⟩ := Nat.exists_eq_succ_of_ne_zero (NeZero.ne place)
  exact each n

/-! ### Texts without annotations -/

/-- A condition that does not hold. -/
class Off (b : Bool) : Prop where
  off : b = false

/-- A condition that holds. -/
class On (b : Bool) : Prop where
  on : b = true

instance : Off false := ⟨rfl⟩
instance (a b : Bool) [off : Off a] : Off (a && b) := ⟨by rw [off.off,Bool.false_and]⟩
instance (a b : Bool) [off : Off b] : Off (a && b) := ⟨by rw [off.off,Bool.and_false]⟩
instance (a : Bool) [off : Off a] : On (!a) := ⟨by rw [off.off,Bool.not_false]⟩
instance (a b : Bool) [on : On a] : On (a || b) := ⟨by rw [on.on,Bool.true_or]⟩

instance (priority := high) Blind.off (b : Bool) [off : Off b] (x y : Parser α) [w.Blind y] :
    w.Blind (if b = true then x else y) := by
  rw [if_neg (by rw [off.off]; decide)]
  infer_instance

instance (priority := high) Blind.on (b : Bool) [on : On b] (x y : Parser α) [w.Blind x] :
    w.Blind (if b = true then x else y) := by
  rw [if_pos on.on]
  infer_instance

instance (priority := high) Blind.isTyped (k : Bool → Parser α) [w.Blind (k false)] : w.Blind (Parser.isTyped >>= k) where
  onward s fits := by
    have here : (Parser.isTyped >>= k) s = k false s := by
      show k s.typed s = _
      rw [fits.untyped]
    rw [here]
    exact Moves.onward (m := k false) s fits
  same s a s' fits run sound := by
    have here : (Parser.isTyped >>= k) s = k false s := by
      show k s.typed s = _
      rw [fits.untyped]
    have there : (Parser.isTyped >>= k) (w.swap s) = k false (w.swap s) := by
      show k s.typed _ = _
      rw [fits.untyped]
    rw [here] at run
    rw [there]
    exact Blind.same (m := k false) s a s' fits run sound

theorem Blind.untyped {k : Bool → Parser α} (rest : w.Blind (k false)) : w.Blind (Parser.isTyped >>= k) :=
  inferInstance

theorem Blind.otherwise {a b : Parser α} (no : w.Blind b) : w.Blind (if false = true then a else b) := inferInstance

end Looking

/-! ### Complaints -/

section Complaints

variable {α : Type}

/-- A step that only complains about the token at hand. -/
theorem Blind.of_throw {m : Parser α} (run : ∀ s, ∃ fault, m s = .error fault s) : w.Blind m where
  onward s fits := by
    obtain ⟨fault,ends⟩ := run s
    rw [ends]
    exact fits.onward
  same s a s' _ ran _ := by
    obtain ⟨fault,ends⟩ := run s
    rw [ends] at ran
    cases ran

theorem failAt_run (place : Nat) (complaint : Complaint) (s : Cursor) :
    ∃ fault, (failAt place complaint : Parser α) s = .error fault s := by
  obtain ⟨text,typed,⟨kind,start,stop,newline⟩,last,notes,labels,mode,arrowStart⟩ := s
  cases kind <;> exact ⟨_,rfl⟩

instance (place : Nat) (complaint : Complaint) : w.Blind (failAt place complaint : Parser α) :=
  .of_throw (failAt_run place complaint)

instance (complaint : Complaint) : w.Blind (fail complaint : Parser α) :=
  .of_throw fun s => failAt_run s.tok.start complaint s

instance (wanted : String) : w.Blind (unexpected wanted : Parser α) :=
  .of_throw fun s => failAt_run s.tok.start (.unexpected s.tok.kind.shown wanted) s

theorem noteAt_run (place : Nat) (complaint : Complaint) (s : Cursor) :
    ∃ fault faults, noteAt place complaint s = .ok () { s with notes := fault :: faults ++ s.notes } := by
  obtain ⟨text,typed,⟨kind,start,stop,newline⟩,last,notes,labels,mode,arrowStart⟩ := s
  cases kind with
  | bad c => exact ⟨_,[_],rfl⟩
  | _ => exact ⟨_,[],rfl⟩

/-- A reader with more to complain about. -/
theorem Fits.noted {s : Cursor} (fits : w.Fits s) (fault : Fault) (faults : List Fault) :
    w.Onward s { s with notes := fault :: faults ++ s.notes } :=
  ⟨⟨fits.text,fits.untyped,fits.begun,fits.ordered,fits.behind,nofun,fits.ended,nofun⟩,Nat.le_refl _,nofun⟩

instance (place : Nat) (complaint : Complaint) : w.Blind (noteAt place complaint) where
  onward s fits := by
    obtain ⟨fault,faults,ends⟩ := noteAt_run place complaint s
    rw [ends]
    exact fits.noted fault faults
  same s a s' _ run sound := by
    obtain ⟨fault,faults,ends⟩ := noteAt_run place complaint s
    rw [ends] at run
    cases run
    cases sound.quiet

instance (complaint : Complaint) : w.Blind (note complaint) := by
  unfold note
  infer_instance

instance (place : Nat) (complaint : Complaint) : w.Blind (noteIfStrict place complaint) := by
  unfold noteIfStrict
  infer_instance

/-- Behind a complaint it does not matter what the step comes to. -/
theorem Blind.noted {m : Parser α} [w.Moves m] (complaint : Complaint) : w.Blind (note complaint >>= fun _ => m) where
  same s a s' fits run sound := by
    obtain ⟨fault,faults,ends⟩ := noteAt_run s.tok.start complaint s
    have start : (note complaint >>= fun _ => m) s = m { s with notes := fault :: faults ++ s.notes } := by
      show EStateM.bind (noteAt s.tok.start complaint) _ s = _
      unfold EStateM.bind
      rw [ends]
    rw [start] at run
    have onward := Moves.onward (w := w) (m := m) _ (fits.noted fault faults).fits
    rw [run] at onward
    cases onward.noted sound.quiet

end Complaints

/-! ### Steps around others -/

section Around

variable {α : Type}

theorem Fits.mode {s : Cursor} (fits : w.Fits s) (mode : Mode) : w.Fits { s with mode } :=
  ⟨fits.text,fits.untyped,fits.begun,fits.ordered,fits.behind,fits.stops,fits.ended,fits.late⟩

theorem Onward.restored {s s' : Cursor} (onward : w.Onward s s') (mode : Mode) (labels : List String) :
    w.Onward s { s' with mode, labels } :=
  ⟨⟨onward.fits.text,onward.fits.untyped,onward.fits.begun,onward.fits.ordered,onward.fits.behind,
    onward.fits.stops,onward.fits.ended,onward.fits.late⟩,onward.later,onward.noted⟩

theorem inMode_run (change : Mode → Mode) (m : Parser α) (s : Cursor) : inMode change m s =
    match m { s with mode := change s.mode } with
    | .ok a s' => .ok a { s' with mode := s.mode }
    | .error e s' => .error e s' := by
  show EStateM.bind m _ { s with mode := change s.mode } = _
  unfold EStateM.bind
  cases m { s with mode := change s.mode } <;> rfl

instance (change : Mode → Mode) (m : Parser α) [w.Moves m] : w.Moves (inMode change m) where
  onward s fits := by
    have inner := Moves.onward (m := m) _ (fits.mode (change s.mode))
    rw [inMode_run]
    cases run : m { s with mode := change s.mode } with
    | ok a s' =>
      rw [run] at inner
      exact ⟨inner.fits.mode s.mode,inner.later,inner.noted⟩
    | error e s' =>
      rw [run] at inner
      exact ⟨inner.fits,inner.later,inner.noted⟩

instance (change : Mode → Mode) (m : Parser α) [w.Blind m] : w.Blind (inMode change m) where
  same s a s' fits run sound := by
    rw [inMode_run] at run ⊢
    cases inner : m { s with mode := change s.mode } with
    | error e s'' =>
      rw [inner] at run
      cases run
    | ok a' s'' =>
      rw [inner] at run
      cases run
      have same := Blind.same (m := m) _ a s'' (fits.mode (change s.mode)) inner ⟨sound.quiet,sound.inside⟩
      change m { w.swap s with mode := change (w.swap s).mode } = _ at same
      rw [same]
      rfl

theorem Blind.within {change : Mode → Mode} {m : Parser α} (inner : w.Blind m) : w.Blind (inMode change m) :=
  inferInstance

instance (m : Parser α) (a : α) [w.Blind m] : w.Blind (recover m a) where
  onward s fits := by
    have inner := Moves.onward (w := w) (m := m) s fits
    unfold recover
    cases run : m s with
    | ok a s' =>
      rw [run] at inner
      exact inner
    | error e s' =>
      rw [run] at inner
      exact (inner.restored s.mode s.labels).trans ((inner.restored s.mode s.labels).fits.noted e [])
  same s b s' fits run sound := by
    unfold recover at run ⊢
    cases inner : m s with
    | error e s'' =>
      rw [inner] at run
      cases run
      cases sound.quiet
    | ok a' s'' =>
      rw [inner] at run
      cases run
      rw [Blind.same s b s' fits inner sound]

instance (m : Parser α) [w.Moves m] : w.Moves (passOver m) where
  onward s fits := by
    have inner := Moves.onward (w := w) (m := m) s fits
    unfold passOver
    cases run : m s with
    | ok a s' =>
      rw [run] at inner
      exact inner
    | error e s' =>
      rw [run] at inner
      exact inner.restored s.mode s.labels

end Around

/-! ### Tokens -/

/-- A reader past everything up to a place. -/
def past (s : Cursor) (place : Nat) : Cursor :=
  let scanned := Token.scan s.text s.mode.strict s.typed place
  { s with last := place, tok := scanned.1, notes := scanned.2.reverse ++ s.notes }

theorem Fits.past {s : Cursor} (fits : w.Fits s) {place : Nat} (later : s.tok.start ≤ place) :
    w.Onward s (past s place) := by
  have pos : 0 < place := Nat.lt_of_lt_of_le fits.begun later
  obtain ⟨low,ordered⟩ := scan_ordered (w := w) s.mode.strict s.typed pos
  have same := fun inside => (scan_same (w := w) s.mode.strict s.typed pos inside).clean
  have clean : (Twins.past s place).notes = [] → (Token.scan w.inner s.mode.strict s.typed place).2 = [] := fun none =>
    fits.text ▸ List.reverse_eq_nil_iff.mp (List.append_eq_nil_iff.mp none).1
  have here : (Twins.past s place).tok = (Token.scan w.inner s.mode.strict s.typed place).1 := by
    rw [← fits.text]
    rfl
  rw [← here] at low ordered
  refine ⟨⟨fits.text,fits.untyped,Nat.lt_of_lt_of_le pos low,ordered,low,fun none inside => ?_,fun ends => ?_,
    fun none behind => ?_⟩,Nat.le_trans later low,fun none => (List.append_eq_nil_iff.mp none).2⟩
  · rw [here]
    exact (same (Nat.le_trans low inside) (clean none)).2.2
  · rw [here] at ends ⊢
    exact scan_eof ends
  · rcases Nat.lt_or_ge (w.line + 1) place with high | inside
    · rw [here,scan_late high]
      rfl
    · rw [here] at behind
      exact absurd behind (Nat.not_lt.mpr (same inside (clean none)).2.1)

theorem swap_past {s : Cursor} (fits : w.Fits s) {place : Nat} (later : s.tok.start ≤ place)
    (sound : w.Sound (Twins.past s place)) : Twins.past (w.swap s) place = w.swap (Twins.past s place) := by
  have pos : 0 < place := Nat.lt_of_lt_of_le fits.begun later
  have low := (scan_ordered (w := w) s.mode.strict s.typed pos).1
  have inside : (Token.scan s.text s.mode.strict s.typed place).1.start ≤ w.line + 1 := sound.inside
  have clean : (Token.scan s.text s.mode.strict s.typed place).2 = [] :=
    List.reverse_eq_nil_iff.mp (List.append_eq_nil_iff.mp sound.quiet).1
  rw [fits.text] at inside clean
  have same := ((scan_same (w := w) s.mode.strict s.typed pos
    (Nat.le_trans low inside)).clean clean).1
  have same : Token.scan (w.swap s).text (w.swap s).mode.strict (w.swap s).typed place =
      Token.scan s.text s.mode.strict s.typed place := by
    rw [fits.text]
    exact same
  unfold Twins.past
  rw [same]
  rfl

instance : w.Blind advance where
  onward s fits := fits.past fits.ordered
  same s a s' fits run sound := by
    change EStateM.Result.ok () (past s s.tok.stop) = _ at run
    cases run
    exact congrArg (EStateM.Result.ok ()) (swap_past fits fits.ordered sound)

instance : w.Blind take := by
  unfold take
  infer_instance

instance (text : String) : w.Blind (isSign text) := by
  unfold isSign
  refine .on_token fun tok _ => ?_
  split <;> infer_instance

instance (text : String) : w.Blind (isWord text) := by
  unfold isWord
  infer_instance

instance : w.Blind atEnd := by
  unfold atEnd
  refine .on_token fun tok _ => ?_
  split <;> infer_instance

instance (text : String) : w.Blind (eatSign text) := by
  unfold eatSign
  infer_instance

instance (text : String) : w.Blind (eatWord text) := by
  unfold eatWord
  infer_instance

instance (text : String) : w.Blind (expectSign text) := by
  unfold expectSign
  infer_instance

instance (text : String) : w.Blind (expectWord text) := by
  unfold expectWord
  infer_instance

instance : w.Blind atStatementEnd := by
  unfold atStatementEnd
  refine .on_token fun tok _ => ?_
  split <;> infer_instance

instance : w.Blind eatStatementEnd := by
  unfold eatStatementEnd
  infer_instance

instance : w.Blind expectStatementEnd := by
  unfold expectStatementEnd
  infer_instance

instance : w.Blind isName := by
  unfold isName
  refine .on_token fun tok _ => ?_
  split <;> infer_instance

instance : w.Blind wordName := by
  unfold wordName
  refine .on_token fun tok _ => ?_
  split <;> infer_instance

instance : w.Blind bindingName := by
  unfold bindingName
  refine .on_token fun tok _ => ?_
  dsimp only
  split <;> infer_instance

/-! ### The token behind -/

/-- Tokens behind the one at hand that the two texts may have: they differ in the text of a string that is never closed,
and behind the brace. -/
structure Near (tok tok' : Token) : Prop where
  newline : tok'.newline = tok.newline
  kind : tok'.kind.blur = tok.kind.blur ∨ tok.kind = .eof ∧ tok'.kind = .sign ")"

/-- What does not look at the text of a string is the same for tokens that differ there only. -/
theorem of_blur {β : Type} {k : Token → β} (texts : ∀ value raw newline, k ⟨.str value raw,0,0,newline⟩ =
    k ⟨.str "" "",0,0,newline⟩) {kind kind' : Tok} (same : kind'.blur = kind.blur) {newline : Bool} :
    k ⟨kind',0,0,newline⟩ = k ⟨kind,0,0,newline⟩ := by
  have blurred : ∀ kind : Tok, k ⟨kind,0,0,newline⟩ = k ⟨kind.blur,0,0,newline⟩ := by
    intro kind
    cases kind with
    | str value raw => exact texts value raw newline
    | _ => rfl
  rw [blurred,blurred kind,same]

theorem peek_near {s : Cursor} (fits : w.Fits s) (sound : w.Sound s) :
    Near (Token.scan s.text s.mode.strict s.typed s.tok.stop).1
      (Token.scan w.outer s.mode.strict s.typed s.tok.stop).1 := by
  rw [fits.text]
  rcases fits.stops sound.quiet sound.inside with before | ⟨-,last⟩
  · have same := scan_same (w := w) s.mode.strict s.typed
      (Nat.lt_of_lt_of_le fits.begun fits.ordered) before
    exact ⟨same.newline,.inl same.kind⟩
  · rw [last,scan_innerEnd,scan_outerEnd]
    exact ⟨rfl,.inr ⟨rfl,rfl⟩⟩

section Peeking

variable {α : Type}

instance : w.Moves peek where
  onward _ fits := fits.onward

/-- A step that does not tell apart what may stand behind the token at hand: it looks at the kind of that token and at
the line break in front of it only. -/
theorem Blind.peek {k : Token → Parser α} (rest : ∀ next, w.Blind (k next))
    (places : ∀ next : Token, k next = k ⟨next.kind,0,0,next.newline⟩)
    (texts : ∀ value raw newline, k ⟨.str value raw,0,0,newline⟩ = k ⟨.str "" "",0,0,newline⟩)
    (ends : ∀ newline, k ⟨.sign ")",0,0,newline⟩ = k ⟨.eof,0,0,newline⟩) : w.Blind (Parser.peek >>= k) where
  same s a s' fits run sound := by
    change k (Token.scan s.text s.mode.strict s.typed s.tok.stop).1 s = _ at run
    show k (Token.scan w.outer s.mode.strict s.typed s.tok.stop).1 (w.swap s) = _
    have onward := Moves.onward (w := w) (m := k (Token.scan s.text s.mode.strict s.typed s.tok.stop).1) s fits
    rw [run] at onward
    have near := peek_near fits (onward.sound sound)
    have same : k (Token.scan w.outer s.mode.strict s.typed s.tok.stop).1 =
        k (Token.scan s.text s.mode.strict s.typed s.tok.stop).1 := by
      rw [places,places (Token.scan s.text _ _ _).1,near.newline]
      rcases near.kind with same | ⟨eof,paren⟩
      · exact of_blur texts same
      · rw [eof,paren,ends]
    rw [same]
    exact Blind.same s a s' fits run sound

/-- A step that does the same in both texts at this token. -/
class BlindAt (w : Twins) (tok : Token) (m : Parser α) : Prop extends w.Moves m where
  same : ∀ s a s', w.Fits s → s.tok = tok → m s = .ok a s' → w.Sound s' → m (w.swap s) = .ok a (w.swap s')

instance (tok : Token) (m : Parser α) [w.Blind m] : w.BlindAt tok m where
  same s a s' fits _ := Blind.same s a s' fits

theorem Blind.current_at {k : Token → Parser α} (each : ∀ tok, [NeZero tok.start] → w.BlindAt tok (k tok)) :
    w.Blind (Parser.current >>= k) where
  onward s fits := by
    have : NeZero s.tok.start := ⟨Nat.ne_of_gt fits.begun⟩
    exact (each s.tok).onward s fits
  same s a s' fits run sound := by
    have : NeZero s.tok.start := ⟨Nat.ne_of_gt fits.begun⟩
    exact (each s.tok).same s a s' fits rfl run sound

/-- Behind a token that is no closing brace both texts have the same token, but for the text of a string. -/
theorem BlindAt.peek {tok : Token} {k : Token → Parser α} (other : tok.kind.closes = false)
    (rest : ∀ next, w.Blind (k next)) (places : ∀ next : Token, k next = k ⟨next.kind,0,0,next.newline⟩)
    (texts : ∀ value raw newline, k ⟨.str value raw,0,0,newline⟩ = k ⟨.str "" "",0,0,newline⟩) :
    w.BlindAt tok (Parser.peek >>= k) where
  same s a s' fits here run sound := by
    change k (Token.scan s.text s.mode.strict s.typed s.tok.stop).1 s = _ at run
    show k (Token.scan w.outer s.mode.strict s.typed s.tok.stop).1 (w.swap s) = _
    have onward := Moves.onward (w := w) (m := k (Token.scan s.text s.mode.strict s.typed s.tok.stop).1) s fits
    rw [run] at onward
    have begun := onward.sound sound
    have before : s.tok.stop ≤ w.line + 1 := by
      rcases fits.stops begun.quiet begun.inside with before | ⟨brace,-⟩
      · exact before
      · rw [here,other] at brace
        cases brace
    have near := scan_same (w := w) s.mode.strict s.typed (Nat.lt_of_lt_of_le fits.begun fits.ordered) before
    rw [← fits.text] at near
    have same : k (Token.scan w.outer s.mode.strict s.typed s.tok.stop).1 =
        k (Token.scan s.text s.mode.strict s.typed s.tok.stop).1 := by
      rw [places,places (Token.scan s.text _ _ _).1,near.newline]
      exact of_blur texts near.kind
    rw [same]
    exact Blind.same s a s' fits run sound

end Peeking

end Twins

end ScriptHost.Script
