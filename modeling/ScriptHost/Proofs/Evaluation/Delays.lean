import ScriptHost.Settings
/-!
The delays between two looks at a pending result, over the whole sequence and for all settings. Without a longest delay
and a longest span, each one would be ten times as long as the one before. The next delay is multiplied first and
shortened then, so the product may be longer than any span; and ten times no delay at all is none again.
-/
namespace ScriptHost

theorem Span.nanos_min (a b : Span) : (a.min b).nanos = Nat.min a.nanos b.nanos := by
  unfold Span.min
  split
  · next less => exact (Nat.min_eq_right (Nat.le_of_lt less)).symm
  · next less => exact (Nat.min_eq_left (Nat.le_of_not_lt less)).symm

/-- The longest delay is no shorter than the first one, whatever is asked for. -/
theorem Settings.initial_le_max (s : Settings) (initial max : Span) :
    (s.withPollBackoff initial max).pollInitial.nanos ≤ (s.withPollBackoff initial max).pollMax.nanos := by
  show initial.nanos ≤ (max.max initial).nanos
  unfold Span.max
  split
  · exact Nat.le_refl _
  · next less => exact Nat.le_of_not_lt less

namespace Backoff
variable {b : Backoff} {n k : Nat}

/-- What the delay after so many looks would come to if it could be of any length. -/
def unbounded (b : Backoff) (n : Nat) : Nat := b.initial.nanos * Nat.pow 10 n

@[simp]
theorem unbounded_zero (b : Backoff) : b.unbounded 0 = b.initial.nanos := Nat.mul_one _

@[simp]
theorem unbounded_succ (b : Backoff) (n : Nat) : b.unbounded (n+1) = b.unbounded n * 10 := (Nat.mul_assoc _ _ _).symm

theorem unbounded_le (b : Backoff) (later : n ≤ k) : b.unbounded n ≤ b.unbounded k := by
  induction later with
  | refl => exact Nat.le_refl _
  | step _ ih =>
    rw [unbounded_succ]
    omega

/-- Any first delay but none at all gets as long as one likes. -/
theorem le_unbounded (starts : b.initial.nanos ≠ 0) (n : Nat) : n ≤ b.unbounded n := by
  induction n with
  | zero => exact Nat.zero_le _
  | succ n ih =>
    rw [unbounded_succ]
    have positive : b.unbounded 0 ≤ b.unbounded n := b.unbounded_le (Nat.zero_le n)
    rw [unbounded_zero] at positive
    omega

/-- The delay after so many looks is not the longest one yet, and ten times it is longer than any span. -/
def Overflows (b : Backoff) (n : Nat) : Prop :=
  b.unbounded n < b.max.nanos ∧ Span.longest.nanos < b.unbounded (n+1)

/-- No product is too long where the longest delay is at most a tenth of the longest span. -/
theorem not_overflows_of_short (short : b.max.nanos * 10 ≤ Span.longest.nanos) (n : Nat) : ¬b.Overflows n := by
  rintro ⟨below,above⟩
  rw [unbounded_succ] at above
  omega

/-- The delay after so many looks, of a length that is not cut off by the longest span. -/
def capped (b : Backoff) (n : Nat) : Span := ⟨Nat.min (b.unbounded n) b.max.nanos⟩

theorem capped_of_le (reached : b.max.nanos ≤ b.unbounded n) : b.capped n = b.max :=
  congrArg Span.mk (Nat.min_eq_right reached)

theorem next_of_below (below : b.unbounded n < b.max.nanos) (fits : ¬b.Overflows n) :
    b.next? (b.capped n) = some (b.capped (n+1)) := by
  have product : b.unbounded n * 10 ≤ Span.longest.nanos := by
    rw [← unbounded_succ]
    exact Nat.le_of_not_lt fun above => fits ⟨below,above⟩
  have nanos : (b.capped n).nanos = b.unbounded n := Nat.min_eq_left (Nat.le_of_lt below)
  unfold next? Span.times?
  rw [nanos,if_pos below,if_pos product]
  refine congrArg some ?_
  show (⟨b.unbounded n * 10⟩ : Span).min b.max = _
  rw [capped,unbounded_succ,← Span.nanos_min]

theorem next_of_reached (reached : b.max.nanos ≤ b.unbounded n) : b.next? (b.capped n) = some (b.capped (n+1)) := by
  rw [capped_of_le reached,capped_of_le (Nat.le_trans reached (b.unbounded_le (Nat.le_succ n)))]
  unfold next?
  rw [if_neg (Nat.lt_irrefl _)]

theorem next_of_overflows (overflows : b.Overflows n) : b.next? (b.capped n) = none := by
  obtain ⟨below,above⟩ := overflows
  rw [unbounded_succ] at above
  have nanos : (b.capped n).nanos = b.unbounded n := Nat.min_eq_left (Nat.le_of_lt below)
  unfold next? Span.times?
  rw [nanos,if_pos below,if_neg (Nat.not_le_of_lt above)]
  rfl

/-- As long as no product was too long, there is a delay. -/
theorem delay_of_fits (ordered : b.initial.nanos ≤ b.max.nanos) (fits : ∀ k < n, ¬b.Overflows k) :
    b.delay? n = some (b.capped n) := by
  induction n with
  | zero =>
    have nanos : (b.capped 0).nanos = b.initial.nanos := by
      unfold capped
      rw [unbounded_zero]
      exact Nat.min_eq_left ordered
    exact congrArg (fun m => some (Span.mk m)) nanos.symm
  | succ n ih =>
    show (b.delay? n).bind b.next? = _
    rw [ih fun k earlier => fits k (Nat.lt_succ_of_lt earlier),Option.bind_some]
    rcases Nat.lt_or_ge (b.unbounded n) b.max.nanos with below | reached
    · exact next_of_below below (fits n (Nat.lt_succ_self n))
    · exact next_of_reached reached

/-- A product that is too long is the end of the sequence. -/
theorem delay_of_overflows (ordered : b.initial.nanos ≤ b.max.nanos) (overflows : b.Overflows k) (later : k < n) :
    b.delay? n = none := by
  induction n generalizing k with
  | zero => exact absurd later (Nat.not_lt_zero k)
  | succ n ih =>
    show (b.delay? n).bind b.next? = none
    by_cases before : ∃ j, j < n ∧ b.Overflows j
    · obtain ⟨j,earlier,overflows⟩ := before
      rw [ih overflows earlier]
      rfl
    · have fits : ∀ j < n, ¬b.Overflows j := fun j earlier overflows => before ⟨j,earlier,overflows⟩
      obtain rfl : k = n := (Nat.lt_succ_iff_lt_or_eq.mp later).resolve_left fun earlier => fits k earlier overflows
      rw [delay_of_fits ordered fits,Option.bind_some]
      exact next_of_overflows overflows

/-- There is a delay after so many looks unless a product was too long before. -/
theorem delay_eq_none_iff (ordered : b.initial.nanos ≤ b.max.nanos) (n : Nat) :
    b.delay? n = none ↔ ∃ k, k < n ∧ b.Overflows k := by
  constructor
  · intro none
    refine Classical.byContradiction fun before => ?_
    cases none.symm.trans (delay_of_fits ordered fun k earlier overflows => before ⟨k,earlier,overflows⟩)
  · rintro ⟨k,earlier,overflows⟩
    exact delay_of_overflows ordered overflows earlier

/-- A delay that there is has the length that it would have if spans could be of any length. -/
theorem eq_capped_of_delay (ordered : b.initial.nanos ≤ b.max.nanos) {d : Span} (here : b.delay? n = some d) :
    d = b.capped n := by
  by_cases fits : ∀ k < n, ¬b.Overflows k
  · exact Option.some.inj (here.symm.trans (delay_of_fits ordered fits))
  · refine absurd (fun k earlier overflows => ?_) fits
    cases here.symm.trans (delay_of_overflows ordered overflows earlier)

theorem capped_le (b : Backoff) (later : n ≤ k) : (b.capped n).nanos ≤ (b.capped k).nanos :=
  Nat.le_min.mpr ⟨Nat.le_trans (Nat.min_le_left _ _) (b.unbounded_le later),Nat.min_le_right _ _⟩

/-- The longest delay is reached unless the first one is none at all, or a product gets too long. -/
theorem reaches_iff (ordered : b.initial.nanos ≤ b.max.nanos) :
    (∃ n, ∀ m, n ≤ m → b.delay? m = some b.max) ↔
      (b.initial.nanos = 0 → b.max.nanos = 0) ∧ ∀ n, ¬b.Overflows n := by
  constructor
  · rintro ⟨n,stays⟩
    have here := stays n (Nat.le_refl n)
    refine ⟨fun none => ?_,fun k overflows => ?_⟩
    · have zero : b.unbounded n = 0 := by
        unfold unbounded
        rw [none,Nat.zero_mul]
      have same := congrArg Span.nanos (eq_capped_of_delay ordered here)
      exact Nat.le_zero.mp (Nat.le_trans (Nat.le_of_eq same) (Nat.le_trans (Nat.min_le_left _ _) (Nat.le_of_eq zero)))
    · cases (stays (n+(k+1)) (by omega)).symm.trans (delay_of_overflows ordered overflows (by omega))
  · rintro ⟨starts,fits⟩
    obtain ⟨n,reached⟩ : ∃ n, b.max.nanos ≤ b.unbounded n := by
      by_cases none : b.initial.nanos = 0
      · exact ⟨0,Nat.le_trans (Nat.le_of_eq (starts none)) (Nat.zero_le _)⟩
      · exact ⟨_,le_unbounded none _⟩
    refine ⟨n,fun m later => ?_⟩
    rw [delay_of_fits ordered fun k _ => fits k,capped_of_le (Nat.le_trans reached (b.unbounded_le later))]

/-- The delays for any two spans. There is one after so many looks unless ten times an earlier one, which was not the
    longest yet, is longer than any span. Each is ten times the one before it, up to the longest, so that none is shorter
    than an earlier one or longer than the longest. They come to the longest and stay there just if the first delay is not
    none at all, or the longest is, and no product is too long. -/
theorem delays_of_pollBackoff (s : Settings) (initial max : Span) :
    let b := ofSettings (s.withPollBackoff initial max)
    (∀ n, b.delay? n = none ↔ ∃ k, k < n ∧ initial.nanos * Nat.pow 10 k < b.max.nanos ∧
      Span.longest.nanos < initial.nanos * Nat.pow 10 (k+1)) ∧
    (∀ n d, b.delay? n = some d → d = ⟨Nat.min (initial.nanos * Nat.pow 10 n) b.max.nanos⟩ ∧ d.nanos ≤ b.max.nanos ∧
      ∀ m d', n ≤ m → b.delay? m = some d' → d.nanos ≤ d'.nanos) ∧
    ((∃ n, ∀ m, n ≤ m → b.delay? m = some b.max) ↔
      (initial.nanos = 0 → b.max.nanos = 0) ∧ ∀ n, b.delay? n ≠ none) := by
  intro b
  have ordered : b.initial.nanos ≤ b.max.nanos := s.initial_le_max initial max
  refine ⟨delay_eq_none_iff ordered,fun n d here => ?_,(reaches_iff ordered).trans (and_congr_right fun _ => ?_)⟩
  · obtain rfl := eq_capped_of_delay ordered here
    refine ⟨rfl,Nat.min_le_right _ _,fun m d' later there => ?_⟩
    obtain rfl := eq_capped_of_delay ordered there
    exact b.capped_le later
  · refine ⟨fun fits n none => ?_,fun delays n overflows => delays (n+1) ?_⟩
    · obtain ⟨k,-,overflows⟩ := (delay_eq_none_iff ordered n).mp none
      exact fits k overflows
    · exact delay_of_overflows ordered overflows (Nat.lt_succ_self n)

/-- Not all settings come to their longest delay. If the first one is none at all, so are all the others; and if ten times
    the first one is longer than any span, there is no second one. -/
theorem longest_missed :
    (∀ n, (ofSettings ((default : Settings).withPollBackoff ⟨0⟩ (.millis 100))).delay? n = some ⟨0⟩) ∧
    (ofSettings ((default : Settings).withPollBackoff (.seconds 0x2000000000000000) (.seconds 0x4000000000000000))).delay? 1 =
      none := by
  refine ⟨fun n => ?_,by decide⟩
  induction n with
  | zero => rfl
  | succ n ih =>
    show (Option.bind _ _) = _
    rw [ih]
    rfl

end Backoff

end ScriptHost
