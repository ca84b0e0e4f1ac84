import ScriptHost.Number
import ScriptHost.Proofs.Json.Strings
/-!
Numerals in JSON texts. Before a delimiter the reader of numbers goes over every numeral of the grammar to its end,
whatever it counts on the way, and then it has a number, the same one everywhere, or the number is out of range everywhere
(`passes_number`). The texts of finite numbers are numerals (`signed_text`).
-/
namespace ScriptHost.Json.Reader
variable {α β : Type}

/-- A byte that ends a number inside a list or an object. -/
def Closes (d : UInt8) : Prop := d = 44 ∨ d = 93 ∨ d = 125

/-- Nothing follows, or a delimiter does. -/
def Delimited (rest : List UInt8) : Prop := ∀ d more, rest = d :: more → Closes d

/-! ### The grammar -/

/-- Digits and nothing else. -/
def Digits (bytes : List UInt8) : Prop := ∀ b ∈ bytes, isDigit b = true

/-- An exponent, or none. -/
inductive Power : List UInt8 → Prop
  | without : Power []
  | signed {sign b : UInt8} {bytes : List UInt8} (either : sign = 43 ∨ sign = 45) (digits : Digits (b :: bytes)) :
    Power (101 :: sign :: b :: bytes)

/-- Digits behind a point, or none, and then an exponent. -/
inductive Fraction : List UInt8 → Prop
  | without {rest : List UInt8} (power : Power rest) : Fraction rest
  | point {b : UInt8} {bytes rest : List UInt8} (digits : Digits (b :: bytes)) (power : Power rest) :
    Fraction (46 :: b :: (bytes ++ rest))

/-- A number without a sign; only zero begins with a zero. -/
inductive Numeral : List UInt8 → Prop
  | zero {rest : List UInt8} (fraction : Fraction rest) : Numeral (48 :: rest)
  | digits {b : UInt8} {bytes rest : List UInt8} (other : b ≠ 48) (digits : Digits (b :: bytes))
    (fraction : Fraction rest) : Numeral (b :: (bytes ++ rest))

/-- A number, perhaps behind a sign. -/
def Signed (bytes : List UInt8) : Prop := Numeral bytes ∨ ∃ left, bytes = 45 :: left ∧ Numeral left

/-! ### Going over bytes -/

/-- Before these bytes the reader refuses a number that is out of range. -/
def Overflows (m : Reader α) (bytes : List UInt8) : Prop := ∀ text pos, At text pos bytes →
  ∃ place stop, m text pos = .refused ⟨.numberRange,place⟩ stop

/-- Whatever delimiter is behind these bytes, the reader takes them and comes to the same value, or it refuses a number. -/
def Passes (m : Reader α) (bytes : List UInt8) : Prop :=
  (∃ a, ∀ rest, Delimited rest → Takes m bytes rest a) ∨ ∀ rest, Delimited rest → Overflows m (bytes ++ rest)

section
variable {m : Reader α} {f : α → Reader β} {g : Option UInt8 → Reader α} {taken bytes : List UInt8} {a : α}

theorem Takes.overflows (takes : Takes m taken bytes a) (then_ : Overflows (f a) bytes) :
    Overflows (m >>= f) (taken ++ bytes) := by
  intro text pos stands
  rw [bind_ok (takes text pos stands)]
  exact then_ text _ stands.beyond

theorem Overflows.first (first : Overflows m bytes) : Overflows (m >>= f) bytes := by
  intro text pos stands
  obtain ⟨place,stop,range⟩ := first text pos stands
  refine ⟨place,stop,?_⟩
  rw [bind_apply,range]

theorem Overflows.placed (overflows : Overflows m bytes) : Overflows (placed m) bytes := by
  intro text pos stands
  obtain ⟨place,stop,range⟩ := overflows text pos stands
  unfold Reader.placed
  rw [range]
  cases place with
  | none => exact ⟨_,_,rfl⟩
  | some place => exact ⟨_,_,rfl⟩

theorem passes_pure (a : α) : Passes (pure a) [] := .inl ⟨a,fun rest _ => takes_pure a rest⟩

theorem passes_range : Passes (refuse .numberRange : Reader α) bytes := .inr fun _ _ _ _ _ => ⟨_,_,rfl⟩

theorem passes_bind (first : ∀ rest, Delimited rest → Takes m taken (bytes ++ rest) a) (then_ : Passes (f a) bytes) :
    Passes (m >>= f) (taken ++ bytes) := by
  rcases then_ with ⟨b,takes⟩ | overflows
  · exact .inl ⟨b,fun rest closes => (first rest closes).bind (takes rest closes)⟩
  · refine .inr fun rest closes => ?_
    rw [List.append_assoc]
    exact (first rest closes).overflows (overflows rest closes)

/-- A reader that takes nothing comes first. -/
theorem passes_look (first : ∀ rest, Delimited rest → Takes m [] (bytes ++ rest) a) (then_ : Passes (f a) bytes) :
    Passes (m >>= f) bytes := passes_bind first then_

/-- The next byte is looked at, and a delimiter is as good as the end. -/
theorem passes_peek_end (same : ∀ d, Closes d → g (some d) = g none) (then_ : Passes (g none) []) :
    Passes (peek >>= g) [] := by
  have looks : ∀ rest, Delimited rest → ∃ d, Takes peek [] rest d ∧ g d = g none := by
    intro rest closes
    cases rest with
    | nil => exact ⟨none,takes_peek_end,rfl⟩
    | cons d more => exact ⟨some d,takes_peek d more,same d (closes d more rfl)⟩
  rcases then_ with ⟨a,takes⟩ | overflows
  · refine .inl ⟨a,fun rest closes => ?_⟩
    obtain ⟨d,looks,same⟩ := looks rest closes
    exact looks.look (same ▸ takes rest closes)
  · refine .inr fun rest closes => ?_
    obtain ⟨d,looks,same⟩ := looks rest closes
    exact looks.overflows (same ▸ overflows rest closes)

theorem passes_peek (b : UInt8) (then_ : Passes (g (some b)) (b :: bytes)) : Passes (peek >>= g) (b :: bytes) :=
  passes_look (fun rest _ => takes_peek b (bytes ++ rest)) then_

theorem passes_next (b : UInt8) (then_ : Passes (g (some b)) bytes) : Passes (next >>= g) (b :: bytes) :=
  passes_bind (fun rest _ => takes_next b (bytes ++ rest)) then_

theorem passes_skip (b : UInt8) {h : Unit → Reader α} (then_ : Passes (h ()) bytes) : Passes (skip >>= h) (b :: bytes) :=
  passes_bind (fun rest _ => takes_skip b (bytes ++ rest)) then_

end

/-! ### Digits -/

/-- The digit that bytes begin with. -/
def digit? : List UInt8 → Option Nat
  | [] => none
  | b :: _ => if isDigit b then some (b.toNat-48) else none

theorem takes_peekDigit (rest : List UInt8) : Takes peekDigit [] rest (digit? rest) := by
  unfold peekDigit
  cases rest with
  | nil =>
    refine takes_peek_end.look ?_
    exact takes_pure none []
  | cons b rest =>
    refine (takes_peek b rest).look ?_
    exact takes_pure _ _

theorem digit_of_delimited {rest : List UInt8} (closes : Delimited rest) : digit? rest = none := by
  cases rest with
  | nil => rfl
  | cons d more => rcases closes d more rfl with rfl | rfl | rfl <;> rfl

theorem digit_append (bytes : List UInt8) {rest : List UInt8} (closes : Delimited rest) :
    digit? (bytes ++ rest) = digit? bytes := by
  cases bytes with
  | nil => exact digit_of_delimited closes
  | cons b bytes => rfl

theorem Power.digit {bytes : List UInt8} (power : Power bytes) : digit? bytes = none := by
  cases power with
  | without => rfl
  | signed => rfl

theorem Fraction.digit {bytes : List UInt8} (fraction : Fraction bytes) : digit? bytes = none := by
  cases fraction with
  | without power => exact power.digit
  | point => rfl

/-- A loop over digits, at each of its states: at anything else it ends, and at a digit it ends, passes over it and ends,
    or passes over it and goes on in another state. Where it ends at a digit, it is told by its value. -/
structure Loops {σ : Type} (loop : σ → Nat → Reader α) (early : α → Prop) : Prop where
  stops : ∀ s, ∃ a, ∀ n text pos, peekDigit text pos = .ok none pos → loop s (n+1) text pos = .ok a pos
  goes : ∀ s d,
    (∃ a, early a ∧ ∀ n text pos, peekDigit text pos = .ok (some d) pos → loop s (n+1) text pos = .ok a pos) ∨
    (∃ a, early a ∧ ∀ n text pos, peekDigit text pos = .ok (some d) pos → loop s (n+1) text pos = .ok a (pos+1)) ∨
    ∃ (t : σ) (h : α → α), (∀ a, early a → early (h a)) ∧ ∀ n text pos, peekDigit text pos = .ok (some d) pos →
      loop s (n+1) text pos = (loop t n >>= fun a => pure (h a)) text (pos+1)

section
variable {m : Reader α} {f : α → Reader β} {bytes rest : List UInt8} {σ : Type} {loop : σ → Nat → Reader α}
  {early : α → Prop}

/-- A loop over digits takes them all, or it is told that it has ended early. -/
theorem Loops.over (loops : Loops loop early) (digits : Digits bytes) (s : σ) : ∃ a taken left, bytes = taken ++ left ∧
    (left = [] ∨ early a) ∧ ∀ rest, digit? rest = none → ∀ n, (bytes ++ rest).length < n →
      Takes (loop s n) taken (left ++ rest) a := by
  induction bytes generalizing s with
  | nil =>
    obtain ⟨a,stops⟩ := loops.stops s
    refine ⟨a,[],[],rfl,.inl rfl,fun rest ends n enough text pos stands => ?_⟩
    obtain ⟨n,rfl⟩ : ∃ k, n = k+1 := ⟨n-1,by omega⟩
    exact stops n text pos (ends ▸ takes_peekDigit rest text pos stands)
  | cons b bytes ih =>
    have digit := digits b List.mem_cons_self
    have looks : ∀ {rest text pos}, At text pos (b :: bytes ++ rest) →
        peekDigit text pos = .ok (some (b.toNat-48)) pos := by
      intro rest text pos stands
      have found := takes_peekDigit (b :: bytes ++ rest) text pos stands
      simpa only [List.cons_append,digit?,digit,if_true,List.length_nil,Nat.add_zero] using found
    rcases loops.goes s (b.toNat-48) with ⟨a,early,ends⟩ | ⟨a,early,ends⟩ | ⟨t,h,keeps,goes⟩
    · refine ⟨a,[],b :: bytes,rfl,.inr early,fun rest _ n enough text pos stands => ?_⟩
      obtain ⟨n,rfl⟩ : ∃ k, n = k+1 := ⟨n-1,by omega⟩
      exact ends n text pos (looks stands)
    · refine ⟨a,[b],bytes,rfl,.inr early,fun rest _ n enough text pos stands => ?_⟩
      obtain ⟨n,rfl⟩ : ∃ k, n = k+1 := ⟨n-1,by omega⟩
      exact ends n text pos (looks stands)
    · obtain ⟨a,taken,left,rfl,all,takes⟩ := ih (fun c member => digits c (List.mem_cons_of_mem b member)) t
      refine ⟨h a,b :: taken,left,rfl,all.imp_right (keeps a),fun rest ends n enough text pos stands => ?_⟩
      obtain ⟨n,rfl⟩ : ∃ k, n = k+1 := ⟨n-1,by omega⟩
      have inner := takes rest ends n (by simp only [List.cons_append,List.length_cons] at enough; omega)
      rw [← List.append_assoc,List.cons_append,List.cons_append] at stands
      have stands' : At text (pos+1) (taken ++ (left ++ rest)) := by
        rw [← List.append_assoc]
        exact stands.next.2
      rw [goes n text pos (looks stands),bind_ok (inner text (pos+1) stands'),List.length_cons]
      show Reply.ok (h a) _ = _
      rw [Nat.add_assoc,Nat.add_comm 1]

/-- A loop over digits is gone on from, behind the digits or behind some of them. -/
theorem Loops.passes (loops : Loops loop early) (digits : Digits bytes) (ends : digit? rest = none) (s : σ)
    (then_ : ∀ a left, Digits left → left = [] ∨ early a → Passes (f a) (left ++ rest)) :
    Passes (bound >>= fun n => loop s n >>= f) (bytes ++ rest) := by
  obtain ⟨a,taken,left,rfl,all,takes⟩ := loops.over digits s
  have left_ : Digits left := fun b member => digits b (List.mem_append_right taken member)
  have first : ∀ more, Delimited more → Takes (bound >>= loop s) taken (left ++ rest ++ more) a := by
    intro more closes
    have takes := takes (rest ++ more) ((digit_append rest closes).trans ends)
    simp only [List.append_assoc] at takes ⊢
    exact takes_bound takes
  rw [List.append_assoc]
  exact passes_bind (m := bound >>= loop s) first (then_ a left left_ all)

end

theorem bind_pure_id (m : Reader α) (text : ByteArray) (pos : Nat) : (m >>= fun a => pure (id a)) text pos = m text pos := by
  rw [bind_apply]
  cases m text pos <;> rfl

theorem loops_skipDigits : Loops (fun (_ : Unit) => skipDigits) fun _ => False where
  stops := fun _ => ⟨0,fun n text pos none_ => by simp only [skipDigits,bind_ok none_]; rfl⟩
  goes := fun _ d => .inr (.inr ⟨(),(· + 1),fun _ => id,fun n text pos some_ => by
    simp only [skipDigits,bind_ok some_]
    rfl⟩)

theorem loops_wholeDigits : Loops (fun digits n => wholeDigits n digits) (·.2 = true) where
  stops := fun digits => ⟨(digits,false),fun n text pos none_ => by simp only [wholeDigits,bind_ok none_]; rfl⟩
  goes := by
    intro digits d
    by_cases full : digits*10+d > maxWord
    · refine .inl ⟨(digits,true),rfl,fun n text pos some_ => ?_⟩
      simp only [wholeDigits,bind_ok some_,if_pos full]
      rfl
    · refine .inr (.inr ⟨digits*10+d,id,fun _ => id,fun n text pos some_ => ?_⟩)
      rw [bind_pure_id]
      simp only [wholeDigits,bind_ok some_,if_neg full]
      rfl

theorem loops_fraction : Loops (fun (s : Nat × Nat) n => fraction n s.1 s.2) (·.2.2 = true) where
  stops := fun s => ⟨(s.1,s.2,false),fun n text pos none_ => by simp only [fraction,bind_ok none_]; rfl⟩
  goes := by
    intro s d
    by_cases full : s.1*10+d > maxWord
    · refine .inl ⟨(s.1,s.2,true),rfl,fun n text pos some_ => ?_⟩
      simp only [fraction,bind_ok some_,if_pos full]
      rfl
    · refine .inr (.inr ⟨(s.1*10+d,s.2+1),id,fun _ => id,fun n text pos some_ => ?_⟩)
      rw [bind_pure_id]
      simp only [fraction,bind_ok some_,if_neg full]
      rfl

theorem loops_exponentDigits : Loops (fun e n => exponentDigits n e) (· = none) where
  stops := fun e => ⟨some e,fun n text pos none_ => by simp only [exponentDigits,bind_ok none_]; rfl⟩
  goes := by
    intro e d
    by_cases beyond : e*10+d > maxExponent
    · refine .inr (.inl ⟨none,rfl,fun n text pos some_ => ?_⟩)
      simp only [exponentDigits,bind_ok some_,if_pos beyond]
      rfl
    · refine .inr (.inr ⟨e*10+d,id,fun _ => id,fun n text pos some_ => ?_⟩)
      rw [bind_pure_id]
      simp only [exponentDigits,bind_ok some_,if_neg beyond]
      rfl

/-! ### Numbers -/

/-- Digits that do not count are passed over. -/
theorem passes_skipDigits {f : Nat → Reader β} {bytes rest : List UInt8} (digits : Digits bytes) (ends : digit? rest = none)
    (then_ : ∀ n, Passes (f n) rest) : Passes (bound >>= fun n => skipDigits n >>= f) (bytes ++ rest) :=
  loops_skipDigits.passes digits ends () fun n left _ all => by
    rw [all.resolve_right id]
    exact then_ n

theorem passes_finish (positive : Bool) (digits : Nat) (e : Int) : Passes (finish positive digits e) [] := by
  have ranged : ∀ cause, scaleFloat digits e = .error cause → cause = .numberRange := by
    unfold scaleFloat
    intro cause
    dsimp only
    split_ifs <;> intro same <;> cases same <;> rfl
  unfold finish
  cases scaled : scaleFloat digits e with
  | ok x => exact passes_pure _
  | error cause =>
    rw [ranged cause scaled]
    exact passes_range

/-- The digits of an exponent are counted, unless they are beyond counting. -/
theorem passes_power (positive up : Bool) (digits : Nat) (start : Int) {b : UInt8} {bytes : List UInt8}
    (run : Digits (b :: bytes)) : Passes (do
      match ← next with
      | none => refuse .endInValue
      | some b =>
        if isDigit b then do
          match ← exponentDigits (← bound) (b.toNat - 48) with
          | some e => finish positive digits (if up then start + e else start - e)
          | none =>
            if digits ≠ 0 && up then refuse .numberRange
            else do
              let _ ← skipDigits (← bound)
              return .float (if positive then 0.0 else -0.0)
        else refuse .badNumber : Reader Json) (b :: bytes) := by
  have digit := run b List.mem_cons_self
  have more : Digits bytes := fun c member => run c (List.mem_cons_of_mem b member)
  refine passes_next b ?_
  simp only [digit,if_true]
  rw [← List.append_nil bytes]
  refine loops_exponentDigits.passes more rfl _ fun e left digits' all => ?_
  cases e with
  | some e =>
    rw [all.resolve_right nofun]
    exact passes_finish positive digits _
  | none =>
    by_cases beyond : (decide (digits ≠ 0) && up) = true
    · simp only [beyond,if_true]
      exact passes_range
    · simp only [beyond,Bool.false_eq_true,if_false]
      exact passes_skipDigits digits' rfl fun _ => passes_pure _

theorem passes_exponent (positive : Bool) (digits : Nat) (start : Int) {sign b : UInt8} {bytes : List UInt8}
    (either : sign = 43 ∨ sign = 45) (run : Digits (b :: bytes)) :
    Passes (exponent positive digits start) (101 :: sign :: b :: bytes) := by
  unfold exponent
  refine passes_skip 101 ?_
  refine passes_peek sign ?_
  rcases either with rfl | rfl
  · exact passes_skip 43 (passes_power positive true digits start run)
  · exact passes_skip 45 (passes_power positive false digits start run)

theorem passes_exponentOrEnd (positive : Bool) (digits : Nat) (e : Int) {rest : List UInt8} (power : Power rest) :
    Passes (exponentOrEnd positive digits e) rest := by
  unfold exponentOrEnd
  cases power with
  | without => exact passes_peek_end (by rintro d (rfl | rfl | rfl) <;> rfl) (passes_finish positive digits e)
  | signed either run => exact passes_peek 101 (passes_exponent positive digits e either run)

theorem of_bind_ok {m : Reader α} {f : α → Reader β} {text : ByteArray} {i j : Nat} {b : β} (ok : (m >>= f) text i = .ok b j) :
    ∃ a k, m text i = .ok a k ∧ f a text k = .ok b j := by
  rw [bind_apply] at ok
  cases same : m text i with
  | ok a k => exact ⟨a,k,rfl,by rwa [same] at ok⟩
  | refused why k =>
    rw [same] at ok
    cases ok

theorem peekDigit_stays {text : ByteArray} {pos stop : Nat} {d : Option Nat} (ok : peekDigit text pos = .ok d stop) :
    stop = pos := by
  unfold peekDigit at ok
  obtain ⟨b,k,looked,after⟩ := of_bind_ok ok
  cases looked
  split_ifs at after <;> cases after <;> rfl

/-- A fraction is counted by the digits that are taken. -/
theorem fraction_counts {n digits count : Nat} {text : ByteArray} {pos stop : Nat} {r : Nat × Nat × Bool}
    (ok : fraction n digits count text pos = .ok r stop) : pos + r.2.1 = stop + count := by
  induction n generalizing digits count pos with
  | zero =>
    cases ok
    rfl
  | succ n ih =>
    obtain ⟨d,k,looked,after⟩ := of_bind_ok ok
    obtain rfl := peekDigit_stays looked
    cases d with
    | none =>
      cases after
      rfl
    | some d =>
      dsimp only at after
      split_ifs at after with full
      · cases after
        rfl
      · have after : fraction n (digits*10+d) (count+1) text (k+1) = .ok r stop := after
        have counts := ih after
        omega

/-- The digits of a fraction are all taken, and there are some, or those that are taken do not leave room for more. -/
theorem fraction_over {b : UInt8} {bytes : List UInt8} (run : Digits (b :: bytes)) (digits : Nat) :
    ∃ more count full taken left, b :: bytes = taken ++ left ∧ (full = false → left = [] ∧ count ≠ 0) ∧
      ∀ rest, digit? rest = none → Takes (bound >>= fun n => fraction n digits 0) taken (left ++ rest) (more,count,full) := by
  obtain ⟨⟨more,count,full⟩,taken,left,split,all,takes⟩ := loops_fraction.over run (digits,0)
  rw [split] at takes
  simp only [List.append_assoc] at takes
  refine ⟨more,count,full,taken,left,split,fun incomplete => ?_,fun rest ends => takes_bound (takes rest ends)⟩
  obtain rfl := all.resolve_right (by simp [incomplete])
  -- How many digits are counted does not depend on the text.
  have stands : At ⟨(taken ++ ([] ++ [])).toArray⟩ 0 (taken ++ ([] ++ [])) := ⟨Nat.zero_le _,rfl⟩
  have counts := fraction_counts (takes [] rfl _ (Nat.lt_succ_self _) _ _ stands)
  have some_ : 0 < taken.length := by
    rw [List.append_nil] at split
    rw [← split]
    exact Nat.succ_pos _
  refine ⟨rfl,?_⟩
  dsimp only at counts
  omega

theorem passes_decimal (positive : Bool) (digits : Nat) (before : Int) {b : UInt8} {bytes rest : List UInt8}
    (run : Digits (b :: bytes)) (power : Power rest) :
    Passes (decimal positive digits before) (46 :: b :: (bytes ++ rest)) := by
  obtain ⟨more,count,full,taken,left,split,all,takes⟩ := fraction_over run digits
  have left_ : Digits left := fun c member => run c (split ▸ List.mem_append_right taken member)
  have whole : b :: (bytes ++ rest) = taken ++ (left ++ rest) := by
    rw [← List.append_assoc,← split,List.cons_append]
  have first : ∀ last, Delimited last →
      Takes (bound >>= fun n => fraction n digits 0) taken (left ++ rest ++ last) (more,count,full) := by
    intro last closes
    rw [List.append_assoc]
    exact takes _ ((digit_append rest closes).trans power.digit)
  unfold decimal
  refine passes_skip 46 ?_
  rw [whole]
  refine passes_bind (m := bound >>= fun n => fraction n digits 0) first ?_
  cases full with
  | true => exact passes_skipDigits left_ power.digit fun _ => passes_exponentOrEnd positive more _ power
  | false =>
    obtain ⟨rfl,some_⟩ := all rfl
    simp only [Bool.false_eq_true,if_false,some_]
    exact passes_exponentOrEnd positive more _ power

theorem passes_rest (positive : Bool) (digits : Nat) {rest : List UInt8} (fraction : Fraction rest) :
    Passes (number.rest positive digits) rest := by
  unfold number.rest
  cases fraction with
  | point run power => exact passes_peek 46 (passes_decimal positive digits 0 run power)
  | without power =>
    cases power with
    | signed either run => exact passes_peek 101 (passes_exponent positive digits 0 either run)
    | without =>
      refine passes_peek_end (by rintro d (rfl | rfl | rfl) <;> rfl) ?_
      dsimp only
      split_ifs <;> exact passes_pure _

theorem passes_number (positive : Bool) {bytes : List UInt8} (numeral : Numeral bytes) : Passes (number positive) bytes := by
  unfold number
  cases numeral with
  | @zero rest fraction =>
    have looks : ∀ last, Delimited last → Takes peekDigit [] (rest ++ last) none := by
      intro last closes
      have found := takes_peekDigit (rest ++ last)
      rwa [digit_append rest closes,fraction.digit] at found
    exact passes_next 48 (passes_look looks (passes_rest positive 0 fraction))
  | @digits b bytes rest other run fraction =>
    refine passes_next b ?_
    have digit := run b List.mem_cons_self
    have more : Digits bytes := fun c member => run c (List.mem_cons_of_mem b member)
    simp only [other,if_false,digit,if_true]
    refine loops_wholeDigits.passes more fraction.digit (b.toNat-48) fun read left left_ all => ?_
    obtain ⟨digits,full⟩ := read
    cases full with
    | false =>
      rw [all.resolve_right nofun]
      exact passes_rest positive digits fraction
    | true =>
      refine passes_skipDigits left_ fraction.digit fun more => ?_
      cases fraction with
      | point run power => exact passes_peek 46 (passes_decimal positive digits more run power)
      | without power =>
        have rest := passes_exponentOrEnd positive digits more power
        cases power with
        | without => exact passes_peek_end (by rintro d (rfl | rfl | rfl) <;> rfl) rest
        | signed => exact passes_peek 101 rest

/-! ### Values -/

theorem digit_mem {b : UInt8} (digit : isDigit b = true) : b ∈ ([48,49,50,51,52,53,54,55,56,57] : List UInt8) := by
  simp only [isDigit,Bool.and_eq_true,decide_eq_true_eq] at digit
  have each : ∀ n < 58, 48 ≤ n → UInt8.ofNat n ∈ ([48,49,50,51,52,53,54,55,56,57] : List UInt8) := by decide
  have large : 48 ≤ b.toNat := UInt8.le_iff_toNat_le.mp digit.1
  have small : b.toNat ≤ 57 := UInt8.le_iff_toNat_le.mp digit.2
  have member := each b.toNat (by omega) large
  rwa [UInt8.ofNat_toNat] at member

theorem digit_facts {b : UInt8} (digit : isDigit b = true) : isBlank b = false ∧ b ≠ 93 ∧ b < 128 := by
  have member := digit_mem digit
  simp only [List.mem_cons,List.not_mem_nil,or_false] at member
  rcases member with rfl | rfl | rfl | rfl | rfl | rfl | rfl | rfl | rfl | rfl <;> decide

/-- What reading a value comes to before a sign and before a digit. -/
theorem value_eq (n : Nat) : ∃ next : Option UInt8 → Reader Json, value (n+1) = placed (token >>= next) ∧
    next (some 45) = (do skip; number false) ∧ ∀ b, isDigit b = true → next (some b) = number true := by
  refine ⟨_,rfl,rfl,fun b digit => ?_⟩
  have member := digit_mem digit
  simp only [List.mem_cons,List.not_mem_nil,or_false] at member
  rcases member with rfl | rfl | rfl | rfl | rfl | rfl | rfl | rfl | rfl | rfl <;> rfl

theorem Numeral.head {bytes : List UInt8} (numeral : Numeral bytes) : ∃ b left, bytes = b :: left ∧ isDigit b = true := by
  cases numeral with
  | zero => exact ⟨_,_,rfl,rfl⟩
  | digits other run => exact ⟨_,_,rfl,run _ List.mem_cons_self⟩

/-- Where a value is read as something that does not depend on how deep it is, it is the same value at any depth. -/
theorem reads_of_passes {b : UInt8} {left : List UInt8} {m : Reader Json} (visible : isBlank b = false)
    (each : ∀ n, ∃ next : Option UInt8 → Reader Json, value (n+1) = placed (token >>= next) ∧ next (some b) = m)
    (passes : Passes m (b :: left)) :
    (∃ json, ∀ rest, Delimited rest → ∀ n, Takes (value (n+1)) (b :: left) rest json) ∨
      ∀ n, Overflows (value (n+1)) (b :: left) := by
  rcases passes with ⟨json,takes⟩ | overflows
  · refine .inl ⟨json,fun rest closes n => ?_⟩
    obtain ⟨next,same,here⟩ := each n
    rw [same]
    exact Takes.placed ((takes_token visible (left ++ rest)).look (here ▸ takes rest closes))
  · refine .inr fun n => ?_
    obtain ⟨next,same,here⟩ := each n
    have overflows := overflows [] nofun
    rw [List.append_nil] at overflows
    rw [same]
    exact Overflows.placed ((takes_token visible left).overflows (here ▸ overflows))

theorem reads_value {bytes : List UInt8} (signed : Signed bytes) :
    (∃ json, ∀ rest, Delimited rest → ∀ n, Takes (value (n+1)) bytes rest json) ∨ ∀ n, Overflows (value (n+1)) bytes := by
  rcases signed with numeral | ⟨left,rfl,numeral⟩
  · obtain ⟨b,left,rfl,digit⟩ := numeral.head
    refine reads_of_passes (digit_facts digit).1 (fun n => ?_) (passes_number true numeral)
    obtain ⟨next,same,-,number⟩ := value_eq n
    exact ⟨next,same,number b digit⟩
  · have behind : Passes (do skip; number false) (45 :: left) := passes_skip 45 (passes_number false numeral)
    refine reads_of_passes rfl (fun n => ?_) behind
    obtain ⟨next,same,sign,-⟩ := value_eq n
    exact ⟨next,same,sign⟩

/-- A numeral that is read alone is read inside a text too. -/
theorem parse_signed {text : String} (signed : Signed (bytesOf text.toList)) :
    (∃ json, parse text = .ok json ∧ ∀ rest, Delimited rest → ∀ n, Takes (value (n+1)) (bytesOf text.toList) rest json) ∨
      ∃ place, parse text = .error ⟨.numberRange,place⟩ := by
  rcases reads_value signed with ⟨json,takes⟩ | overflows
  · refine .inl ⟨json,run_of_takes ?_,takes⟩
    rw [toUTF8_eq]
    refine (takes [] nofun 127).last ?_
    exact takes_textEnd.look (takes_pure json [])
  · have whole : Overflows (value levels >>= fun v => textEnd >>= fun _ => pure v) (bytesOf text.toList) :=
      (overflows 127).first
    obtain ⟨place,stop,range⟩ := whole text.toUTF8 0 ⟨Nat.zero_le _,toUTF8_eq text⟩
    refine .inr ⟨place,?_⟩
    unfold parse run
    rw [range]

/-! ### Texts of numbers -/

theorem encode_digit {c : Char} (digit : c.isDigit = true) :
    ∃ b, String.utf8EncodeChar c = [b] ∧ isDigit b = true ∧ (c ≠ '0' → b ≠ 48) := by
  simp only [Char.isDigit,Bool.and_eq_true,decide_eq_true_eq,ge_iff_le] at digit
  have large : 48 ≤ c.toNat := UInt32.le_iff_toNat_le.mp digit.1
  have small : c.toNat ≤ 57 := UInt32.le_iff_toNat_le.mp digit.2
  have each : ∀ n < 58, 48 ≤ n → String.utf8EncodeChar (Char.ofNat n) = [UInt8.ofNat n] ∧ isDigit (UInt8.ofNat n) = true ∧
      (Char.ofNat n ≠ '0' → UInt8.ofNat n ≠ 48) := by decide
  have here := each c.toNat (by omega) large
  rw [Char.ofNat_toNat] at here
  exact ⟨_,here⟩

theorem digits_bytes {cs : List Char} (digits : ∀ c ∈ cs, c.isDigit = true) : Digits (bytesOf cs) := by
  intro b member
  obtain ⟨c,inside,encoded⟩ := List.mem_flatMap.mp member
  obtain ⟨d,same,digit,-⟩ := encode_digit (digits c inside)
  rw [same,List.mem_singleton] at encoded
  exact encoded ▸ digit

theorem bytes_digit {c : Char} {b : UInt8} (encoded : String.utf8EncodeChar c = [b]) (cs : List Char) :
    bytesOf (c :: cs) = b :: bytesOf cs := by
  show String.utf8EncodeChar c ++ bytesOf cs = _
  rw [encoded]
  rfl

theorem numeral_whole {c : Char} {cs : List Char} {rest : List UInt8} (digits : ∀ d ∈ c :: cs, d.isDigit = true)
    (other : c ≠ '0') (fraction : Fraction rest) : Numeral (bytesOf (c :: cs) ++ rest) := by
  obtain ⟨b,encoded,-,other'⟩ := encode_digit (digits c List.mem_cons_self)
  have run := digits_bytes digits
  rw [bytes_digit encoded] at run ⊢
  exact .digits (other' other) run fraction

theorem fraction_point {cs : List Char} {rest : List UInt8} (digits : ∀ d ∈ cs, d.isDigit = true) (some_ : cs ≠ [])
    (power : Power rest) : Fraction (bytesOf ('.' :: cs) ++ rest) := by
  cases cs with
  | nil => exact absurd rfl some_
  | cons c cs =>
    obtain ⟨b,encoded,-,-⟩ := encode_digit (digits c List.mem_cons_self)
    have run := digits_bytes digits
    have point : bytesOf ('.' :: c :: cs) = 46 :: bytesOf (c :: cs) := rfl
    rw [point,bytes_digit encoded] at *
    exact .point run power

/-- Only zero begins with a zero. -/
theorem toDigits_head (n : Nat) (some_ : n ≠ 0) : ∃ c cs, Nat.toDigits 10 n = c :: cs ∧ c ≠ '0' := by
  induction n using Nat.strongRecOn with
  | ind n ih =>
    by_cases small : n < 10
    · have each : ∀ n < 10, n ≠ 0 → Nat.digitChar n ≠ '0' := by decide
      exact ⟨_,[],Nat.toDigits_of_lt_base small,each n small some_⟩
    · obtain ⟨c,cs,same,other⟩ := ih (n/10) (by omega) (by omega)
      rw [Nat.toDigits_of_base_le (by decide) (by omega),same]
      exact ⟨c,_,rfl,other⟩

theorem digits_toDigits (n : Nat) : ∀ c ∈ Nat.toDigits 10 n, c.isDigit = true :=
  fun _ member => Nat.isDigit_of_mem_toDigits (by decide) (by decide) member

theorem power_bytes {mark : String} (marked : mark = "e-" ∨ mark = "e+") (n : Nat) :
    Power (bytesOf (mark ++ toString n).toList) := by
  have shown : (toString n).toList = Nat.toDigits 10 n := by rw [Nat.toString_eq_ofList_toDigits,String.toList_ofList]
  have digits := digits_toDigits n
  rw [String.toList_append,bytesOf_append,shown]
  cases same : Nat.toDigits 10 n with
  | nil => exact absurd same Nat.toDigits_ne_nil
  | cons c cs =>
    rw [same] at digits
    obtain ⟨b,encoded,-,-⟩ := encode_digit (digits c List.mem_cons_self)
    have run := digits_bytes digits
    rw [bytes_digit encoded] at run ⊢
    rcases marked with rfl | rfl
    · exact .signed (.inr rfl) run
    · exact .signed (.inl rfl) run

/-- A point is behind the first of the digits, if there are more. -/
theorem numeral_mantissa {c : Char} {cs : List Char} {rest : List UInt8} (digits : ∀ d ∈ c :: cs, d.isDigit = true)
    (other : c ≠ '0') (power : Power rest) : Numeral (bytesOf (match c :: cs with
      | [] => []
      | [d] => [d]
      | d :: rest => d :: '.' :: rest) ++ rest) := by
  cases cs with
  | nil => exact numeral_whole digits other (.without power)
  | cons e es =>
    have first : ∀ d ∈ [c], d.isDigit = true := fun d member => digits d (List.mem_singleton.mp member ▸ List.mem_cons_self)
    have more : ∀ d ∈ e :: es, d.isDigit = true := fun d member => digits d (List.mem_cons_of_mem c member)
    have whole := numeral_whole first other (fraction_point more (List.cons_ne_nil e es) power)
    rwa [← List.append_assoc,← bytesOf_append] at whole

theorem numeral_positive (l : Decimal.Layout) (plain : l.pointZero = false) (d : Decimal) :
    Numeral (bytesOf (l.positive d).toList) := by
  unfold Decimal.Layout.positive
  simp only [plain,Bool.false_eq_true,if_false]
  by_cases zero : d.digits = 0
  · rw [if_pos zero]
    exact .zero (.without .without)
  obtain ⟨c,cs,same,other⟩ := toDigits_head d.digits zero
  have digits := digits_toDigits d.digits
  have zeros : ∀ n, ∀ e ∈ List.replicate n '0', e.isDigit = true := by
    intro n e member
    rw [(List.mem_replicate.mp member).2]
    rfl
  rw [if_neg zero,same] at *
  split_ifs with whole inner small negative
  · have more := List.forall_mem_append.mpr ⟨digits,zeros d.scale.toNat⟩
    have run := numeral_whole more other (.without .without)
    rwa [String.append_empty,String.toList_ofList,← List.append_nil (bytesOf _)]
  · -- Some of the digits are in front of the point and some are behind it, since there is a negative scale.
    obtain ⟨n,place⟩ : ∃ n : Nat, (((c :: cs).length : Int) + d.scale).toNat = n+1 :=
      ⟨(((c :: cs).length : Int) + d.scale).toNat - 1,by omega⟩
    have before : ∀ e ∈ c :: cs.take n, e.isDigit = true := fun e member =>
      digits e (List.mem_of_mem_take (i := n+1) member)
    have behind : ∀ e ∈ cs.drop n, e.isDigit = true := fun e member =>
      digits e (List.mem_cons_of_mem c (List.mem_of_mem_drop member))
    have some_ : cs.drop n ≠ [] := by
      rw [Ne,List.drop_eq_nil_iff]
      rw [List.length_cons] at place whole inner
      omega
    have run := numeral_whole before other (fraction_point behind some_ .without)
    rw [List.append_nil,← bytesOf_append] at run
    rw [String.toList_ofList,place,List.take_succ_cons,List.drop_succ_cons,List.append_assoc]
    exact run
  · have more : ∀ e ∈ List.replicate (-(((c :: cs).length : Int) + d.scale)).toNat '0' ++ c :: cs, e.isDigit = true :=
      List.forall_mem_append.mpr ⟨zeros _,digits⟩
    have run := fraction_point more (List.append_ne_nil_of_right_ne_nil _ (List.cons_ne_nil c cs)) .without
    rw [List.append_nil] at run
    rw [String.toList_ofList]
    exact .zero run
  · rw [String.append_assoc,String.toList_append,bytesOf_append,String.toList_ofList]
    exact numeral_mantissa digits other (power_bytes (.inl rfl) _)
  · rw [String.append_assoc,String.toList_append,bytesOf_append,String.toList_ofList]
    exact numeral_mantissa digits other (power_bytes (.inr rfl) _)

theorem signed_text {x : Float} (finite : (x.isNaN || x.isInf) = false) : Signed (bytesOf (Number.text x).toList) := by
  obtain ⟨number,bounded⟩ := Bool.or_eq_false_iff.mp finite
  have positive := numeral_positive Number.layout rfl (Decimal.ofFloat x).2
  unfold Number.text Decimal.Layout.finite
  simp only [number,bounded,Bool.false_eq_true,if_false]
  split_ifs
  · rw [String.toList_append,bytesOf_append]
    exact .inr ⟨_,rfl,positive⟩
  · exact .inl positive

/-! ### Bytes of numerals -/

theorem Power.small {bytes : List UInt8} (power : Power bytes) : ∀ b ∈ bytes, b < 128 := by
  cases power with
  | without => exact fun _ => nofun
  | signed either run =>
    have digits := fun b member => (digit_facts (run b member)).2.2
    refine List.forall_mem_cons.mpr ⟨by decide,List.forall_mem_cons.mpr ⟨?_,digits⟩⟩
    rcases either with rfl | rfl <;> decide

theorem Fraction.small {bytes : List UInt8} (fraction : Fraction bytes) : ∀ b ∈ bytes, b < 128 := by
  cases fraction with
  | without power => exact power.small
  | point run power =>
    have digits := fun b member => (digit_facts (run b member)).2.2
    exact List.forall_mem_cons.mpr ⟨by decide,List.forall_mem_append.mpr ⟨digits,power.small⟩⟩

theorem Numeral.small {bytes : List UInt8} (numeral : Numeral bytes) : ∀ b ∈ bytes, b < 128 := by
  cases numeral with
  | zero fraction => exact List.forall_mem_cons.mpr ⟨by decide,fraction.small⟩
  | digits other run fraction =>
    have digits := fun b member => (digit_facts (run b member)).2.2
    exact List.forall_mem_append.mpr ⟨digits,fraction.small⟩

theorem Signed.small {bytes : List UInt8} (signed : Signed bytes) : ∀ b ∈ bytes, b < 128 := by
  rcases signed with numeral | ⟨left,rfl,numeral⟩
  · exact numeral.small
  · exact List.forall_mem_cons.mpr ⟨by decide,numeral.small⟩

theorem Signed.head {bytes : List UInt8} (signed : Signed bytes) : ∃ b left, bytes = b :: left ∧ isBlank b = false ∧ b ≠ 93 := by
  rcases signed with numeral | ⟨left,rfl,-⟩
  · obtain ⟨b,left,rfl,digit⟩ := numeral.head
    obtain ⟨visible,other,-⟩ := digit_facts digit
    exact ⟨b,left,rfl,visible,other⟩
  · exact ⟨45,left,rfl,by decide,by decide⟩

/-- The bytes of a stand-in are not as small. -/
theorem plain_of_small {cs : List Char} (small : ∀ b ∈ bytesOf cs, b < 128) : ∀ c ∈ cs, Text.isStandIn c = false := by
  intro c member
  cases standIn : Text.isStandIn c with
  | false => rfl
  | true =>
    simp only [Text.isStandIn,Bool.and_eq_true,decide_eq_true_eq] at standIn
    have value : c.val.toNat = c.toNat := rfl
    have head : UInt8.ofNat (c.toNat/262144 % 8 + 240) ∈ bytesOf cs := by
      refine List.mem_flatMap.mpr ⟨c,member,?_⟩
      unfold String.utf8EncodeChar
      simp only [value]
      rw [if_neg (by omega),if_neg (by omega),if_neg (by omega)]
      exact List.mem_cons_self
    have large := UInt8.lt_iff_toNat_lt.mp (small _ head)
    rw [UInt8.toNat_ofNat'] at large
    change _ < 128 at large
    omega

end ScriptHost.Json.Reader
