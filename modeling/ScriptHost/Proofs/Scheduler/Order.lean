import Mathlib.Data.List.Nodup
import ScriptHost.Proofs.Scheduler.Traffic
/-!
The order of jobs. The queue is the only way to a worker, so a worker begins with envelopes in the order in
which they entered it. A party that hands in two jobs has only one of them at a time, unless a job found the
queue full and left its envelope to a thread; so the jobs of a party enter the queue in the order in which
it handed them in.
-/
namespace ScriptHost
variable {J : Type}

/-- In a list that is newest first the one entry came before the other. -/
def Before {α : Type} (l : List α) (a b : α) : Prop := [b,a].Sublist l

section
variable {α : Type} {l l' : List α} {a b x : α}

theorem before_cons : Before (x :: l) a b ↔ Before l a b ∨ b = x ∧ a ∈ l := by
  unfold Before
  rw [List.sublist_cons_iff]
  constructor
  · rintro (old | ⟨rest,same,sub⟩)
    · exact .inl old
    · cases same
      exact .inr ⟨rfl,List.singleton_sublist.mp sub⟩
  · rintro (old | ⟨rfl,member⟩)
    · exact .inl old
    · exact .inr ⟨[a],rfl,List.singleton_sublist.mpr member⟩

theorem Before.mem (before : Before l a b) : a ∈ l ∧ b ∈ l :=
  ⟨before.subset (by simp),before.subset (by simp)⟩

/-- What is left out does not change the order of the rest. -/
theorem Before.of_sublist (sub : l.Sublist l') (nodup : l'.Nodup) (before : Before l' a b) (left : a ∈ l)
    (right : b ∈ l) : Before l a b := by
  induction sub with
  | slnil => cases left
  | @cons l l' x sub ih =>
    obtain ⟨fresh,nodup⟩ := List.nodup_cons.mp nodup
    rcases before_cons.mp before with before | ⟨rfl,-⟩
    · exact ih nodup before left right
    · exact absurd (sub.subset right) fresh
  | @cons_cons l l' x sub ih =>
    obtain ⟨fresh,nodup⟩ := List.nodup_cons.mp nodup
    have old : ∀ c ∈ l', c ∈ x :: l → c ∈ l := by
      intro c older member
      rcases List.mem_cons.mp member with rfl | member
      · exact absurd older fresh
      · exact member
    rcases before_cons.mp before with before | ⟨rfl,older⟩
    · obtain ⟨older,newer⟩ := before.mem
      exact before_cons.mpr (.inl (ih nodup before (old a older left) (old b newer right)))
    · exact before_cons.mpr (.inr ⟨rfl,old a older left⟩)

end

theorem calledBy_cons (who other : Party) (e : Envelope J) (calls : List (Party × Envelope J)) :
    calledBy who ((other,e) :: calls) = if other = who then e :: calledBy who calls else calledBy who calls := by
  by_cases own : other = who <;> simp [calledBy,own]

theorem mem_calledBy {who : Party} {e : Envelope J} {calls : List (Party × Envelope J)} :
    e ∈ calledBy who calls ↔ (who,e) ∈ calls := by
  induction calls with
  | nil => simp [calledBy]
  | cons call rest ih =>
    obtain ⟨other,f⟩ := call
    rw [calledBy_cons]
    by_cases own : other = who
    · simp [own,ih]
    · simp [own,Ne.symm own,ih]

theorem takenBy_cons (g : Nat) (x : Exit) (e : Envelope J) (left : List (Exit × Envelope J)) :
    takenBy g ((x,e) :: left) = if x = .taken g then e :: takenBy g left else takenBy g left := by
  by_cases own : x = .taken g <;> simp [takenBy,own]

theorem takenBy_sublist (g : Nat) (left : List (Exit × Envelope J)) :
    (takenBy g left).Sublist (left.map Prod.snd) := by
  induction left with
  | nil => exact .slnil
  | cons exit rest ih =>
    obtain ⟨x,e⟩ := exit
    rw [takenBy_cons,List.map_cons]
    split
    · exact ih.cons_cons e
    · exact ih.cons e

/-! ### Every envelope is in one place -/

/-- No two envelopes have the same number, and none is with two parties or both with a party and in the
    queue. -/
structure Single (serial : Nat) (held : Party → Option (Envelope J)) (entered : List (Envelope J)) : Prop where
  bound : ∀ e ∈ entered, e.serial < serial
  nodup : (entered.map Envelope.serial).Nodup
  outside : ∀ who e, held who = some e → e.serial < serial ∧ e.serial ∉ entered.map Envelope.serial
  one : ∀ who other e f, held who = some e → held other = some f → e.serial = f.serial → who = other

/-- What a party holds once some party holds something else. -/
theorem holds_of_update {held : Party → Option (Envelope J)} {who other : Party} {v : Option (Envelope J)}
    {f : Envelope J} (holds : Function.update held who v other = some f) :
    other = who ∧ v = some f ∨ other ≠ who ∧ held other = some f := by
  by_cases own : other = who
  · subst own
    rw [Function.update_self] at holds
    exact .inl ⟨rfl,holds⟩
  · rw [Function.update_of_ne own] at holds
    exact .inr ⟨own,holds⟩

theorem holds_of_drop {held : Party → Option (Envelope J)} {who other : Party} {f : Envelope J}
    (holds : Function.update held who none other = some f) : other ≠ who ∧ held other = some f := by
  rcases holds_of_update holds with ⟨-,none⟩ | before
  · cases none
  · exact before

namespace Single
variable {serial : Nat} {held : Party → Option (Envelope J)} {entered : List (Envelope J)} {who : Party} {e : Envelope J}

theorem fresh (single : Single serial held entered) (new : e.serial = serial) :
    e.serial ∉ entered.map Envelope.serial := by
  intro member
  obtain ⟨f,member,same⟩ := List.mem_map.mp member
  have older := single.bound f member
  omega

theorem hold (single : Single serial held entered) (new : e.serial = serial) :
    Single (serial+1) (Function.update held who (some e)) entered := by
  refine ⟨fun f member => Nat.lt_succ_of_lt (single.bound f member),single.nodup,fun other f holds => ?_,
    fun other another f h holds held same => ?_⟩
  · rcases holds_of_update holds with ⟨-,own⟩ | ⟨-,holds⟩
    · cases own
      exact ⟨by omega,single.fresh new⟩
    · obtain ⟨older,outside⟩ := single.outside other f holds
      exact ⟨Nat.lt_succ_of_lt older,outside⟩
  · rcases holds_of_update holds with ⟨rfl,own⟩ | ⟨-,holds⟩
    · cases own
      rcases holds_of_update held with ⟨rfl,-⟩ | ⟨-,held⟩
      · rfl
      · have older := (single.outside another h held).1
        omega
    · rcases holds_of_update held with ⟨-,own⟩ | ⟨-,held⟩
      · cases own
        have older := (single.outside other f holds).1
        omega
      · exact single.one other another f h holds held same

theorem drop (single : Single serial held entered) : Single serial (Function.update held who none) entered :=
  ⟨single.bound,single.nodup,fun other f holds => single.outside other f (holds_of_drop holds).2,
    fun other another f h holds held =>
      single.one other another f h (holds_of_drop holds).2 (holds_of_drop held).2⟩

theorem enter (single : Single serial held entered) (holds : held who = some e) :
    Single serial (Function.update held who none) (e :: entered) := by
  obtain ⟨older,outside⟩ := single.outside who e holds
  refine ⟨List.forall_mem_cons.mpr ⟨older,single.bound⟩,List.nodup_cons.mpr ⟨outside,single.nodup⟩,
    fun other f held => ?_,single.drop.one⟩
  obtain ⟨apart,held⟩ := holds_of_drop held
  obtain ⟨older,outside⟩ := single.outside other f held
  refine ⟨older,fun member => ?_⟩
  rcases List.mem_cons.mp member with same | member
  · exact apart (single.one other who f e held holds same)
  · exact outside member

theorem order (single : Single serial held entered) (new : e.serial = serial) :
    Single (serial+1) held (e :: entered) := by
  refine ⟨List.forall_mem_cons.mpr ⟨by omega,fun f member => Nat.lt_succ_of_lt (single.bound f member)⟩,
    List.nodup_cons.mpr ⟨single.fresh new,single.nodup⟩,fun other f holds => ?_,single.one⟩
  obtain ⟨older,outside⟩ := single.outside other f holds
  refine ⟨Nat.lt_succ_of_lt older,fun member => ?_⟩
  rcases List.mem_cons.mp member with same | member
  · omega
  · exact outside member

theorem handOver {other : Party} (single : Single serial held entered) (holds : held who = some e) :
    Single serial (Function.update (Function.update held who none) other (some e)) entered := by
  obtain ⟨older,outside⟩ := single.outside who e holds
  have alone : ∀ {another h}, Function.update held who none another = some h → h.serial ≠ e.serial := by
    intro another h held same
    obtain ⟨apart,held⟩ := holds_of_drop held
    exact apart (single.one another who h e held holds same)
  refine ⟨single.bound,single.nodup,fun another f held => ?_,fun another last f h holds held same => ?_⟩
  · rcases holds_of_update held with ⟨-,own⟩ | ⟨-,held⟩
    · cases own
      exact ⟨older,outside⟩
    · exact single.drop.outside another f held
  · rcases holds_of_update holds with ⟨rfl,own⟩ | ⟨-,holds⟩
    · cases own
      rcases holds_of_update held with ⟨rfl,-⟩ | ⟨-,held⟩
      · rfl
      · exact absurd same.symm (alone held)
    · rcases holds_of_update held with ⟨-,own⟩ | ⟨-,held⟩
      · cases own
        exact absurd same (alone holds)
      · exact single.drop.one another last f h holds held same

end Single

/-! ### The queue keeps the order -/

/-- What has entered the queue is there or has left it, oldest first, and a worker has begun with some of what
    it has taken. -/
structure Flows (queue : List (Envelope J)) (hand : Nat → Option (Envelope J)) (left : List (Exit × Envelope J))
    (entered : List (Envelope J)) (begun : Nat → List (Envelope J)) : Prop where
  line : entered = queue.reverse ++ left.map Prod.snd
  hands : ∀ g, ∃ past, takenBy g left = (hand g).toList ++ past ∧ (begun g).Sublist past

namespace Flows
variable {queue rest : List (Envelope J)} {hand : Nat → Option (Envelope J)} {left : List (Exit × Envelope J)}
  {entered : List (Envelope J)} {begun : Nat → List (Envelope J)} {g : Nat} {e : Envelope J}

/-- A worker has begun with envelopes in the order in which they entered the queue. -/
theorem sublist (flows : Flows queue hand left entered begun) (g : Nat) : (begun g).Sublist entered := by
  obtain ⟨past,taken,sub⟩ := flows.hands g
  calc
    (begun g).Sublist past := sub
    past.Sublist (takenBy g left) := taken ▸ List.sublist_append_right _ past
    (takenBy g left).Sublist (left.map Prod.snd) := takenBy_sublist g left
    (left.map Prod.snd).Sublist entered := flows.line ▸ List.sublist_append_right _ _

theorem enter (flows : Flows queue hand left entered begun) :
    Flows (queue ++ [e]) hand left (e :: entered) begun :=
  ⟨by simp [flows.line],flows.hands⟩

/-- The oldest envelope leaves the queue, and no worker gets it. -/
theorem out {x : Exit} (flows : Flows (e :: rest) hand left entered begun) (lost : ∀ g, x ≠ .taken g) :
    Flows rest hand ((x,e) :: left) entered begun := by
  refine ⟨by simp [flows.line],fun g => ?_⟩
  rw [takenBy_cons,if_neg (lost g)]
  exact flows.hands g

theorem take (flows : Flows (e :: rest) hand left entered begun) (free : hand g = none) :
    Flows rest (Function.update hand g (some e)) ((.taken g,e) :: left) entered begun := by
  refine ⟨by simp [flows.line],fun h => ?_⟩
  obtain ⟨past,taken,sub⟩ := flows.hands h
  rw [takenBy_cons]
  by_cases own : h = g
  · subst own
    rw [free] at taken
    exact ⟨past,by simpa using taken,sub⟩
  · have other : Exit.taken g ≠ .taken h := fun same => own (Exit.taken.inj same).symm
    rw [if_neg other,Function.update_of_ne own]
    exact ⟨past,taken,sub⟩

theorem discard (flows : Flows queue hand left entered begun) (holds : hand g = some e) :
    Flows queue (Function.update hand g none) left entered begun := by
  refine ⟨flows.line,fun h => ?_⟩
  obtain ⟨past,taken,sub⟩ := flows.hands h
  by_cases own : h = g
  · subst own
    rw [holds] at taken
    exact ⟨e :: past,by simpa using taken,sub.cons e⟩
  · rw [Function.update_of_ne own]
    exact ⟨past,taken,sub⟩

theorem begin (flows : Flows queue hand left entered begun) (holds : hand g = some e) :
    Flows queue (Function.update hand g none) left entered (Function.update begun g (e :: begun g)) := by
  refine ⟨flows.line,fun h => ?_⟩
  obtain ⟨past,taken,sub⟩ := flows.hands h
  by_cases own : h = g
  · subst own
    rw [holds] at taken
    rw [Function.update_self,Function.update_self]
    exact ⟨e :: past,by simpa using taken,sub.cons_cons e⟩
  · rw [Function.update_of_ne own,Function.update_of_ne own]
    exact ⟨past,taken,sub⟩

end Flows

/-! ### Parties hand in one envelope at a time -/

/-- An envelope for which no job found the queue full is with the party that handed it in or with nobody,
    and it is with nobody once the party has handed in the next one. -/
structure InTurn (serial : Nat) (held : Party → Option (Envelope J)) (calls : List (Party × Envelope J))
    (full entered : List (Envelope J)) : Prop where
  bound : ∀ who e, (who,e) ∈ calls → e.serial < serial
  apart : (calls.map (·.2.serial)).Nodup
  own : ∀ who e, (who,e) ∈ calls → e ∉ full → ∀ other, held other = some e → other = who
  past : ∀ who e f, Before (calledBy who calls) e f → e ∉ full → held who ≠ some e
  order : ∀ who e f, Before (calledBy who calls) e f → e ∉ full → e ∈ entered → f ∈ entered → Before entered e f
  /-- Only jobs find the queue full. -/
  threads : ∀ t e, (.thread t,e) ∈ calls → e ∉ full

namespace InTurn
variable {serial : Nat} {held : Party → Option (Envelope J)} {calls : List (Party × Envelope J)}
  {full entered : List (Envelope J)} {who : Party} {e : Envelope J}

theorem mem_of_before {f : Envelope J} (before : Before (calledBy who calls) e f) :
    (who,e) ∈ calls ∧ (who,f) ∈ calls :=
  ⟨mem_calledBy.mp before.mem.1,mem_calledBy.mp before.mem.2⟩

/-- A party has got an envelope that nobody has handed in so far. -/
theorem hold (inTurn : InTurn serial held calls full entered) (new : e.serial = serial) :
    InTurn (serial+1) (Function.update held who (some e)) calls full entered := by
  have older : ∀ {other f}, (other,f) ∈ calls → f ≠ e := by
    rintro other f called rfl
    have less := inTurn.bound other f called
    omega
  have before : ∀ {other another f}, (other,f) ∈ calls → Function.update held who (some e) another = some f →
      held another = some f := by
    intro other another f called holds
    rcases holds_of_update holds with ⟨-,own⟩ | ⟨-,holds⟩
    · cases own
      exact absurd rfl (older called)
    · exact holds
  refine ⟨fun other f called => Nat.lt_succ_of_lt (inTurn.bound other f called),inTurn.apart,
    fun other f called spare another holds => inTurn.own other f called spare another (before called holds),
    fun other f h order spare holds => ?_,inTurn.order,inTurn.threads⟩
  exact inTurn.past other f h order spare (before (mem_of_before order).1 holds)

/-- A party hands in an envelope that it has just got. -/
theorem call (inTurn : InTurn serial held calls full entered) (single : Single serial held entered)
    (older : ∀ other f, (other,f) ∈ calls → f.serial < e.serial) (holds : held who = some e) (spare : e ∉ full) :
    InTurn serial held ((who,e) :: calls) full entered := by
  obtain ⟨less,outside⟩ := single.outside who e holds
  have order_of : ∀ {other f h}, Before (calledBy other ((who,e) :: calls)) f h →
      (other,f) ∈ calls ∧ (Before (calledBy other calls) f h ∨ other = who ∧ h = e) := by
    intro other f h order
    rw [calledBy_cons] at order
    by_cases own : who = other
    · rw [if_pos own] at order
      rcases before_cons.mp order with order | ⟨same,member⟩
      · exact ⟨(mem_of_before order).1,.inl order⟩
      · exact ⟨mem_calledBy.mp member,.inr ⟨own.symm,same⟩⟩
    · rw [if_neg own] at order
      exact ⟨(mem_of_before order).1,.inl order⟩
  refine ⟨fun other f called => ?_,?_,fun other f called spare another holder => ?_,fun other f h order spare holder => ?_,
    fun other f h order spare first second => ?_,fun t f called => ?_⟩
  · rcases List.mem_cons.mp called with same | called
    · cases same
      exact less
    · exact inTurn.bound other f called
  · refine List.nodup_cons.mpr ⟨fun member => ?_,inTurn.apart⟩
    obtain ⟨⟨other,f⟩,called,same⟩ := List.mem_map.mp member
    exact absurd same (Nat.ne_of_lt (older other f called))
  · rcases List.mem_cons.mp called with same | called
    · cases same
      exact single.one another who e e holder holds rfl
    · exact inTurn.own other f called spare another holder
  · obtain ⟨called,order | ⟨rfl,rfl⟩⟩ := order_of order
    · exact inTurn.past other f h order spare holder
    · cases holder.symm.trans holds
      exact absurd (older _ _ called) (Nat.lt_irrefl _)
  · obtain ⟨called,order | ⟨rfl,rfl⟩⟩ := order_of order
    · exact inTurn.order other f h order spare first second
    · exact absurd (List.mem_map_of_mem second) outside
  · rcases List.mem_cons.mp called with same | called
    · cases same
      exact spare
    · exact inTurn.threads t f called

theorem drop (inTurn : InTurn serial held calls full entered) :
    InTurn serial (Function.update held who none) calls full entered :=
  ⟨inTurn.bound,inTurn.apart,
    fun other f called spare another holds => inTurn.own other f called spare another (holds_of_drop holds).2,
    fun other f h order spare holds => inTurn.past other f h order spare (holds_of_drop holds).2,
    inTurn.order,inTurn.threads⟩

theorem enter (inTurn : InTurn serial held calls full entered) (holds : held who = some e) :
    InTurn serial (Function.update held who none) calls full (e :: entered) := by
  refine ⟨inTurn.bound,inTurn.apart,inTurn.drop.own,inTurn.drop.past,fun other f h order spare first second => ?_,
    inTurn.threads⟩
  -- The earlier one of two envelopes is not the one that enters: its party is no longer with it.
  have entered_before : f ∈ entered := by
    rcases List.mem_cons.mp first with rfl | first
    · have same := inTurn.own other f (mem_of_before order).1 spare who holds
      exact absurd (same ▸ holds) (inTurn.past other f h order spare)
    · exact first
  rcases List.mem_cons.mp second with rfl | second
  · exact before_cons.mpr (.inr ⟨rfl,entered_before⟩)
  · exact before_cons.mpr (.inl (inTurn.order other f h order spare entered_before second))

/-- A stop puts an envelope into the queue that no party has handed in. -/
theorem ordered (inTurn : InTurn serial held calls full entered) (new : e.serial = serial) :
    InTurn (serial+1) held calls full (e :: entered) := by
  have before : ∀ {other f}, (other,f) ∈ calls → f ∈ e :: entered → f ∈ entered := by
    intro other f called member
    rcases List.mem_cons.mp member with rfl | member
    · have less := inTurn.bound other f called
      omega
    · exact member
  refine ⟨fun other f called => Nat.lt_succ_of_lt (inTurn.bound other f called),inTurn.apart,inTurn.own,inTurn.past,
    fun other f h order spare first second => ?_,inTurn.threads⟩
  obtain ⟨called,later⟩ := mem_of_before order
  exact before_cons.mpr (.inl (inTurn.order other f h order spare (before called first) (before later second)))

theorem overflow {g : Nat} (inTurn : InTurn serial held calls full entered) (holds : held (.worker g) = some e) :
    InTurn serial held calls (e :: full) entered := by
  have spare_of : ∀ {f : Envelope J}, f ∉ e :: full → f ∉ full := fun spare member =>
    spare (List.mem_cons_of_mem e member)
  refine ⟨inTurn.bound,inTurn.apart,fun other f called spare => inTurn.own other f called (spare_of spare),
    fun other f h order spare => inTurn.past other f h order (spare_of spare),
    fun other f h order spare => inTurn.order other f h order (spare_of spare),fun t f called member => ?_⟩
  have spare := inTurn.threads t f called
  rcases List.mem_cons.mp member with rfl | member
  · cases inTurn.own _ f called spare _ holds
  · exact spare member

theorem handOver {other : Party} (inTurn : InTurn serial held calls full entered) (waits : e ∈ full) :
    InTurn serial (Function.update held other (some e)) calls full entered := by
  have before : ∀ {f another}, f ∉ full → Function.update held other (some e) another = some f →
      held another = some f := by
    intro f another spare holds
    rcases holds_of_update holds with ⟨-,own⟩ | ⟨-,holds⟩
    · cases own
      exact absurd waits spare
    · exact holds
  exact ⟨inTurn.bound,inTurn.apart,
    fun another f called spare last holds => inTurn.own another f called spare last (before spare holds),
    fun another f h order spare holds => inTurn.past another f h order spare (before spare holds),
    inTurn.order,inTurn.threads⟩

end InTurn

/-! ### Runs -/

namespace Traffic

/-- What is true of the ways of envelopes at any time. -/
structure Ordered (m : Traffic J) : Prop where
  single : Single m.serial m.held m.entered
  flows : Flows m.queue m.hand m.left m.entered m.begun
  inTurn : InTurn m.serial m.held m.calls m.full m.entered
  full : ∀ e ∈ m.full, e.serial < m.serial

theorem ordered_step {first : J} {x : Outlook} {m n : Traffic J} (before : Ordered m) (step : Step first x m n) :
    Ordered n := by
  obtain ⟨single,flows,inTurn,full⟩ := before
  have later : ∀ e ∈ m.full, e.serial < m.serial+1 := fun e member => Nat.lt_succ_of_lt (full e member)
  cases step with
  | still => exact ⟨single,flows,inTurn,full⟩
  | submit who e free new told =>
    have spare : e ∉ m.full := fun member => by
      have less := full e member
      omega
    have older : ∀ other f, (other,f) ∈ m.calls → f.serial < e.serial :=
      fun other f called => new ▸ inTurn.bound other f called
    exact ⟨single.hold new,flows,
      (inTurn.hold new).call (single.hold new) older (Function.update_self who _ m.held) spare,later⟩
  | «open» who e free new next task locks => exact ⟨single.hold new,flows,inTurn.hold new,later⟩
  | drop who lost => exact ⟨single.drop,flows,inTurn.drop,full⟩
  | enter who e holds => exact ⟨single.enter holds,flows.enter,inTurn.enter holds,full⟩
  | order e new told => exact ⟨single.order new,flows.enter,inTurn.ordered new,later⟩
  | overflow g e holds =>
    exact ⟨single,flows,inTurn.overflow holds,List.forall_mem_cons.mpr ⟨(single.outside _ e holds).1,full⟩⟩
  | handOver g t e holds waits called free => exact ⟨single.handOver holds,flows,inTurn.drop.handOver waits,full⟩
  | clear e rest queue past => exact ⟨single,(queue ▸ flows).out nofun,inTurn,full⟩
  | drain g e rest queue => exact ⟨single,(queue ▸ flows).out nofun,inTurn,full⟩
  | take g e rest queue free live => exact ⟨single,(queue ▸ flows).take free,inTurn,full⟩
  | discard g e hand stale => exact ⟨single,flows.discard hand,inTurn,full⟩
  | begin g e hand own => exact ⟨single,flows.begin hand,inTurn,full⟩

end Traffic

theorem Journaled.ordered {first : J} {capacity : Nat} {j : Journal J} {σ : System J}
    (journaled : Journaled first capacity j σ) : (σ.traffic j).Ordered := by
  refine journaled.traffic ?_ fun x m n before step => Traffic.ordered_step before step
  refine ⟨⟨nofun,.nil,fun who e holds => ?_,fun who other e f holds => ?_⟩,⟨rfl,fun g => ⟨[],rfl,.slnil⟩⟩,
    ⟨nofun,.nil,nofun,nofun,nofun,nofun⟩,nofun⟩
  · cases who <;> cases holds
  · cases who <;> cases holds

namespace Journaled
variable {first : J} {capacity : Nat} {j : Journal J} {σ : System J} {g h : Nat} {e f : Envelope J}

/-- A worker begins only with what is meant for its generation. -/
theorem begun_own (journaled : Journaled first capacity j σ) (began : e ∈ begun g σ.history) : e.generation = g := by
  have lawful := (System.orderly_of_reachable journaled.reachable).recorded.lawful
  obtain ⟨later,earlier,-,own,-⟩ := lawful.of_mem (mem_begun.mp began)
  exact own

/-- A worker begins with an envelope once. -/
theorem begun_nodup (journaled : Journaled first capacity j σ) (g : Nat) :
    ((begun g σ.history).map Envelope.serial).Nodup :=
  journaled.ordered.single.nodup.sublist ((journaled.ordered.flows.sublist g).map Envelope.serial)

/-- Envelopes with one number are one envelope. -/
theorem entered_inj (journaled : Journaled first capacity j σ) (one : e ∈ entered σ.history) (other : f ∈ entered σ.history)
    (same : e.serial = f.serial) : e = f :=
  List.inj_on_of_nodup_map journaled.ordered.single.nodup one other same

theorem entered_of_begun (journaled : Journaled first capacity j σ) (began : e ∈ begun g σ.history) :
    e ∈ entered σ.history :=
  (journaled.ordered.flows.sublist g).subset began

/-- No two workers begin with an envelope. -/
theorem begun_alone (journaled : Journaled first capacity j σ) (one : e ∈ begun g σ.history)
    (other : f ∈ begun h σ.history) (same : e.serial = f.serial) : g = h := by
  have equal := journaled.entered_inj (journaled.entered_of_begun one) (journaled.entered_of_begun other) same
  exact (journaled.begun_own one).symm.trans (equal ▸ journaled.begun_own other)

end Journaled

namespace System

/-- The order in which envelopes are begun with. -/
structure InOrder (j : Journal J) (σ : System J) : Prop where
  /-- Every call has an envelope of its own. -/
  apart : (j.calls.map (·.2.serial)).Nodup
  /-- A worker begins with an envelope once, and no other worker begins with it. -/
  once : ∀ g, ((begun g σ.history).map Envelope.serial).Nodup
  alone : ∀ g h e f, e ∈ begun g σ.history → f ∈ begun h σ.history → e.serial = f.serial → g = h
  /-- A worker begins with envelopes in the order in which they entered the queue. -/
  distinct : ((entered σ.history).map Envelope.serial).Nodup
  fifo : ∀ g, (begun g σ.history).Sublist (entered σ.history)
  /-- A worker begins with the jobs of a thread in the order in which the thread handed them in. -/
  threads : ∀ t g e f, Before (calledBy (.thread t) j.calls) e f → e ∈ begun g σ.history → f ∈ begun g σ.history →
    Before (begun g σ.history) e f
  /-- So it does with what the jobs of a worker handed in, if the earlier one did not find the queue full. -/
  jobs : ∀ w g e f, Before (calledBy (.worker w) j.calls) e f → e ∉ j.full → e ∈ begun g σ.history →
    f ∈ begun g σ.history → Before (begun g σ.history) e f

theorem in_order_of_journaled {first : J} {capacity : Nat} {j : Journal J} {σ : System J}
    (journaled : Journaled first capacity j σ) : InOrder j σ := by
  obtain ⟨single,flows,inTurn,-⟩ := journaled.ordered
  have lawful := (orderly_of_reachable journaled.reachable).recorded.lawful
  have sub : ∀ g, (begun g σ.history).Sublist (entered σ.history) := flows.sublist
  have home : ∀ g e, e ∈ begun g σ.history → e.generation = g := by
    intro g e member
    obtain ⟨later,earlier,-,own,-⟩ := lawful.of_mem (mem_begun.mp member)
    exact own
  have turn : ∀ who g e f, Before (calledBy who j.calls) e f → e ∉ j.full → e ∈ begun g σ.history →
      f ∈ begun g σ.history → Before (begun g σ.history) e f := by
    intro who g e f order spare first second
    have line := inTurn.order who e f order spare ((sub g).subset first) ((sub g).subset second)
    exact line.of_sublist (sub g) (List.Nodup.of_map _ single.nodup) first second
  constructor
  case apart => exact inTurn.apart
  case once => exact fun g => single.nodup.sublist ((sub g).map Envelope.serial)
  case alone =>
    intro g h e f first second same
    have equal : e = f := List.inj_on_of_nodup_map single.nodup ((sub g).subset first) ((sub h).subset second) same
    exact (home g e first).symm.trans (equal ▸ home h f second)
  case distinct => exact single.nodup
  case fifo => exact sub
  case threads =>
    intro t g e f order
    exact turn _ g e f order (inTurn.threads t e (InTurn.mem_of_before order).1)
  case jobs => exact fun w g e f => turn (.worker w) g e f

/-- A thread hands in two jobs; it waits with the second one until the worker has taken the first one out of
    the queue, which holds one envelope. -/
def errands : List (Action Nat) :=
  List.flatten [
    [.start (.thread 0)],List.replicate 8 (.go (.thread 0) (.ok ()) 0),[.return (.thread 0),.takeHandle],
    List.replicate 6 (.work 1 0),[.finish 1 false,.work 1 0,.settle 1,.submit (.thread 1) 1 7],
    List.replicate 3 (.go (.thread 1) (.ok ()) 0),[.return (.thread 1),.submit (.thread 1) 1 8,.go (.thread 1) (.ok ()) 0],
    List.replicate 2 (.work 1 0),List.replicate 2 (.go (.thread 1) (.ok ()) 0),List.replicate 4 (.work 1 0),
    [.finish 1 false,.work 1 0,.settle 1],List.replicate 6 (.work 1 0)]

theorem in_order_after_errands : ∃ j σ, (init 1).trace 0 {} errands = some (j,σ) ∧
    begun 1 σ.history = [⟨2,1,.job 8⟩,⟨1,1,.job 7⟩,⟨0,1,.job 0⟩] ∧
    Before (calledBy (.thread 1) j.calls) ⟨1,1,.job 7⟩ ⟨2,1,.job 8⟩ ∧ InOrder j σ := by
  have facts : ((init 1).trace 0 {} errands).map (fun (j,σ) => (begun 1 σ.history,calledBy (.thread 1) j.calls)) =
    some ([⟨2,1,.job 8⟩,⟨1,1,.job 7⟩,⟨0,1,.job 0⟩],[⟨2,1,.job 8⟩,⟨1,1,.job 7⟩]) := rfl
  obtain ⟨⟨j,σ⟩,ran,values⟩ := Option.map_eq_some_iff.mp facts
  simp only [Prod.mk.injEq] at values
  obtain ⟨began,called⟩ := values
  exact ⟨j,σ,ran,began,called ▸ .refl _,in_order_of_journaled (Journaled.init.trace errands ran)⟩

end System

end ScriptHost
