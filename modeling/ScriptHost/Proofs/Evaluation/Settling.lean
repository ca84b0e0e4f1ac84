import ScriptHost.Completion
/-!
What the threads around a completion do to it. Whoever gets its offer taken has to announce it: the watcher,
or somebody else, who owes it (`owed`) until then.
-/
namespace ScriptHost.Completion
variable {α : Type} {c d : Completion α} {owed other : Prop}

/-- What is true of a completion while its threads go on. -/
structure Kept (owed : Prop) (c : Completion α) : Prop where
  /-- The watcher does not give up an empty completion. -/
  watcher : c.watcher ≠ .looks → c.slot.isSome = true
  ready : c.ready = true → c.slot.isSome = true
  debt : owed → c.slot.isSome = true
  announced : c.slot.isSome = true → c.ready = true ∨ c.watcher = .announces ∨ owed

/-- There is an outcome, and whoever waits for it is told. -/
def IsResolved (c : Completion α) : Prop := c.slot.isSome = true ∧ c.ready = true

theorem Kept.congr (kept : c.Kept owed) (same : owed ↔ other) : c.Kept other :=
  (propext same) ▸ kept

theorem kept_fresh : (fresh : Completion α).Kept False :=
  ⟨fun none => absurd rfl none,fun none => absurd none Bool.false_ne_true,False.elim,
    fun none => absurd none Bool.false_ne_true⟩

theorem kept_bound (signal : Signal) : (bound signal : Completion α).Kept False := by
  unfold bound
  split
  · exact ⟨fun _ => rfl,fun _ => rfl,False.elim,fun _ => .inl rfl⟩
  · exact kept_fresh

theorem Kept.cancel (kept : c.Kept owed) : c.cancel.Kept owed :=
  ⟨kept.watcher,kept.ready,kept.debt,kept.announced⟩

/-- An offer is taken by an empty completion. -/
theorem offer_taken {r : Except Failure α} (taken : c.offer r = (true,d)) : d = { c with slot := some r } := by
  unfold offer at taken
  split at taken <;> cases taken
  rfl

theorem offer_refused {r : Except Failure α} (refused : c.offer r = (false,d)) : d = c ∧ c.slot.isSome = true := by
  unfold offer at refused
  split at refused
  · cases refused
  · next kept =>
    cases refused
    exact ⟨rfl,by rw [kept]; rfl⟩

/-- Whoever's offer is taken owes its announcement. -/
theorem kept_offer {r : Except Failure α} (taken : c.offer r = (true,d)) : d.Kept True := by
  rw [offer_taken taken]
  exact ⟨fun _ => rfl,fun _ => rfl,fun _ => rfl,fun _ => .inr (.inr trivial)⟩

theorem Kept.offer {r : Except Failure α} {taken : Bool} (kept : c.Kept owed) (offered : c.offer r = (taken,d)) :
    d.Kept (taken = true ∨ owed) ∧ (c.slot.isSome = true → d.slot.isSome = true) := by
  cases taken with
  | true =>
    have taken := kept_offer offered
    exact ⟨taken.congr (by simp),fun _ => taken.debt trivial⟩
  | false =>
    obtain ⟨rfl,-⟩ := offer_refused offered
    exact ⟨kept.congr (by simp),id⟩

theorem kept_announce (some : c.slot.isSome = true) : c.announce.Kept owed :=
  ⟨fun _ => some,fun _ => some,fun _ => some,fun _ => .inl rfl⟩

/-- A step of the watcher of a completion that is bound to a signal. -/
inductive Watches (signal : Signal) (c : Completion α) : Completion α → Prop where
  | stops (looks : c.watcher = .looks) (ready : c.ready = true) : Watches signal c { c with watcher := .gone }
  | offers (looks : c.watcher = .looks) (stirred : c.cancelled = true ∨ signal.closed = true) (empty : c.slot = none) :
    Watches signal c { c with slot := some (.error .cancelled), watcher := .announces }
  | yields (looks : c.watcher = .looks) (stirred : c.cancelled = true ∨ signal.closed = true) (full : c.slot.isSome = true) :
    Watches signal c { c with watcher := .gone }
  | announces (owes : c.watcher = .announces) : Watches signal c { c.announce with watcher := .gone }

theorem watches_of_mem {signal : Signal} (next : d ∈ c.watchNext signal) : Watches signal c d := by
  unfold watchNext at next
  split at next
  · next looks =>
    rcases List.mem_append.mp next with stops | offers
    · split at stops
      · next ready =>
        cases List.mem_singleton.mp stops
        exact .stops looks ready
      · cases stops
    · split at offers
      · next stirred =>
        cases List.mem_singleton.mp offers
        have stirred : c.cancelled = true ∨ signal.closed = true := by simpa using stirred
        split
        · next taken =>
          cases offer_taken taken
          refine .offers looks stirred ?_
          cases empty : c.slot with
          | none => rfl
          | some r => simp [offer,empty] at taken
        · next refused =>
          obtain ⟨rfl,full⟩ := offer_refused refused
          exact .yields looks stirred full
      · cases offers
  · next owes =>
    cases List.mem_singleton.mp next
    exact .announces owes
  · cases next

/-- The watcher goes on. -/
theorem Kept.watch {signal : Signal} (kept : c.Kept owed) (next : d ∈ c.watchNext signal) :
    d.Kept owed ∧ (c.slot.isSome = true → d.slot.isSome = true) := by
  cases watches_of_mem next with
  | stops looks ready =>
    have full := kept.ready ready
    exact ⟨⟨fun _ => full,fun _ => full,fun _ => full,fun _ => .inl ready⟩,id⟩
  | offers looks stirred empty => exact ⟨⟨fun _ => rfl,fun _ => rfl,fun _ => rfl,fun _ => .inr (.inl rfl)⟩,fun _ => rfl⟩
  | yields looks stirred full =>
    refine ⟨⟨fun _ => full,kept.ready,kept.debt,fun _ => ?_⟩,id⟩
    rcases kept.announced full with ready | announces | owes
    · exact .inl ready
    · cases looks.symm.trans announces
    · exact .inr (.inr owes)
  | announces owes =>
    have full := kept.watcher (by simp [owes])
    exact ⟨⟨fun _ => full,fun _ => full,fun _ => full,fun _ => .inl rfl⟩,id⟩

/-- Nothing is left to do for the watcher of a completion that was cancelled or whose signal has closed, and nobody owes
    an announcement. -/
theorem Kept.settled_of_stirred {signal : Signal} (kept : c.Kept owed) (stirred : c.cancelled = true ∨ signal.closed = true)
    (waits : c.watchNext signal = []) : c.slot.isSome = true ∧ (¬ owed → c.ready = true) := by
  unfold watchNext at waits
  cases place : c.watcher with
  | looks =>
    rcases stirred with cancelled | closed
    · simp [place,cancelled] at waits
    · simp [place,closed] at waits
  | announces => simp [place] at waits
  | gone =>
    have full := kept.watcher (by simp [place])
    refine ⟨full,fun free => ?_⟩
    rcases kept.announced full with ready | announces | owes
    · exact ready
    · cases place.symm.trans announces
    · exact absurd owes free

theorem Kept.settled {signal : Signal} (kept : c.Kept owed) (closed : signal.closed = true)
    (waits : c.watchNext signal = []) : c.slot.isSome = true ∧ (¬ owed → c.ready = true) :=
  kept.settled_of_stirred (.inr closed) waits

/-- The watcher offers a cancellation to an empty completion, and nothing else. -/
theorem slot_watchNext {signal : Signal} (next : d ∈ c.watchNext signal) :
    d.slot = c.slot ∨ c.slot = none ∧ d.slot = some (.error .cancelled) := by
  cases watches_of_mem next with
  | offers looks stirred empty => exact .inr ⟨empty,rfl⟩
  | stops | yields | announces => exact .inl rfl

/-- What is ready stays ready. -/
theorem ready_watchNext {signal : Signal} (next : d ∈ c.watchNext signal) (ready : c.ready = true) : d.ready = true := by
  cases watches_of_mem next with
  | announces owes => rfl
  | stops | offers | yields => exact ready

/-- While nothing was offered or cancelled and the signal is open, the watcher of a completion waits. -/
theorem watchNext_fresh {signal : Signal} (live : signal.closed = false) : (fresh : Completion α).watchNext signal = [] := by
  simp [watchNext,fresh,live]

theorem slot_watchNext_of_slot {signal : Signal} {r : Except Failure α} (next : d ∈ c.watchNext signal) (full : c.slot = some r) :
    d.slot = some r := by
  rcases slot_watchNext next with same | ⟨empty,-⟩
  · exact same.trans full
  · cases empty.symm.trans full

/-- A completion tells what it has once it is ready. -/
theorem wait_of_slot {r : Except Failure α} (full : c.slot = some r) : c.wait? = if c.ready then some r else none := by
  simp [wait?,told,full]

theorem eq_of_wait {r s : Except Failure α} (full : c.slot = some r) (told : c.wait? = some s) : s = r := by
  rw [wait_of_slot full] at told
  split at told
  · exact (Option.some.inj told).symm
  · cases told

/-- Nobody is told of an outcome, or gives up waiting for one, before there is one. -/
def Honest (c : Completion α) : Prop := c.Kept (c.slot.isSome = true)

theorem Kept.honest (kept : c.Kept owed) : c.Honest := ⟨kept.watcher,kept.ready,id,fun full => .inr (.inr full)⟩

/-- What an honest completion tells is its outcome. -/
theorem Honest.slot_of_wait (honest : c.Honest) {r : Except Failure α} (told : c.wait? = some r) : c.slot = some r := by
  unfold wait? at told
  split at told
  · next ready =>
    obtain ⟨s,full⟩ := Option.isSome_iff_exists.mp (honest.ready ready)
    rw [Completion.told,full] at told
    exact full.trans told
  · cases told

/-- A settled completion of which nothing is known but that its watcher has nothing left to do. -/
theorem Kept.ready_of_slot {signal : Signal} (kept : c.Kept owed) (full : c.slot.isSome = true)
    (waits : c.watchNext signal = []) (free : ¬ owed) : c.ready = true := by
  rcases kept.announced full with ready | announces | owes
  · exact ready
  · simp [watchNext,announces] at waits
  · exact absurd owes free

/-! ### What stays -/

/-- What a completion was offered stays its outcome, and what was announced stays so. -/
structure Stays (c d : Completion α) : Prop where
  slot : ∀ r, c.slot = some r → d.slot = some r
  ready : c.ready = true → d.ready = true

theorem Stays.refl (c : Completion α) : c.Stays c := ⟨fun _ => id,id⟩

theorem Stays.isSome (stays : c.Stays d) (full : c.slot.isSome = true) : d.slot.isSome = true := by
  obtain ⟨r,full⟩ := Option.isSome_iff_exists.mp full
  rw [stays.slot r full]
  rfl

theorem stays_offer (c : Completion α) (r : Except Failure α) : c.Stays (c.offer r).2 := by
  cases slot : c.slot with
  | none =>
    have taken : c.offer r = (true,{ c with slot := some r }) := by simp [offer,slot]
    rw [taken]
    exact ⟨fun s full => (by cases slot.symm.trans full),id⟩
  | some s =>
    have refused : c.offer r = (false,c) := by simp [offer,slot]
    rw [refused]
    exact .refl c

theorem stays_announce (c : Completion α) : c.Stays c.announce := ⟨fun _ => id,fun _ => rfl⟩

theorem stays_cancel (c : Completion α) : c.Stays c.cancel := ⟨fun _ => id,id⟩

theorem stays_watch {signal : Signal} (next : d ∈ c.watchNext signal) : c.Stays d :=
  ⟨fun _ full => slot_watchNext_of_slot next full,ready_watchNext next⟩

end ScriptHost.Completion
