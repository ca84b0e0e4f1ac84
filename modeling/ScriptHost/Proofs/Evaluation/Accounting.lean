import ScriptHost.Proofs.Evaluation.Following
import ScriptHost.Proofs.Evaluation.Scene
/-!
In every scene that some interleaving leads to, each completion that holds an outcome is announced, or there is
somebody who still owes the announcement: its watcher, a job, the follower of the evaluation or a caller. One
move changes one evaluation or one completion of a caller, so the invariant is kept one of them at a time.
-/
namespace ScriptHost.Scene
variable {τ α : Type} {s t : Scene τ α}

/-- Some party owes the announcement of what it offered. -/
def Owed (s : Scene τ α) (spot : Spot) : Prop := ∃ who, (who,spot) ∈ s.debts

/-- The follower of an evaluation owes the announcement of what it offered. -/
def FollowerOwes (s : Scene τ α) (i : Nat) : Prop := ∃ stateName p, s.followers i = some (stateName,p) ∧ p.Owes

/-- An evaluation and its follower are in order. -/
structure Accounts (s : Scene τ α) (i : Nat) (e : Evaluation) : Prop where
  script : e.script.Kept (s.Owed (.script i))
  outcome : e.outcome.Kept (s.Owed (.outcome i) ∨ s.FollowerOwes i)
  follower : ∀ stateName p, s.followers i = some (stateName,p) → p.Fits e

/-- What a party owes is about a completion that there is, and only jobs owe anything to evaluations. -/
def Known (s : Scene τ α) (who : Party) : Spot → Prop
  | .script i | .outcome i => i < s.desk.evaluations.size ∧ who.isWorker = true
  | .other k => k < s.others.size

/-- All completions are in order. -/
structure Accounted (s : Scene τ α) : Prop where
  evaluations : ∀ i e, s.desk.evaluations[i]? = some e → s.Accounts i e
  others : ∀ k g (c : Completion α), s.others[k]? = some (g,c) → c.Kept (s.Owed (.other k))
  known : ∀ who spot, (who,spot) ∈ s.debts → s.Known who spot
  followed : ∀ i, s.desk.evaluations.size ≤ i → s.followers i = none

/-- Two scenes differ in their debts at most about one completion. -/
def Elsewhere (s t : Scene τ α) (spot : Spot) : Prop :=
  ∀ who other, other ≠ spot → ((who,other) ∈ t.debts ↔ (who,other) ∈ s.debts)

theorem elsewhere_same (same : t.debts = s.debts) (spot : Spot) : s.Elsewhere t spot :=
  fun _ _ _ => by rw [same]

theorem elsewhere_owe (same : t.debts = s.debts) (taken : Bool) (who : Party) (spot : Spot) :
    s.Elsewhere (t.owe taken who spot) spot := by
  intro party other away
  cases taken with
  | true => simp [owe,same,away]
  | false => simp [owe,same]

theorem elsewhere_erase (s : Scene τ α) (who : Party) (spot : Spot) :
    s.Elsewhere { s with debts := s.debts.erase (who,spot) } spot := by
  intro party other away
  exact List.mem_erase_of_ne (by simp [away])

theorem owed_owe (same : t.debts = s.debts) (taken : Bool) (who : Party) (spot : Spot) :
    (t.owe taken who spot).Owed spot ↔ taken = true ∨ s.Owed spot := by
  cases taken with
  | true => simp [Owed,owe]
  | false => simp [Owed,owe,same]

theorem Elsewhere.owed {spot other : Spot} (elsewhere : s.Elsewhere t spot) (away : other ≠ spot) :
    t.Owed other ↔ s.Owed other :=
  exists_congr fun who => elsewhere who other away

theorem Accounts.congr {i : Nat} {e : Evaluation} (accounts : s.Accounts i e)
    (scripts : t.Owed (.script i) ↔ s.Owed (.script i)) (outcomes : t.Owed (.outcome i) ↔ s.Owed (.outcome i))
    (followers : t.followers i = s.followers i) : t.Accounts i e where
  script := accounts.script.congr scripts.symm
  outcome := accounts.outcome.congr (by unfold FollowerOwes; rw [outcomes,followers])
  follower := fun stateName p found => accounts.follower stateName p (followers ▸ found)

/-- One evaluation is changed, with its follower and what is owed to it. -/
theorem Accounted.put {i : Nat} {e : Evaluation} {spot : Spot} (accounted : s.Accounted)
    (about : spot = .script i ∨ spot = .outcome i) (elsewhere : s.Elsewhere t spot)
    (workers : ∀ who, (who,spot) ∈ t.debts → who.isWorker = true) (puts : Desk.Puts s.desk t.desk i e)
    (here : t.Accounts i e) (others : t.others = s.others) (followers : ∀ j ≠ i, t.followers j = s.followers j) :
    t.Accounted := by
  have inside : i < t.desk.evaluations.size := (Array.getElem?_eq_some_iff.mp puts.here).1
  constructor
  case evaluations =>
    intro j f found
    by_cases same : j = i
    · subst same
      cases puts.here.symm.trans found
      exact here
    · have apart : Spot.script j ≠ spot ∧ Spot.outcome j ≠ spot := by
        rcases about with rfl | rfl <;> simp [same]
      exact (accounted.evaluations j f (puts.elsewhere j same ▸ found)).congr (elsewhere.owed apart.1)
        (elsewhere.owed apart.2) (followers j same)
  case others =>
    intro k g c found
    have apart : Spot.other k ≠ spot := by rcases about with rfl | rfl <;> simp
    exact (accounted.others k g c (others ▸ found)).congr (elsewhere.owed apart).symm
  case known =>
    intro who other owes
    by_cases same : other = spot
    · subst same
      rcases about with rfl | rfl <;> exact ⟨inside,workers who owes⟩
    · have known := accounted.known who other ((elsewhere who other same).mp owes)
      cases other with
      | script j | outcome j => exact ⟨puts.size ▸ known.1,known.2⟩
      | other k =>
        unfold Known
        rw [others]
        exact known
  case followed =>
    intro j outside
    rw [followers j (by omega)]
    exact accounted.followed j (puts.size ▸ outside)

/-- One completion of a caller is changed, with what is owed to it. -/
theorem Accounted.put_other {k : Nat} {b : Nat × Completion α} {f : Nat × Completion α → Nat × Completion α}
    (accounted : s.Accounted) (found : s.others[k]? = some b) (debts : List (Party × Spot))
    (elsewhere : s.Elsewhere { s with debts } (.other k)) (kept : (f b).2.Kept (∃ who, (who,Spot.other k) ∈ debts)) :
    { s with others := s.others.modify k f, debts }.Accounted := by
  have there : k < s.others.size := (Array.getElem?_eq_some_iff.mp found).1
  constructor
  case evaluations =>
    exact fun i e found => (accounted.evaluations i e found).congr (elsewhere.owed (by simp))
      (elsewhere.owed (by simp)) rfl
  case others =>
    intro j h d changed
    rw [Array.getElem?_modify] at changed
    split at changed
    · next same =>
      subst same
      rw [found] at changed
      cases same : f b with
      | mk h d =>
        cases (Option.some.inj changed).symm.trans same
        rw [same] at kept
        exact kept
    · next away =>
      have apart : Spot.other j ≠ Spot.other k := fun same => away (Spot.other.inj same).symm
      exact (accounted.others j h d changed).congr (elsewhere.owed apart).symm
  case known =>
    intro who spot owes
    by_cases same : spot = .other k
    · subst same
      exact Nat.lt_of_lt_of_eq there Array.size_modify.symm
    · have known := accounted.known who spot ((elsewhere who spot same).mp owes)
      cases spot with
      | script i | outcome i => exact known
      | other j => exact Nat.lt_of_lt_of_eq known Array.size_modify.symm
  case followed => exact accounted.followed

/-- The follower of an evaluation has taken a step. -/
theorem Accounted.arrive {i : Nat} {e : Evaluation} {stateName : String} {q : Poller (Work τ)} {v : Poller.View τ}
    (accounted : s.Accounted) (goes : Poller.Goes s.view i e (s.Owed (.script i)) (s.Owed (.outcome i)) q v) :
    (s.arrive i stateName q v).Accounted := by
  obtain ⟨f,puts,fits,script,outcome⟩ := goes.puts
  refine accounted.put (.inl rfl) (elsewhere_same rfl (.script i))
    (fun who owes => (accounted.known who _ owes).2) puts ⟨script,outcome.congr ?_,?_⟩ rfl
    fun j other => Function.update_of_ne other _ _
  · refine or_congr Iff.rfl ⟨fun owes => ⟨stateName,q,Function.update_self _ _ _,owes⟩,?_⟩
    rintro ⟨name,p,found,owes⟩
    cases (Function.update_self _ _ _).symm.trans found
    exact owes
  · intro name p found
    cases (Function.update_self _ _ _).symm.trans found
    exact fits

/-- A completion of an evaluation is changed, with what is owed to it. -/
theorem Accounted.change {i : Nat} {e : Evaluation} {spot : Spot} {f : Evaluation → Evaluation}
    (accounted : s.Accounted) (found : s.desk.evaluations[i]? = some e) (debts : List (Party × Spot))
    (about : spot = .script i ∨ spot = .outcome i) (elsewhere : s.Elsewhere { s with debts } spot)
    (workers : ∀ who, (who,spot) ∈ debts → who.isWorker = true)
    (script : (f e).script.Kept (∃ who, (who,Spot.script i) ∈ debts))
    (outcome : (f e).outcome.Kept ((∃ who, (who,Spot.outcome i) ∈ debts) ∨ s.FollowerOwes i))
    (same : (f e).generation = e.generation)
    (kept : e.outcome.slot.isSome = true → (f e).outcome.slot.isSome = true) :
    { s with desk := s.desk.change i f, debts }.Accounted :=
  accounted.put about elsewhere workers (Desk.puts_change found f)
    ⟨script,outcome,fun name p follows => ((accounted.evaluations i e found).follower name p follows).mono same kept⟩
    rfl fun _ _ => rfl

theorem Accounted.follows {i : Nat} {stateName : String} {p : Poller (Work τ)} (accounted : s.Accounted)
    (follows : s.followers i = some (stateName,p)) :
    ∃ e, s.desk.evaluations[i]? = some e ∧ p.Fits e ∧ e.script.Kept (s.Owed (.script i)) ∧
      e.outcome.Kept (s.Owed (.outcome i) ∨ p.Owes) := by
  have inside : i < s.desk.evaluations.size := by
    by_contra outside
    cases follows.symm.trans (accounted.followed i (Nat.le_of_not_lt outside))
  have found := Array.getElem?_eq_getElem inside
  have accounts := accounted.evaluations i _ found
  refine ⟨_,found,accounts.follower stateName p follows,accounts.script,accounts.outcome.congr (or_congr .rfl ⟨?_,?_⟩)⟩
  · rintro ⟨name,q,same,owes⟩
    cases follows.symm.trans same
    exact owes
  · exact fun owes => ⟨stateName,p,follows,owes⟩

/-- A watcher of an evaluation goes on, or its outcome is cancelled. -/
theorem Accounted.settle {i : Nat} {e : Evaluation} {f : Evaluation → Evaluation} (accounted : s.Accounted)
    (found : s.desk.evaluations[i]? = some e) (script : (f e).script.Kept (s.Owed (.script i)))
    (outcome : (f e).outcome.Kept (s.Owed (.outcome i) ∨ s.FollowerOwes i))
    (same : (f e).generation = e.generation)
    (kept : e.outcome.slot.isSome = true → (f e).outcome.slot.isSome = true) :
    { s with desk := s.desk.change i f }.Accounted :=
  accounted.change found s.debts (.inl rfl) (elsewhere_same rfl _) (fun who owes => (accounted.known who _ owes).2)
    script outcome same kept

/-- A job offers what came of a script, or an outcome. -/
theorem Accounted.offer {i g : Nat} {e : Evaluation} {spot : Spot} {taken : Bool} {f : Evaluation → Evaluation}
    (accounted : s.Accounted) (found : s.desk.evaluations[i]? = some e)
    (about : spot = .script i ∨ spot = .outcome i)
    (script : (f e).script.Kept ((s.owe taken (.worker g) spot).Owed (.script i)))
    (outcome : (f e).outcome.Kept ((s.owe taken (.worker g) spot).Owed (.outcome i) ∨ s.FollowerOwes i))
    (same : (f e).generation = e.generation)
    (kept : e.outcome.slot.isSome = true → (f e).outcome.slot.isSome = true) :
    ({ s with desk := s.desk.change i f }.owe taken (.worker g) spot).Accounted := by
  refine accounted.change found (s.owe taken (.worker g) spot).debts about (elsewhere_owe rfl taken _ spot) ?_
    script outcome same kept
  intro who owes
  have known : ∀ who, (who,spot) ∈ s.debts → who.isWorker = true := by
    intro who owes
    rcases about with rfl | rfl <;> exact (accounted.known who _ owes).2
  cases taken with
  | true =>
    rcases List.mem_cons.mp owes with same | owes
    · cases same
      rfl
    · exact known who owes
  | false => exact known who owes

theorem accounted_init (capacity : Nat) (own : τ) : (init capacity own : Scene τ α).Accounted where
  evaluations i e found := by simp [init] at found
  others k g c found := by simp [init] at found
  known who spot owes := by simp [init] at owes
  followed i _ := rfl

/-- A caller makes a completion. -/
theorem Accounted.create (accounted : s.Accounted) (g : Nat) (signal : Signal) :
    { s with others := s.others.push (g,Completion.bound signal) }.Accounted := by
  constructor
  case evaluations => exact fun i e found => (accounted.evaluations i e found).congr .rfl .rfl rfl
  case others =>
    intro k h c found
    rw [Array.getElem?_push] at found
    split at found
    · next last =>
      cases found
      refine (Completion.kept_bound signal).congr ⟨False.elim,?_⟩
      rintro ⟨who,owes⟩
      exact Nat.ne_of_lt (accounted.known who _ owes) last
    · exact accounted.others k h c found
  case known =>
    intro who spot owes
    have known := accounted.known who spot owes
    cases spot with
    | script i | outcome i => exact known
    | other k => exact Nat.lt_of_lt_of_eq (Nat.lt_succ_of_lt known) (Array.size_push _).symm
  case followed => exact accounted.followed

/-- There is a further evaluation, to which nobody has offered anything yet. -/
theorem Accounted.push {e : Evaluation} (accounted : s.Accounted) (script : e.script.Kept False)
    (outcome : e.outcome.Kept False) :
    { s with desk := { s.desk with evaluations := s.desk.evaluations.push e } }.Accounted := by
  constructor
  case evaluations =>
    intro i f found
    rw [Array.getElem?_push] at found
    split at found
    · next last =>
      cases found
      have nobody : ∀ spot : Spot, spot = .script i ∨ spot = .outcome i → ¬ s.Owed spot := by
        rintro spot about ⟨who,owes⟩
        rcases about with rfl | rfl <;> exact Nat.ne_of_lt (accounted.known who _ owes).1 last
      have alone : s.followers i = none := accounted.followed i (Nat.le_of_eq last.symm)
      refine ⟨script.congr ⟨False.elim,nobody _ (.inl rfl)⟩,outcome.congr ⟨False.elim,?_⟩,fun name p follows => ?_⟩
      · rintro (owes | ⟨name,p,follows,-⟩)
        · exact nobody _ (.inr rfl) owes
        · cases alone.symm.trans follows
      · cases alone.symm.trans follows
    · exact (accounted.evaluations i f found).congr .rfl .rfl rfl
  case others => exact accounted.others
  case known =>
    intro who spot owes
    have known := accounted.known who spot owes
    cases spot with
    | script i | outcome i => exact ⟨Nat.lt_of_lt_of_eq (Nat.lt_succ_of_lt known.1) (Array.size_push _).symm,known.2⟩
    | other k => exact known
  case followed =>
    intro i outside
    rw [Array.size_push] at outside
    exact accounted.followed i (Nat.le_of_succ_le outside)

/-- A caller makes an evaluation. -/
theorem Accounted.evaluate (accounted : s.Accounted) (g : Nat) (signal : Signal) :
    { s with desk := { s.desk with evaluations := s.desk.evaluations.push (.submitted g signal) } }.Accounted :=
  accounted.push (Completion.kept_bound signal) Completion.kept_fresh

/-- The follower of an evaluation starts. -/
theorem Accounted.follow {i : Nat} (accounted : s.Accounted) (inside : i < s.desk.evaluations.size)
    (alone : s.followers i = none) (stateName : String) :
    { s with followers := Function.update s.followers i (some (stateName,.awaitsScript)) }.Accounted := by
  have found := Array.getElem?_eq_getElem inside
  have accounts := accounted.evaluations i _ found
  refine accounted.put (.inl rfl) (elsewhere_same rfl (.script i))
    (fun who owes => (accounted.known who _ owes).2) (Desk.puts_same found)
    ⟨accounts.script,accounts.outcome.congr (or_congr .rfl ⟨?_,?_⟩),?_⟩ rfl
    fun j other => Function.update_of_ne other _ _
  · rintro ⟨name,p,follows,-⟩
    cases alone.symm.trans follows
  · rintro ⟨name,p,follows,owes⟩
    cases (Function.update_self _ _ _).symm.trans follows
    exact owes.elim
  · intro name p follows
    cases (Function.update_self _ _ _).symm.trans follows
    trivial

section
variable {first : Work τ} {backoff : Backoff}

/-- An offer is announced. -/
theorem Accounted.announce {who : Party} {spot : Spot} (accounted : s.Accounted) (owes : (who,spot) ∈ s.debts) :
    ({ s with debts := s.debts.erase (who,spot) }.announced spot).Accounted := by
  have known := accounted.known who spot owes
  have workers : ∀ other, (other,spot) ∈ s.debts.erase (who,spot) → (other,spot) ∈ s.debts :=
    fun other => List.mem_of_mem_erase
  cases spot with
  | script i =>
    have found := Array.getElem?_eq_getElem known.1
    have accounts := accounted.evaluations i _ found
    exact accounted.change found _ (.inl rfl) (elsewhere_erase s who _)
      (fun other owes => (accounted.known other _ (workers other owes)).2)
      (Completion.kept_announce (accounts.script.debt ⟨who,owes⟩))
      (accounts.outcome.congr (or_congr ((elsewhere_erase s who _).owed (by simp)).symm .rfl)) rfl id
  | outcome i =>
    have found := Array.getElem?_eq_getElem known.1
    have accounts := accounted.evaluations i _ found
    exact accounted.change found _ (.inr rfl) (elsewhere_erase s who _)
      (fun other owes => (accounted.known other _ (workers other owes)).2)
      (accounts.script.congr ((elsewhere_erase s who _).owed (by simp)).symm)
      (Completion.kept_announce (accounts.outcome.debt (.inl ⟨who,owes⟩))) rfl id
  | other k =>
    have found : s.others[k]? = some s.others[k] := Array.getElem?_eq_getElem known
    have kept := accounted.others k _ _ found
    exact accounted.put_other found _ (elsewhere_erase s who _) (Completion.kept_announce (kept.debt ⟨who,owes⟩))

theorem accounted_act {m : Move τ α} (accounted : s.Accounted) (taken : s.act first backoff m = some t) :
    t.Accounted := by
  cases m with
  | system a =>
    obtain ⟨system,-,rfl⟩ := Option.map_eq_some_iff.mp taken
    exact ⟨fun i e found => (accounted.evaluations i e found).congr .rfl .rfl rfl,accounted.others,accounted.known,
      accounted.followed⟩
  | create handle =>
    simp only [act] at taken
    split at taken
    · cases taken
      exact accounted.create handle _
    · cases taken
  | evaluate handle =>
    simp only [act] at taken
    split at taken
    · cases taken
      exact accounted.evaluate handle _
    · cases taken
  | follow i stateName =>
    simp only [act,Bool.and_eq_true,decide_eq_true_eq,Option.isNone_iff_eq_none] at taken
    split at taken
    · next fits =>
      cases taken
      exact accounted.follow fits.1 fits.2 stateName
    · cases taken
  | cancel i =>
    obtain ⟨e,found,rfl⟩ := Option.map_eq_some_iff.mp taken
    have accounts := accounted.evaluations i e found
    exact accounted.settle found accounts.script accounts.outcome.cancel rfl id
  | cancelOther k =>
    obtain ⟨⟨g,c⟩,found,rfl⟩ := Option.map_eq_some_iff.mp taken
    exact accounted.put_other found s.debts (elsewhere_same rfl _) (accounted.others k g c found).cancel
  | watchScript i choice =>
    obtain ⟨e,found,taken⟩ := Option.bind_eq_some_iff.mp taken
    obtain ⟨c,chosen,rfl⟩ := Option.map_eq_some_iff.mp taken
    have accounts := accounted.evaluations i e found
    exact accounted.settle found (accounts.script.watch (List.mem_of_getElem? chosen)).1 accounts.outcome rfl id
  | watchOutcome i choice =>
    obtain ⟨e,found,taken⟩ := Option.bind_eq_some_iff.mp taken
    obtain ⟨c,chosen,rfl⟩ := Option.map_eq_some_iff.mp taken
    have accounts := accounted.evaluations i e found
    obtain ⟨kept,full⟩ := accounts.outcome.watch (List.mem_of_getElem? chosen)
    exact accounted.settle found accounts.script kept rfl full
  | watchOther k choice =>
    obtain ⟨⟨g,c⟩,found,taken⟩ := Option.bind_eq_some_iff.mp taken
    obtain ⟨d,chosen,rfl⟩ := Option.map_eq_some_iff.mp taken
    exact accounted.put_other found s.debts (elsewhere_same rfl _)
      ((accounted.others k g c found).watch (List.mem_of_getElem? chosen)).1
  | poll i choice =>
    obtain ⟨⟨stateName,p⟩,follows,taken⟩ := Option.bind_eq_some_iff.mp taken
    obtain ⟨⟨q,v⟩,chosen,rfl⟩ := Option.map_eq_some_iff.mp taken
    obtain ⟨e,found,fits,script,outcome⟩ := accounted.follows follows
    exact accounted.arrive (Poller.goes_next found fits script outcome (List.mem_of_getElem? chosen))
  | pollLate i =>
    obtain ⟨⟨stateName,p⟩,follows,taken⟩ := Option.bind_eq_some_iff.mp taken
    obtain ⟨⟨q,v⟩,late,rfl⟩ := Option.map_eq_some_iff.mp taken
    obtain ⟨e,found,fits,script,outcome⟩ := accounted.follows follows
    exact accounted.arrive (Poller.goes_late found script outcome late)
  | offerScript g i r =>
    simp only [act,Bool.and_eq_true,decide_eq_true_eq] at taken
    split at taken
    · next fits =>
      have found := Array.getElem?_eq_getElem fits.2
      have accounts := accounted.evaluations i _ found
      simp only [Desk.offerScript,Desk.evaluation_eq found] at taken
      cases offered : s.desk.evaluations[i].script.offer r with
      | mk accepted c =>
        rw [offered] at taken
        cases taken
        have elsewhere : s.Elsewhere (s.owe accepted (.worker g) (.script i)) _ := elsewhere_owe rfl accepted _ _
        exact accounted.offer found (.inl rfl)
          ((accounts.script.offer offered).1.congr (owed_owe rfl accepted _ _).symm)
          (accounts.outcome.congr (or_congr (elsewhere.owed (by simp)).symm .rfl)) rfl id
    · cases taken
  | offerOutcome g i r =>
    simp only [act,Bool.and_eq_true,decide_eq_true_eq] at taken
    split at taken
    · next fits =>
      have found := Array.getElem?_eq_getElem fits.2
      have accounts := accounted.evaluations i _ found
      simp only [Desk.offerOutcome,Desk.evaluation_eq found] at taken
      cases offered : s.desk.evaluations[i].outcome.offer r with
      | mk accepted c =>
        rw [offered] at taken
        cases taken
        have elsewhere : s.Elsewhere (s.owe accepted (.worker g) (.outcome i)) _ := elsewhere_owe rfl accepted _ _
        obtain ⟨kept,full⟩ := accounts.outcome.offer offered
        exact accounted.offer found (.inr rfl) (accounts.script.congr (elsewhere.owed (by simp)).symm)
          (kept.congr (or_assoc.symm.trans (or_congr (owed_owe rfl accepted _ _).symm .rfl))) rfl full
    · cases taken
  | offerOther who k r =>
    simp only [act] at taken
    split at taken
    · obtain ⟨⟨g,c⟩,found,same⟩ := Option.map_eq_some_iff.mp taken
      cases offered : c.offer r with
      | mk accepted d =>
        simp only [offered] at same
        cases same
        exact accounted.put_other (f := fun _ => (g,d)) found _ (elsewhere_owe rfl accepted who _)
          (((accounted.others k g c found).offer offered).1.congr (owed_owe rfl accepted who _).symm)
    · cases taken
  | announce who spot =>
    simp only [act] at taken
    split at taken
    · next owes =>
      cases taken
      exact accounted.announce (List.contains_iff_mem.mp owes)
    · cases taken

end

end ScriptHost.Scene
