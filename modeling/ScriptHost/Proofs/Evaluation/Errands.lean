import ScriptHost.Proofs.Evaluation.Turns
/-!
What is known of the errands of an evaluation, whatever anybody else does. The follower hands its errands in one
after another, and each one has made its way into the queue before the next one is handed in, unless the generation
has ended. So the worker comes to them in the order of their ranks.
-/
namespace ScriptHost
open Engine (World Answer Thrown)
variable {τ : Type}

theorem entered_split {J : Type} (events history : List (Event J)) :
    entered (events ++ history) = entered events ++ entered history :=
  List.filterMap_append

theorem jobs_begun_append {J : Type} {n g : Nat} {history : List (Event J)} (began : n ∈ jobsOf (begun g history))
    (events : List (Event J)) : n ∈ jobsOf (begun g (events ++ history)) := by
  simp only [jobsOf,begun,List.filterMap_append]
  exact List.mem_append_right _ began

/-- The generation of a submission that was refused has ended. -/
theorem Submission.Step.refused {J : Type} {g : Nat} {s s' : Submission J} {t u : Scheduler J} (step : s.Step t s' u)
    (sends : Poller.Sends g s) (before : s = .refused ∨ s = .ended false → t.isOver g = true)
    (now : s' = .refused ∨ s' = .ended false) : t.isOver g = true := by
  cases step with
  | @late inside e past => exact sends e rfl ▸ past
  | @abandon e past => exact sends e rfl ▸ past
  | countRefused => exact before (.inl rfl)
  | @look inside e live => cases inside <;> rcases now with now | now <;> cases now
  | _ => rcases now with now | now <;> cases now

theorem Submission.Step.sends {J : Type} {g : Nat} {s s' : Submission J} {t u : Scheduler J} (step : s.Step t s' u)
    (sends : Poller.Sends g s) : Poller.Sends g s' := by
  intro e holds
  cases step with
  | @look inside f live => cases inside <;> exact sends e holds
  | full none => exact sends e holds
  | _ => cases holds

namespace System
variable {J : Type} {first : J} {capacity g n : Nat} {j : Journal J} {l : Ledger J} {σ : System J} {e : Envelope J}

/-- What a worker runs is underway. -/
theorem underway_of_running (known : g ≤ σ.scheduler.generation) (runs : (σ.workers g).running? = some n) :
    σ.isUnderway n = true := by
  have serial : (σ.workers g).serial? = some n := by
    cases place : σ.workers g <;> simp_all [Worker.running?,Worker.serial?]
  simp only [isUnderway,Bool.or_eq_true,List.any_eq_true,List.mem_range,beq_iff_eq]
  exact .inr ⟨g,Nat.lt_succ_of_le known,serial⟩

/-- An envelope in the hands of a worker is underway. -/
theorem underway_of_hand (known : g ≤ σ.scheduler.generation) (holds : (σ.workers g).inHand? = some e) :
    σ.isUnderway e.serial = true := by
  have serial : (σ.workers g).serial? = some e.serial := by
    cases place : σ.workers g <;> simp_all [Worker.inHand?,Worker.serial?]
  simp only [isUnderway,Bool.or_eq_true,List.any_eq_true,List.mem_range,beq_iff_eq]
  exact .inr ⟨g,Nat.lt_succ_of_le known,serial⟩

/-- There is nothing in the queue or in the hands of a worker. -/
def isIdle (σ : System J) : Bool :=
  σ.scheduler.queue.isEmpty && (List.range (σ.scheduler.generation+1)).all fun g => (σ.workers g).serial?.isNone

theorem isUnderway_of_isIdle (idle : σ.isIdle = true) (n : Nat) : σ.isUnderway n = false := by
  simp only [isIdle,Bool.and_eq_true,List.isEmpty_iff,List.all_eq_true,Option.isNone_iff_eq_none] at idle
  simp only [isUnderway,Scheduler.holds,idle.1,List.any_nil,Bool.false_or,List.any_eq_false,beq_iff_eq]
  intro g member
  rw [idle.2 g member]
  nofun

/-- A job that has entered the queue and is not underway any more has been run to its end, unless a stop has dropped it. -/
theorem executed_of_idle (audited : Audited first capacity j l σ)
    (live : σ.scheduler.isOver e.generation = false) (member : e ∈ entered σ.history) (job : ∃ x, e.task = .job x)
    (kept : ∀ h, (.drained h,e) ∉ j.left) (idle : σ.isUnderway e.serial = false) :
    (e.generation,e.serial) ∈ l.executed := by
  have journaled := audited.journaled
  have known : e.generation ≤ σ.scheduler.generation := journaled.begins.dated.entered e member
  rcases journaled.begins.begun_of_entered journaled.ordered live member kept with waits | holds | began
  · have waits : e ∈ σ.scheduler.queue := waits
    have underway : σ.isUnderway e.serial = true := by
      simp only [isUnderway,Scheduler.holds,Bool.or_eq_true,List.any_eq_true,beq_iff_eq]
      exact .inl ⟨e,waits,rfl⟩
    cases underway.symm.trans idle
  · cases (underway_of_hand known holds).symm.trans idle
  · refine (audited.executed_of_begun (Audited.mem_jobsOf.mpr ⟨e,began,job,rfl⟩)).resolve_left fun runs => ?_
    cases (underway_of_running known runs).symm.trans idle

end System

namespace Course

/-- Errands of this kind were handed in. -/
def Handed (k : Nat → Option Standing) (x : Errand) : Prop := ∃ n s, k n = some s ∧ s.errand = x

/-- An errand has made its way into the queue, or its generation has ended. -/
def Arrived (c : Plan) (p : Course τ) (n : Nat) (x : Errand) : Prop :=
  p.system.scheduler.isOver c.generation = true ∨ c.envelope n x ∈ entered p.system.history

/-- Where the errands of an evaluation are. -/
structure Queued (c : Plan) (p : Course τ) (k : Nat → Option Standing) : Prop where
  registered : ∀ n s, k n = some s → ∃ who, (who,c.envelope n s.errand) ∈ p.journal.calls
  arrived : ∀ n s, k n = some s → s.errand ≠ .script →
    p.ledger.pending (.thread c.thread) = some (c.envelope n s.errand) ∨ p.Arrived c n s.errand
  sends : ∀ s, p.follower.bind Poller.submission? = some s → Poller.Sends c.generation s ∧
    (s = .refused ∨ s = .ended false → p.system.scheduler.isOver c.generation = true)
  started : ∀ n s, k n = some s → s.isFresh = false → n ∈ jobsOf (begun c.generation p.system.history)
  executed : ∀ n s, k n = some s → (c.generation,n) ∈ p.ledger.executed → s.isOver = true
  order : ∀ n m s s', k n = some s → k m = some s' → s.errand ≠ .script → s.errand.rank < s'.errand.rank →
    p.Arrived c n s.errand ∧ ∀ f ∈ entered p.system.history, f.serial = m →
      p.system.scheduler.isOver c.generation = true ∨ Before (entered p.system.history) (c.envelope n s.errand) f

/-- What is known of the script and its errands. -/
structure Informed (c : Plan) (p : Course τ) (k : Nat → Option Standing) (e : Evaluation) : Prop where
  knows : Poller.Known e (Handed k) p.follower
  founded : ∀ x, Handed k x → x.Founded e (Handed k)
  value : ∀ v, e.script.slot = some (.ok v) → v = c.valueName

/-! ### Errands that were handed in -/

section
variable {k : Nat → Option Standing} {n : Nat} {s s' : Standing} {x : Errand} {e e' : Evaluation}

theorem handed_go (stands : k n = some s) (same : s'.errand = s.errand) :
    Handed (Function.update k n (some s')) = Handed k := by
  funext x
  refine propext ⟨?_,?_⟩
  · rintro ⟨m,u,stands',rfl⟩
    by_cases own : m = n
    · subst own
      cases (Function.update_self m _ k).symm.trans stands'
      exact ⟨m,s,stands,same.symm⟩
    · exact ⟨m,u,(Function.update_of_ne own _ _).symm.trans stands',rfl⟩
  · rintro ⟨m,u,stands',rfl⟩
    by_cases own : m = n
    · subst own
      cases stands.symm.trans stands'
      exact ⟨m,s',Function.update_self m _ k,same⟩
    · exact ⟨m,u,(Function.update_of_ne own _ _).trans stands',rfl⟩

theorem handed_new (free : k n = none) (x : Errand) :
    Handed (Function.update k n (some (.fresh x))) = fun y => Handed k y ∨ y = x := by
  funext y
  refine propext ⟨?_,?_⟩
  · rintro ⟨m,u,stands,rfl⟩
    by_cases own : m = n
    · subst own
      cases (Function.update_self m _ k).symm.trans stands
      exact .inr rfl
    · exact .inl ⟨m,u,(Function.update_of_ne own _ _).symm.trans stands,rfl⟩
  · rintro (⟨m,u,stands,rfl⟩ | rfl)
    · have other : m ≠ n := by
        rintro rfl
        cases free.symm.trans stands
      exact ⟨m,u,(Function.update_of_ne other _ _).trans stands,rfl⟩
    · exact ⟨n,_,Function.update_self n _ k,rfl⟩

theorem founded_later {valueName : String} {handed handed' : Errand → Prop} (founded : x.Founded e handed)
    (later : e.Later valueName e') (more : ∀ y, handed y → handed' y) : x.Founded e' handed' := by
  cases x with
  | script => trivial
  | follow v => exact later.script _ founded
  | look => exact founded.imp fun v => more _
  | clean value =>
    obtain ⟨r,full,same⟩ := founded
    exact ⟨r,later.script r full,same⟩

end

section
variable {c : Plan} {first : Work τ} {capacity : Nat} {p q : Course τ} {k k' : Nat → Option Standing}
  {e e' : Evaluation} {t : Turn τ} {a : Action (Work τ)} {σ : System (Work τ)} {n : Nat} {s s' : Standing} {x : Errand}

/-! ### The scheduler goes on -/

/-- What a step of the scheduler's threads leaves as it was or adds to. -/
structure Onward (c : Plan) (p q : Course τ) : Prop where
  past : p.system.scheduler.isOver c.generation = true → q.system.scheduler.isOver c.generation = true
  history : ∃ events, q.system.history = events ++ p.system.history
  calls : ∀ call ∈ p.journal.calls, call ∈ q.journal.calls

theorem onward (based : Based c first capacity p k e) (taken : p.system.act first a = some q.system)
    (journal : q.journal = p.journal.after p.system q.system a) : p.Onward c q :=
  ⟨based.audited.over_step taken based.handle,System.history_step (System.step_of_act taken),
    fun _ called => journal ▸ Journal.calls_after called⟩

theorem Arrived.onward (arrived : p.Arrived c n x) (onward : p.Onward c q) : q.Arrived c n x := by
  rcases arrived with past | member
  · exact .inl (onward.past past)
  · obtain ⟨events,same⟩ := onward.history
    exact .inr (same ▸ entered_append events member)

theorem order_onward {m : Nat} (onward : p.Onward c q) (arrived : p.Arrived c n x)
    (order : ∀ f ∈ entered p.system.history, f.serial = m →
      p.system.scheduler.isOver c.generation = true ∨ Before (entered p.system.history) (c.envelope n x) f) :
    q.Arrived c n x ∧ ∀ f ∈ entered q.system.history, f.serial = m →
      q.system.scheduler.isOver c.generation = true ∨ Before (entered q.system.history) (c.envelope n x) f := by
  refine ⟨arrived.onward onward,fun f member serial => ?_⟩
  obtain ⟨events,same⟩ := onward.history
  rw [same,entered_split] at member ⊢
  rcases List.mem_append.mp member with new | old
  · rcases arrived with past | there
    · exact .inl (onward.past past)
    · exact .inr (before_append there new)
  · rcases order f old serial with past | before
    · exact .inl (onward.past past)
    · exact .inr (before.append _)

/-- Nobody but the worker that runs a job comes to the end of it. -/
theorem executed_other (taken : p.system.act first a = some σ) (other : ∀ panicked, a ≠ .finish c.generation panicked)
    (executed : (c.generation,n) ∈ (p.ledger.after p.system a).executed) : (c.generation,n) ∈ p.ledger.executed := by
  rcases Audited.executed_step (System.step_of_act taken) executed with old | ⟨⟨panicked,finish⟩,-⟩
  · exact old
  · exact absurd finish (other panicked)

/-- The follower has nothing pending while it is in no submission. -/
theorem pending_of_quiet (based : Based c first capacity p k e)
    (quiet : p.follower.bind Poller.submission? = none) : p.ledger.pending (.thread c.thread) = none := by
  cases waits : p.ledger.pending (.thread c.thread) with
  | none => rfl
  | some f =>
    obtain ⟨s,called,-⟩ := based.audited.answered.pending _ f waits
    rw [based.call,quiet] at called
    cases called

/-- What a submission that is over has handed in is in the queue, or its generation has ended. -/
theorem arrived_of_over (based : Based c first capacity p k e) (queued : Queued c p k) {u : Submission (Work τ)}
    (calls : p.follower.bind Poller.submission? = some u) (past : (Call.submit u).isOver = true)
    (waits : p.ledger.pending (.thread c.thread) = some (c.envelope n x)) : p.Arrived c n x := by
  obtain ⟨u',called,backs⟩ := based.audited.answered.pending _ _ waits
  rw [based.call,calls] at called
  cases called
  cases u with
  | ended accepted =>
    cases accepted with
    | true => exact .inr backs
    | false => exact .inl ((queued.sends _ calls).2 (.inr rfl))
  | _ => cases past

/-- Envelopes that have entered the queue have older numbers than the next one. -/
theorem entered_lt (based : Based c first capacity p k e) {f : Envelope (Work τ)}
    (member : f ∈ entered p.system.history) : f.serial < p.system.scheduler.serial :=
  based.audited.journaled.ordered.single.bound f member

/-- No errand has the next number. -/
theorem next_free (based : Based c first capacity p k e) (queued : Queued c p k) : k p.system.scheduler.serial = none := by
  cases stands : k p.system.scheduler.serial with
  | none => rfl
  | some s =>
    obtain ⟨who,called⟩ := queued.registered _ s stands
    exact absurd (based.audited.journaled.ordered.inTurn.bound who _ called) (Nat.lt_irrefl _)

/-! ### Steps -/

/-- The job that runs goes on. -/
theorem Based.went {last : World} {desk : Desk τ} (based : Based c first capacity p k e)
    (found : desk.evaluations[c.number]? = some e') (later : e.Later c.valueName e')
    (announced : s' = .announcesScript → e'.script.slot.isSome = true) :
    Based c first capacity ({ p with world := last, desk }.goOn n (s'.doing c)) (Function.update k n (some s')) e' := by
  have ⟨audited,handle,call,errands,_,generation,honest,taken⟩ := based
  refine ⟨audited,handle,call,fun m => ?_,found,later.generation.trans generation,later.honest honest,fun m stands' => ?_⟩
  · by_cases own : m = n
    · subst own
      simp [goOn]
    · simp [goOn,Function.update_of_ne own,errands]
  · by_cases own : m = n
    · subst own
      cases (Function.update_self m _ k).symm.trans stands'
      exact announced rfl
    · obtain ⟨r,full⟩ := Option.isSome_iff_exists.mp (taken m ((Function.update_of_ne own _ _).symm.trans stands'))
      rw [later.script r full]
      rfl

theorem Based.step (based : Based c first capacity p k e) (step : Step c first p k e t q k' e') :
    Based c first capacity q k' e' := by
  have ⟨audited,handle,call,errands,found,generation,honest,taken⟩ := based
  have sound := System.sound_of_reachable audited.journaled.reachable
  have free : ∀ {f : Poller (Work τ)}, p.follower = some f → f.submission? = none →
      p.system.isFree (.thread c.thread) = true := by
    intro f follows before
    rw [follows] at call
    exact Option.isNone_iff_eq_none.mpr (call.trans (congrArg (Option.map _) before))
  cases step with
  | others apart stepped ends =>
    have step := System.step_of_act stepped
    exact ⟨.act _ audited stepped,System.handles_step step handle,(System.call_step sound step apart).trans call,errands,
      found,generation,honest,taken⟩
  | @errand t n s s' last desk e' runs stands goes found later =>
    exact based.went found later (goes.taken based.found found)
  | still found later outside quiet knows =>
    refine ⟨audited,handle,call.trans (congrArg _ quiet.symm),errands,found,later.generation.trans generation,
      later.honest honest,fun n stands => ?_⟩
    obtain ⟨r,full⟩ := Option.isSome_iff_exists.mp (taken n stands)
    rw [later.script r full]
    rfl
  | @handIn t f q x σ follows before after founded stepped =>
    have step := System.step_of_act stepped
    refine ⟨.act _ audited stepped,System.handles_step step handle,?_,fun m => ?_,found,generation,honest,fun m stands => ?_⟩
    · cases step with
      | submit free taken =>
        exact (System.call_goOn sound _ (.inr free) _ _).trans (congrArg (Option.map Call.submit) after).symm
    · by_cases own : m = p.system.scheduler.serial
      · subst own
        simp [goOn,through]
      · simp [goOn,through,Function.update_of_ne own,errands]
    · by_cases own : m = p.system.scheduler.serial
      · subst own
        cases (Function.update_self _ _ k).symm.trans stands
      · exact taken m ((Function.update_of_ne own _ _).symm.trans stands)
  | sends follows before after step knows stepped calls =>
    exact ⟨.act _ audited stepped,System.handles_step (System.step_of_act stepped) handle,
      calls.trans (congrArg (Option.map Call.submit) after).symm,errands,found,generation,honest,taken⟩
  | returns follows before after knows stepped =>
    have step := System.step_of_act stepped
    refine ⟨.act _ audited stepped,System.handles_step step handle,?_,errands,found,generation,honest,taken⟩
    cases step with
    | «return» called past =>
      exact (System.call_setCall _ none (.inl ⟨_,called⟩)).trans (congrArg (Option.map Call.submit) after).symm

/-- Steps of the scheduler's threads by which nothing becomes pending or known to the follower. -/
theorem Queued.through (queued : Queued c p k) (based : Based c first capacity p k e)
    (taken : p.system.act first a = some σ) {f : Option (Poller (Work τ))}
    (arrived : ∀ n x, p.ledger.pending (.thread c.thread) = some (c.envelope n x) →
      (p.ledger.after p.system a).pending (.thread c.thread) = some (c.envelope n x) ∨ p.Arrived c n x)
    (sends : ∀ u, f.bind Poller.submission? = some u → Poller.Sends c.generation u ∧
      (u = .refused ∨ u = .ended false → p.system.scheduler.isOver c.generation = true))
    (ends : ∀ n s, k n = some s → (c.generation,n) ∈ (p.ledger.after p.system a).executed → s.isOver = true) :
    Queued c ({ p with follower := f }.through a σ) k := by
  have onward : p.Onward c ({ p with follower := f }.through a σ) := Course.onward based taken rfl
  obtain ⟨events,same⟩ := onward.history
  refine ⟨fun n s stands => ?_,fun n s stands other => ?_,fun u holds => ?_,fun n s stands old => ?_,ends,
    fun n m s s' stands stands' other less => ?_⟩
  · obtain ⟨who,called⟩ := queued.registered n s stands
    exact ⟨who,onward.calls _ called⟩
  · rcases queued.arrived n s stands other with waits | there
    · rcases arrived n _ waits with waits | there
      · exact .inl waits
      · exact .inr (there.onward onward)
    · exact .inr (there.onward onward)
  · obtain ⟨sends,refused⟩ := sends u holds
    exact ⟨sends,fun now => onward.past (refused now)⟩
  · rw [same]
    exact jobs_begun_append (queued.started n s stands old) events
  · obtain ⟨there,order⟩ := queued.order n m s s' stands stands' other less
    exact order_onward onward there order

/-- The job that runs stays where it is in the queue. -/
theorem Queued.went {last : World} {desk : Desk τ} (queued : Queued c p k) (based : Based c first capacity p k e)
    (runs : (p.system.workers c.generation).running? = some n) (stands : k n = some s) (kept : s'.errand = s.errand) :
    Queued c ({ p with world := last, desk }.goOn n (s'.doing c)) (Function.update k n (some s')) := by
  have same : ∀ {m u}, Function.update k n (some s') m = some u → ∃ u', k m = some u' ∧ u.errand = u'.errand ∧
      (m = n ∨ u = u') := by
    intro m u stands'
    by_cases own : m = n
    · subst own
      cases (Function.update_self m _ k).symm.trans stands'
      exact ⟨s,stands,kept,.inl rfl⟩
    · exact ⟨u,(Function.update_of_ne own _ _).symm.trans stands',rfl,.inr rfl⟩
  refine ⟨fun m u stands => ?_,fun m u stands other => ?_,queued.sends,fun m u stands old => ?_,
    fun m u stands executed => ?_,fun m m' u u' stands stands' other less => ?_⟩
  · obtain ⟨u',before,errand,-⟩ := same stands
    exact errand ▸ queued.registered m u' before
  · obtain ⟨u',before,errand,-⟩ := same stands
    rw [errand] at other ⊢
    exact queued.arrived m u' before other
  · obtain ⟨u',before,-,rfl | rfl⟩ := same stands
    · exact based.audited.begun_of_running runs
    · exact queued.started m u before old
  · obtain ⟨u',before,-,rfl | rfl⟩ := same stands
    · exact absurd executed (based.audited.not_executed_of_running runs)
    · exact queued.executed m u before executed
  · obtain ⟨v,before,errand,-⟩ := same stands
    obtain ⟨v',before',errand',-⟩ := same stands'
    rw [errand] at other less ⊢
    rw [errand'] at less
    exact queued.order m m' v v' before before' other less

/-- The ranks of errands that are handed in never fall. -/
theorem Queued.step (queued : Queued c p k) (based : Based c first capacity p k e) (informed : Informed c p k e)
    (step : Step c first p k e t q k' e') : Queued c q k' := by
  cases step with
  | @others a σ apart taken ends =>
    refine queued.through (f := p.follower) based taken (fun n x waits => .inl ?_) queued.sends fun n s stands executed => ?_
    · rw [Ledger.pending_after _ (System.step_of_act taken) apart]
      exact waits
    · rcases Audited.executed_step (System.step_of_act taken) executed with old | ⟨⟨panicked,finish⟩,runs⟩
      · exact queued.executed n s stands old
      · exact ends panicked n s finish runs stands
  | @errand t n s s' last desk e' runs stands goes found later =>
    exact queued.went based runs stands goes.errand
  | still found later outside quiet knows =>
    exact ⟨queued.registered,queued.arrived,fun u holds => queued.sends u (quiet ▸ holds),queued.started,queued.executed,
      queued.order⟩
  | @handIn t f q x σ follows before after founded taken =>
    have quiet : p.follower.bind Poller.submission? = none := by
      rw [follows]
      exact before
    have none := pending_of_quiet based quiet
    have free := next_free based queued
    -- What is old is where it was, as nothing was pending.
    have old : Queued c ({ p with follower := some q }.through (.submit (.thread c.thread) c.generation (x.job c)) σ) k := by
      refine queued.through based taken (fun n y waits => ?_) (fun u holds => ?_) queued.executed
      · cases none.symm.trans waits
      · cases holds.symm.trans after
        exact ⟨fun f same => by cases same; rfl,fun now => by rcases now with now | now <;> cases now⟩
    have outside : ∀ f ∈ entered σ.history, f.serial ≠ p.system.scheduler.serial := by
      intro f member serial
      cases System.step_of_act taken with
      | submit free' handle =>
        have member : f ∈ entered p.system.history := System.history_setCall p.system _ _ ▸ member
        have less := entered_lt based member
        omega
    have unexecuted : (c.generation,p.system.scheduler.serial) ∉ p.ledger.executed := by
      intro executed
      obtain ⟨f,began,-,serial⟩ := Audited.mem_jobsOf.mp (based.audited.begun_of_executed executed)
      have less := entered_lt based (based.audited.journaled.entered_of_begun began)
      omega
    have same : ∀ {m u}, Function.update k p.system.scheduler.serial (some (.fresh x)) m = some u →
        m = p.system.scheduler.serial ∧ u = .fresh x ∨ k m = some u := by
      intro m u stands
      by_cases own : m = p.system.scheduler.serial
      · subst own
        cases (Function.update_self _ _ k).symm.trans stands
        exact .inl ⟨rfl,rfl⟩
      · exact .inr ((Function.update_of_ne own _ _).symm.trans stands)
    refine ⟨fun m u stands => ?_,fun m u stands other => ?_,old.sends,fun m u stands fresh => ?_,
      fun m u stands executed => ?_,fun m m' u u' stands stands' other less => ?_⟩
    · rcases same stands with ⟨rfl,rfl⟩ | stands
      · exact ⟨_,List.mem_cons_self⟩
      · exact old.registered m u stands
    · rcases same stands with ⟨rfl,rfl⟩ | stands
      · exact .inl (Function.update_self ..)
      · exact old.arrived m u stands other
    · rcases same stands with ⟨rfl,rfl⟩ | stands
      · cases fresh
      · exact old.started m u stands fresh
    · rcases same stands with ⟨rfl,rfl⟩ | stands
      · exact absurd executed unexecuted
      · exact old.executed m u stands executed
    · have knows := informed.knows
      rw [follows] at knows
      obtain ⟨-,ranks,-⟩ := founded _ knows
      rcases same stands with ⟨rfl,rfl⟩ | stands <;> rcases same stands' with ⟨rfl,rfl⟩ | stands'
      · exact absurd less (Nat.lt_irrefl _)
      · have le := ranks _ ⟨_,_,stands',rfl⟩
        exact absurd less (Nat.not_lt.mpr le)
      · refine ⟨?_,fun f member serial => absurd serial (outside f member)⟩
        rcases queued.arrived m u stands other with waits | there
        · cases none.symm.trans waits
        · exact there.onward (onward based taken rfl)
      · exact old.order m m' u u' stands stands' other less
  | @sends t f q u u' choice v σ follows before after step knows taken calls =>
    have holds : p.follower.bind Poller.submission? = some u := by
      rw [follows]
      exact before
    obtain ⟨sends,refused⟩ := queued.sends u holds
    refine queued.through based taken (fun n y waits => .inl waits) (fun u'' holds => ?_) queued.executed
    cases holds.symm.trans after
    exact ⟨step.sends sends,fun now => step.refused sends refused now⟩
  | @returns t f q u σ follows before after knows taken =>
    have holds : p.follower.bind Poller.submission? = some u := by
      rw [follows]
      exact before
    refine queued.through based taken (fun n y waits => .inr ?_) (fun u'' holds => ?_) fun n s stands executed => ?_
    · cases System.step_of_act taken with
      | «return» called past =>
        rw [based.call,holds] at called
        cases called
        exact arrived_of_over based queued holds past waits
    · cases holds.symm.trans after
    · exact queued.executed n s stands (executed_other taken nofun executed)

theorem Informed.went {last : World} {desk : Desk τ} (informed : Informed c p k e) (stands : k n = some s)
    (kept : s'.errand = s.errand) (later : e.Later c.valueName e') :
    Informed c ({ p with world := last, desk }.goOn n (s'.doing c)) (Function.update k n (some s')) e' := by
  obtain ⟨knows,founded,value⟩ := informed
  have same := handed_go stands kept
  refine ⟨same.symm ▸ knows.later later,?_,fun v full => ?_⟩
  · rw [same]
    exact fun x handed => founded_later (founded x handed) later fun y => id
  · rcases later.value v full with old | own
    · exact value v old
    · exact own

theorem Informed.step (informed : Informed c p k e) (based : Based c first capacity p k e) (queued : Queued c p k)
    (step : Step c first p k e t q k' e') : Informed c q k' e' := by
  obtain ⟨knows,founded,value⟩ := informed
  have valued : e.Later c.valueName e' → ∀ v, e'.script.slot = some (.ok v) → v = c.valueName := by
    intro later v full
    rcases later.value v full with old | own
    · exact value v old
    · exact own
  have later_founded : e.Later c.valueName e' → ∀ x, Handed k x → x.Founded e' (Handed k) :=
    fun later x handed => founded_later (founded x handed) later fun y => id
  cases step with
  | others apart taken ends => exact ⟨knows,founded,value⟩
  | errand runs stands goes found later =>
    exact Informed.went ⟨knows,founded,value⟩ stands goes.errand later
  | still found later outside quiet goes => exact ⟨goes _ knows,later_founded later,valued later⟩
  | @handIn t f q x σ follows before after goes taken =>
    have same := handed_new (next_free based queued) x
    rw [follows] at knows
    obtain ⟨own,-,known⟩ := goes _ knows
    refine ⟨same.symm ▸ known,?_,value⟩
    rw [same]
    rintro y (handed | rfl)
    · exact founded_later (founded y handed) (.refl c.valueName e) fun y => .inl
    · exact founded_later own (.refl c.valueName e) fun y => .inl
  | sends follows before after step goes taken calls =>
    rw [follows] at knows
    exact ⟨goes _ knows,founded,value⟩
  | returns follows before after goes taken =>
    rw [follows] at knows
    exact ⟨goes _ knows,founded,value⟩

end

/-! ### Courses -/

/-- What is known of a course, whatever anybody else does. -/
structure Sound (c : Plan) (first : Work τ) (capacity : Nat) (p : Course τ) (k : Nat → Option Standing)
    (e : Evaluation) : Prop where
  based : Based c first capacity p k e
  queued : Queued c p k
  informed : Informed c p k e

section
variable {c : Plan} {first : Work τ} {capacity : Nat} {p q : Course τ} {k k' : Nat → Option Standing}
  {e e' : Evaluation} {t : Turn τ}

theorem Sound.step (sound : Sound c first capacity p k e) (step : Step c first p k e t q k' e') :
    Sound c first capacity q k' e' :=
  ⟨sound.based.step step,sound.queued.step sound.based sound.informed step,
    sound.informed.step sound.based sound.queued step⟩

/-- The job that runs goes on, whatever it is that makes it do so. -/
theorem Sound.went {n : Nat} {s s' : Standing} {last : World} {desk : Desk τ} (sound : Sound c first capacity p k e)
    (runs : (p.system.workers c.generation).running? = some n) (stands : k n = some s) (kept : s'.errand = s.errand)
    (found : desk.evaluations[c.number]? = some e') (later : e.Later c.valueName e')
    (announced : s' = .announcesScript → e'.script.slot.isSome = true) :
    Sound c first capacity ({ p with world := last, desk }.goOn n (s'.doing c)) (Function.update k n (some s')) e' :=
  ⟨sound.based.went found later announced,sound.queued.went sound.based runs stands kept,
    sound.informed.went stands kept later⟩

/-- The program is handed in. -/
theorem sound_handIn {j : Journal (Work τ)} {l : Ledger (Work τ)} {σ υ : System (Work τ)} {who : Party} {desk : Desk τ}
    {world : World} {signal : Signal} (audited : Audited first capacity j l σ)
    (free : σ.call? (.thread c.thread) = none) (apart : who ≠ .thread c.thread)
    (taken : σ.act first (.submit who c.generation (Errand.script.job c)) = some υ)
    (made : desk.evaluations[c.number]? = some (.submitted c.generation signal)) :
    Sound c first capacity
      { system := υ
        journal := j.after σ υ (.submit who c.generation (Errand.script.job c))
        ledger := l.after σ (.submit who c.generation (Errand.script.job c))
        desk, world
        errands := Function.update (fun _ => none) σ.scheduler.serial (some (Errand.script.doing c)) }
      (Function.update (fun _ => none) σ.scheduler.serial (some (.fresh .script))) (.submitted c.generation signal) := by
  have step := System.step_of_act taken
  have sound := System.sound_of_reachable audited.journaled.reachable
  have only : ∀ {n s}, Function.update (fun _ => none) σ.scheduler.serial (some (Standing.fresh .script)) n = some s →
      n = σ.scheduler.serial ∧ s = .fresh .script := by
    intro n s stands
    by_cases own : n = σ.scheduler.serial
    · subst own
      rw [Function.update_self] at stands
      exact ⟨rfl,(Option.some.inj stands).symm⟩
    · rw [Function.update_of_ne own] at stands
      cases stands
  have handle : c.generation ∈ σ.handles := by
    cases step with
    | submit free handle => exact handle
  refine ⟨⟨.act _ audited taken,System.handles_step step handle,?_,fun n => ?_,made,rfl,?_,fun n stands => ?_⟩,
    ⟨fun n s stands => ?_,fun n s stands other => ?_,nofun,fun n s stands old => ?_,fun n s stands executed => ?_,
      fun n m s s' stands stands' other => ?_⟩,⟨?_,?_,fun v full => ?_⟩⟩
  · exact (System.call_step sound step apart.symm).trans free
  · by_cases own : n = σ.scheduler.serial
    · subst own
      simp only [Function.update_self,Option.map_some]
      rfl
    · simp [Function.update_of_ne own]
  · exact (Completion.kept_bound signal).honest
  · cases (only stands).2
  · obtain ⟨rfl,rfl⟩ := only stands
    exact ⟨who,List.mem_cons_self⟩
  · obtain ⟨rfl,rfl⟩ := only stands
    exact absurd rfl other
  · obtain ⟨rfl,rfl⟩ := only stands
    cases old
  · obtain ⟨rfl,rfl⟩ := only stands
    exact absurd rfl (Nat.ne_of_lt (audited.serial_of_begun (audited.begun_of_executed executed)))
  · obtain ⟨rfl,rfl⟩ := only stands
    exact absurd rfl other
  · rintro x ⟨n,s,stands,rfl⟩
    rw [(only stands).2]
    rfl
  · rintro x ⟨n,s,stands,rfl⟩
    rw [(only stands).2]
    trivial
  · have full : (Completion.bound signal : Completion String).slot = some (.ok v) := full
    unfold Completion.bound at full
    split at full
    · cases full
    · cases full

/-- Where the errands of a course stand, whatever anybody else does. -/
theorem exists_sound {backoff : Backoff} {polite : Course τ → Turn τ → Prop}
    (reached : Reachable c first backoff capacity polite p) : ∃ k e, Sound c first capacity p k e := by
  induction reached with
  | handIn audited free apart taken made names keeps value state => exact ⟨_,_,sound_handIn audited free apart taken made⟩
  | act t reached possible tact taken ih =>
    obtain ⟨k,e,sound⟩ := ih
    obtain ⟨k',e',step⟩ := step_of_act sound.based possible taken
    exact ⟨k',e',sound.step step⟩

/-- An errand that has computed nothing yet has all of its job before it. -/
theorem Sound.doing_of_isAt {x : Errand} (sound : Sound c first capacity p k e) (here : p.isAt c x = true) :
    ∃ n, p.running? c = some (n,x.doing c) := by
  obtain ⟨⟨n,d⟩,running,fresh⟩ := (Option.any_eq_true _ _).mp here
  have found : p.errands n = some d := by
    obtain ⟨m,-,found⟩ := Option.bind_eq_some_iff.mp running
    obtain ⟨d',found,same⟩ := Option.map_eq_some_iff.mp found
    cases same
    exact found
  obtain ⟨s,-,rfl⟩ := Option.map_eq_some_iff.mp ((sound.based.errands n).symm.trans found)
  simp only [Bool.and_eq_true,decide_eq_true_eq,Bool.not_eq_true'] at fresh
  obtain ⟨rfl,fresh⟩ := fresh
  cases s with
  | fresh x => exact ⟨n,running⟩
  | _ => cases fresh

theorem Reachable.doing_of_isAt {backoff : Backoff} {polite : Course τ → Turn τ → Prop} {x : Errand}
    (reached : Reachable c first backoff capacity polite p) (here : p.isAt c x = true) :
    ∃ n, p.running? c = some (n,x.doing c) := by
  obtain ⟨k,e,sound⟩ := exists_sound reached
  exact sound.doing_of_isAt here

/-- The errand that runs computes, and turns come after that. -/
theorem Reachable.leg {backoff : Backoff} {polite : Course τ → Turn τ → Prop} {x : Errand} {m : World → Engine.Tree (Work τ)}
    {answers : List Answer} {r : Except Thrown (Work τ)} {last : World} {turns : List (Turn τ)}
    (reached : Reachable c first backoff capacity polite p) (here : p.isAt c x = true) (job : x.job c = .engine m)
    (ends : (m p.world).Ends answers r last) (tact : polite p (.compute answers r last))
    (polite_of : ∀ p t, Course.allows c p t = true → polite p t)
    (ran : p.leg c first backoff answers r last turns = some q) :
    Reachable c first backoff capacity polite q ∧ q.world = last := by
  obtain ⟨n,running⟩ := reached.doing_of_isAt here
  obtain ⟨middle,taken,ran⟩ := Option.bind_eq_some_iff.mp ran
  have computed : middle.world = last := by
    simp only [Course.act,running,Errand.doing,job] at taken
    cases taken
    rfl
  have possible : p.Possible c (.compute answers r last) := by
    intro n' d m' running' rest
    cases running.symm.trans running'
    cases job.symm.trans rest
    exact ends
  exact ⟨.run (.act _ reached possible tact taken) turns polite_of ran,(world_run ran).trans computed⟩

/-! ### One errand after another -/

variable {n m : Nat} {s s' : Standing}

/-- Where an errand that runs stands. -/
theorem Sound.stands_of_running {d : Doing τ} (sound : Sound c first capacity p k e)
    (running : p.running? c = some (m,d)) :
    (p.system.workers c.generation).running? = some m ∧ ∃ s, k m = some s ∧ s.errand = d.errand := by
  obtain ⟨n,runs,found⟩ := Option.bind_eq_some_iff.mp running
  obtain ⟨d',found,same⟩ := Option.map_eq_some_iff.mp found
  cases same
  obtain ⟨s,stands,rfl⟩ := Option.map_eq_some_iff.mp ((sound.based.errands m).symm.trans found)
  exact ⟨runs,s,stands,rfl⟩

/-- Errands that have computed something have come to their end, but for the one that runs. -/
theorem Sound.over_of_other (sound : Sound c first capacity p k e)
    (runs : (p.system.workers c.generation).running? = some m) (stands : k n = some s') (old : s'.isFresh = false)
    (other : n ≠ m) : s'.isOver = true := by
  refine sound.queued.executed n s' stands ?_
  refine (sound.based.audited.executed_of_begun (sound.queued.started n s' stands old)).resolve_left fun same => ?_
  exact other (Option.some.inj (same.symm.trans runs))

/-- While an errand runs, errands of higher ranks have not computed anything. -/
theorem Sound.fresh_of_later (sound : Sound c first capacity p k e)
    (runs : (p.system.workers c.generation).running? = some n) (stands : k n = some s) (other : s.errand ≠ .script)
    (stands' : k m = some s') (less : s.errand.rank < s'.errand.rank) : s'.isFresh = true := by
  have live := sound.based.audited.live_of_running runs
  by_contra old
  have began := sound.queued.started m s' stands' (by simpa using old)
  obtain ⟨f,member,-,rfl⟩ := Audited.mem_jobsOf.mp began
  have entered := sound.based.audited.journaled.entered_of_begun member
  rcases (sound.queued.order n _ s s' stands stands' other less).2 f entered rfl with past | ahead
  · cases live.symm.trans past
  · exact sound.based.audited.not_begun_of_behind runs ahead rfl rfl began

/-- While an errand runs, errands of lower ranks have come to their end, unless a stop has dropped them. -/
theorem Sound.over_of_earlier (sound : Sound c first capacity p k e)
    (runs : (p.system.workers c.generation).running? = some m) (stands : k n = some s) (other : s.errand ≠ .script)
    (stands' : k m = some s') (less : s.errand.rank < s'.errand.rank)
    (kept : ∀ h, (.drained h,c.envelope n s.errand) ∉ p.journal.left) :
    Before (jobsOf (begun c.generation p.system.history)) n m ∧ (c.generation,n) ∈ p.ledger.executed ∧
      s.isOver = true := by
  have audited := sound.based.audited
  have live := audited.live_of_running runs
  obtain ⟨f,member,-,rfl⟩ := Audited.mem_jobsOf.mp (audited.begun_of_running runs)
  have entered := audited.journaled.entered_of_begun member
  rcases (sound.queued.order n _ s s' stands stands' other less).2 f entered rfl with past | ahead
  · cases live.symm.trans past
  · obtain ⟨-,before⟩ := audited.jobs_before ahead rfl rfl kept (audited.begun_of_running runs)
    obtain ⟨-,executed⟩ := audited.executed_of_ahead runs ahead rfl rfl kept
    exact ⟨before,executed,sound.queued.executed n s stands executed⟩

/-- An errand of the follower that is not underway has come to its end, unless a stop has dropped it or the generation
    has ended. -/
theorem Sound.over_of_idle (sound : Sound c first capacity p k e) (live : p.system.scheduler.isOver c.generation = false)
    (quiet : p.follower.bind Poller.submission? = none) (stands : k n = some s) (other : s.errand ≠ .script)
    (idle : p.system.isUnderway n = false) (kept : ∀ h, (.drained h,c.envelope n s.errand) ∉ p.journal.left) :
    s.isOver = true := by
  have audited := sound.based.audited
  have there : c.envelope n s.errand ∈ entered p.system.history := by
    rcases sound.queued.arrived n s stands other with waits | past | there
    · cases (pending_of_quiet sound.based quiet).symm.trans waits
    · cases live.symm.trans past
    · exact there
  refine sound.queued.executed n s stands (System.executed_of_idle audited live there ⟨_,rfl⟩ kept idle)

/-- An errand that is not underway has come to its end, or has not computed anything. -/
theorem Sound.over_of_started (sound : Sound c first capacity p k e) (stands : k n = some s) (old : s.isFresh = false)
    (idle : p.system.isUnderway n = false) : s.isOver = true := by
  have audited := sound.based.audited
  refine sound.queued.executed n s stands ?_
  refine (audited.executed_of_begun (sound.queued.started n s stands old)).resolve_left fun runs => ?_
  cases (System.underway_of_running (audited.opened sound.based.handle) runs).symm.trans idle

end

end Course

end ScriptHost
