import ScriptHost.Proofs.Evaluation.Standing
import ScriptHost.Proofs.Scheduler.Sequence
/-!
What one turn can do. A follower either looks around, hands an errand in, goes on with a submission, or returns from
one (`Poller.Steps`), and wherever it stands it knows something about the script and about what it has handed in
before (`Poller.Knows`). `Course.Step` is a turn of a whole course, with where the errands stand: whatever is said
about courses is proved by cases on it.
-/
namespace ScriptHost
open Engine (World Answer Thrown)
variable {τ : Type}

/-- A follower knows of an errand that it has handed in what it knew when it did so. -/
def Errand.Founded (e : Evaluation) (handed : Errand → Prop) : Errand → Prop
  | .script => True
  | .follow value => e.script.slot = some (.ok value)
  | .look => ∃ value, handed (.follow value)
  | .clean value => ∃ r, e.script.slot = some r ∧ r.toOption = value

namespace Poller

/-- What is known of a script and of the errands so far where a follower stands. -/
def Knows {J : Type} (e : Evaluation) (handed : Errand → Prop) : Poller J → Prop
  | .awaitsScript | .awaitsCancelled => ∀ x, handed x → x = .script
  | .submits _ _ value _ | .awaitsJob _ value _ | .turns value _ | .pauses value _ =>
    e.script.slot = some (.ok value) ∧ handed (.follow value) ∧ ∀ x, handed x → x.rank ≤ 2
  | .announces value | .cleans value =>
    (∃ r, e.script.slot = some r ∧ r.toOption = value) ∧ ∀ x, handed x → x.rank ≤ 2
  | .submitsCleaning _ => ∃ r, e.script.slot = some r ∧ handed (.clean r.toOption)
  | .gone => ∃ r, e.script.slot = some r ∧ (handed (.clean r.toOption) ∨ r.toOption = none)

theorem Knows.later {J : Type} {valueName : String} {e e' : Evaluation} {handed : Errand → Prop} {f : Poller J}
    (knows : f.Knows e handed) (later : e.Later valueName e') : f.Knows e' handed := by
  cases f with
  | awaitsScript | awaitsCancelled => exact knows
  | submits serial p value delay | awaitsJob serial value delay | turns value delay | pauses value delay =>
    exact ⟨later.script _ knows.1,knows.2⟩
  | announces value | cleans value =>
    obtain ⟨⟨r,full,same⟩,ranks⟩ := knows
    exact ⟨⟨r,later.script r full,same⟩,ranks⟩
  | submitsCleaning p | gone =>
    obtain ⟨r,full,rest⟩ := knows
    exact ⟨r,later.script r full,rest⟩

/-- A follower takes a step. -/
inductive Steps (c : Plan) (v : View τ) (e : Evaluation) (choice : Nat) (f : Poller (Work τ)) :
    Poller (Work τ) → View τ → Prop where
  /-- It looks around. -/
  | still {q : Poller (Work τ)} {desk : Desk τ} {e' : Evaluation} (before : f.submission? = none)
      (after : q.submission? = none) (found : desk.evaluations[c.number]? = some e') (later : e.Later c.valueName e')
      (knows : ∀ handed, f.Knows e handed → q.Knows e' handed) : Steps c v e choice f q { v with desk }
  | handIn {q : Poller (Work τ)} {x : Errand} (before : f.submission? = none) (hands : f.errand? q = some x)
      (after : q.submission? = some (.looks false (c.envelope v.scheduler.serial x)))
      (founded : ∀ handed, f.Knows e handed → x.Founded e handed ∧ (∀ y, handed y → y.rank ≤ x.rank) ∧
        q.Knows e fun y => handed y ∨ y = x) :
    Steps c v e choice f q { v with scheduler := (v.scheduler.envelop c.generation (.job (x.job c))).2 }
  | sends {q : Poller (Work τ)} {s s' : Submission (Work τ)} {t : Scheduler (Work τ)} (before : f.submission? = some s)
      (after : q.submission? = some s') (chosen : (s.next v.scheduler)[choice]? = some (s',t))
      (knows : ∀ handed, f.Knows e handed → q.Knows e handed) : Steps c v e choice f q { v with scheduler := t }
  | returns {q : Poller (Work τ)} {s : Submission (Work τ)} {accepted : Bool} (before : f.submission? = some s)
      (finished : s.outcome? = some accepted) (after : q.submission? = none)
      (knows : ∀ handed, f.Knows e handed → q.Knows e handed) : Steps c v e choice f q v

section
variable {c : Plan} {v w : View τ} {e : Evaluation} {choice : Nat} {f q : Poller (Work τ)}

/-- A follower that only has seen something. -/
private theorem steps_seen (found : v.desk.evaluations[c.number]? = some e) (before : f.submission? = none)
    (after : q.submission? = none) (knows : ∀ handed, f.Knows e handed → q.Knows e handed) :
    Steps c v e choice f q v :=
  .still before after found (.refl _ e) knows

private theorem knows_settled {handed : Errand → Prop} {value : Option String}
    (slot : ∃ r, e.script.slot = some r ∧ r.toOption = value) (ranks : ∀ x, handed x → x.rank ≤ 2) :
    (settled value : Poller (Work τ)).Knows e handed := by
  cases value with
  | none =>
    obtain ⟨r,full,none⟩ := slot
    exact ⟨r,full,.inr none⟩
  | some value => exact ⟨slot,ranks⟩

private theorem submission_settled (value : Option String) : (settled value : Poller (Work τ)).submission? = none := by
  cases value <;> rfl

/-- A follower offers a failure. -/
private theorem steps_offering (found : v.desk.evaluations[c.number]? = some e) (before : f.submission? = none)
    {value : Option String} {failure : Failure} (knows : ∀ handed, f.Knows e handed →
      (∃ r, e.script.slot = some r ∧ r.toOption = value) ∧ ∀ x, handed x → x.rank ≤ 2) :
    Steps c v e choice f (v.offering c.number failure value).1 (v.offering c.number failure value).2 := by
  unfold View.offering Desk.offerOutcome
  rw [Desk.evaluation_eq found]
  cases offered : e.outcome.offer (.error failure) with
  | mk taken d =>
    have stays : e.outcome.Stays d := by
      have stays := Completion.stays_offer e.outcome (.error failure)
      rwa [offered] at stays
    have later : e.Later c.valueName { e with outcome := d } := Evaluation.later_outcome stays
    refine .still before ?_ (Desk.puts_change found _).here later fun handed known => ?_
    · cases taken with
      | true => rfl
      | false => exact submission_settled value
    · obtain ⟨slot,ranks⟩ := knows handed known
      cases taken with
      | true => exact ⟨slot,ranks⟩
      | false => exact knows_settled slot ranks

theorem steps_of_next {underway : Nat → Bool} {backoff : Backoff} (found : v.desk.evaluations[c.number]? = some e)
    (own : e.generation = c.generation) (honest : e.script.Honest)
    (chosen : (f.next underway backoff c.stateName c.number v)[choice]? = some (q,w)) : Steps c v e choice f q w := by
  have member := List.mem_of_getElem? chosen
  have scripts : ∀ {handed : Errand → Prop}, (∀ x, handed x → x = .script) → ∀ x, handed x → x.rank ≤ 2 := by
    intro handed scripts x member
    cases scripts x member
    exact Nat.zero_le 2
  cases f with
  | awaitsScript =>
    simp only [next,Desk.evaluation_eq found] at member
    split at member
    · cases List.mem_singleton.mp member
      exact .still rfl rfl (Desk.puts_change found _).here Evaluation.later_cancelScript fun handed known => known
    · split at member
      · cases member
      · next failure told =>
        cases List.mem_singleton.mp member
        exact steps_offering found rfl fun handed known => ⟨⟨_,honest.slot_of_wait told,rfl⟩,scripts known⟩
      · next value told =>
        cases List.mem_singleton.mp member
        have slot := honest.slot_of_wait told
        have same : (v.submission c.number (Evaluation.followJob c.number value c.stateName)).2.1 =
            .looks false (c.envelope v.scheduler.serial (.follow value)) := by
          simp only [View.submission,Desk.evaluation_eq found,own]
          rfl
        have moved : (v.submission c.number (Evaluation.followJob c.number value c.stateName)).2.2 =
            { v with scheduler := (v.scheduler.envelop c.generation (.job (Errand.job c (.follow value)))).2 } := rfl
        rw [moved]
        refine .handIn rfl rfl (congrArg some same) fun handed known => ⟨slot,fun y member => ?_,slot,.inr rfl,?_⟩
        · cases known y member
          exact Nat.zero_le 1
        · rintro y (member | rfl)
          · exact scripts known y member
          · exact Nat.le_succ 1
  | awaitsCancelled =>
    simp only [next,Desk.evaluation_eq found] at member
    split at member
    · cases member
    · next r told =>
      cases List.mem_singleton.mp member
      exact steps_seen found rfl rfl fun handed known => ⟨⟨r,honest.slot_of_wait told,rfl⟩,scripts known⟩
  | submits serial p value delay =>
    simp only [next] at member chosen
    split at member
    · next finished =>
      cases List.mem_singleton.mp member
      exact .returns rfl finished rfl fun handed known => known
    · next finished =>
      cases List.mem_singleton.mp member
      exact .returns rfl finished rfl fun handed known => known
    · next under =>
      rw [under] at chosen
      simp only [List.getElem?_map,Option.map_eq_some_iff,Prod.mk.injEq] at chosen
      obtain ⟨⟨p',t⟩,chosen,rfl,rfl⟩ := chosen
      exact .sends rfl rfl chosen fun handed known => known
  | awaitsJob serial value delay =>
    simp only [next] at member
    split at member
    · cases List.mem_singleton.mp member
      exact steps_seen found rfl rfl fun handed known => known
    · cases member
  | turns value delay =>
    simp only [next,List.mem_singleton,Prod.mk.injEq] at member
    obtain ⟨rfl,rfl⟩ := member
    split
    · exact steps_seen found rfl rfl fun handed known => ⟨⟨_,known.1,rfl⟩,known.2.2⟩
    · exact steps_seen found rfl rfl fun handed known => known
  | pauses value delay =>
    simp only [next,List.mem_append] at member
    rcases member with member | member
    · split at member
      · cases List.mem_singleton.mp member
        exact steps_seen found rfl rfl fun handed known => ⟨⟨_,known.1,rfl⟩,known.2.2⟩
      · cases member
    · split at member
      · cases List.mem_singleton.mp member
        exact steps_offering found rfl fun handed known => ⟨⟨_,known.1,rfl⟩,known.2.2⟩
      · cases member
  | announces value =>
    cases List.mem_singleton.mp member
    exact .still rfl (submission_settled value) (Desk.puts_change found _).here
      (Evaluation.later_outcome (Completion.stays_announce _))
      fun handed known => knows_settled known.1 known.2
  | cleans value =>
    cases List.mem_singleton.mp member
    have same : (v.submission c.number (Evaluation.cleanJob c.stateName value)).2.1 =
        .looks false (c.envelope v.scheduler.serial (.clean value)) := by
      simp only [View.submission,Desk.evaluation_eq found,own]
      rfl
    refine .handIn rfl rfl (congrArg some same) fun handed known => ?_
    obtain ⟨⟨r,full,rfl⟩,ranks⟩ := known
    exact ⟨⟨r,full,rfl⟩,fun y member => Nat.le_succ_of_le (ranks y member),r,full,.inr rfl⟩
  | submitsCleaning p =>
    simp only [next] at member chosen
    split at member
    · next finished =>
      cases List.mem_singleton.mp member
      exact .returns rfl finished rfl fun handed known =>
        known.imp fun r told => ⟨told.1,.inl told.2⟩
    · next under =>
      rw [under] at chosen
      simp only [List.getElem?_map,Option.map_eq_some_iff,Prod.mk.injEq] at chosen
      obtain ⟨⟨p',t⟩,chosen,rfl,rfl⟩ := chosen
      exact .sends rfl rfl chosen fun handed known => known
  | gone => cases member

theorem steps_of_late {backoff : Backoff} (found : v.desk.evaluations[c.number]? = some e)
    (own : e.generation = c.generation) (late : f.late backoff c.stateName c.number v = some (q,w)) :
    Steps c v e choice f q w := by
  cases f with
  | pauses value delay =>
    cases late
    have same : (v.submission c.number (Evaluation.lookJob c.number c.stateName)).2.1 =
        .looks false (c.envelope v.scheduler.serial .look) := by
      simp only [View.submission,Desk.evaluation_eq found,own]
      rfl
    refine .handIn rfl rfl (congrArg some same) fun handed ⟨slot,follows,ranks⟩ =>
      ⟨⟨value,follows⟩,ranks,slot,.inl follows,?_⟩
    rintro y (member | rfl)
    · exact ranks y member
    · exact Nat.le_refl 2
  | _ => cases late

end

/-- A follower that returns from a submission or looks around hands nothing in. -/
theorem errand_of_none {J : Type} {f q : Poller J} (after : q.submission? = none) : f.errand? q = none := by
  cases f <;> cases q <;> first | rfl | cases after

theorem errand_of_some {J : Type} {f q : Poller J} {s : Submission J} (before : f.submission? = some s) :
    f.errand? q = none := by
  cases f <;> first | rfl | cases before

/-- What is known where a follower stands, or if there is none yet. -/
def Known {J : Type} (e : Evaluation) (handed : Errand → Prop) : Option (Poller J) → Prop
  | none => ∀ x, handed x → x = .script
  | some f => f.Knows e handed

theorem Known.later {J : Type} {valueName : String} {e e' : Evaluation} {handed : Errand → Prop} {f : Option (Poller J)}
    (knows : Known e handed f) (later : e.Later valueName e') : Known e' handed f := by
  cases f with
  | none => exact knows
  | some f => exact Knows.later knows later

end Poller

namespace Course

/-- The threads of the scheduler have taken a step. -/
def through (p : Course τ) (a : Action (Work τ)) (σ : System (Work τ)) : Course τ :=
  { p with system := σ, journal := p.journal.after p.system σ a, ledger := p.ledger.after p.system a }

/-- What a turn needs to be seen through, in a course whose evaluation is `e` and whose errands stand where `k` says. -/
structure Based (c : Plan) (first : Work τ) (capacity : Nat) (p : Course τ) (k : Nat → Option Standing)
    (e : Evaluation) : Prop where
  audited : Audited first capacity p.journal p.ledger p.system
  handle : c.generation ∈ p.system.handles
  call : p.system.call? (.thread c.thread) = (p.follower.bind Poller.submission?).map .submit
  errands : ∀ n, p.errands n = (k n).map (Standing.doing c)
  found : p.desk.evaluations[c.number]? = some e
  generation : e.generation = c.generation
  honest : e.script.Honest
  taken : ∀ n, k n = some .announcesScript → e.script.slot.isSome = true

/-- What a turn comes to. -/
inductive Step (c : Plan) (first : Work τ) (p : Course τ) (k : Nat → Option Standing) (e : Evaluation) :
    Turn τ → Course τ → (Nat → Option Standing) → Evaluation → Prop where
  /-- The other threads of the scheduler take a step. -/
  | others {a : Action (Work τ)} {σ : System (Work τ)} (apart : ¬a.Concerns (.thread c.thread))
      (taken : p.system.act first a = some σ) (ends : ∀ panicked n s, a = .finish c.generation panicked →
        (p.system.workers c.generation).running? = some n → k n = some s → s.isOver = true) :
    Step c first p k e (.system a) (p.through a σ) k e
  /-- The errand that runs goes on. -/
  | errand {t : Turn τ} {n : Nat} {s s' : Standing} {last : World} {desk : Desk τ} {e' : Evaluation}
      (runs : (p.system.workers c.generation).running? = some n) (stands : k n = some s)
      (goes : s.Goes c p.world p.desk t s' last desk) (found : desk.evaluations[c.number]? = some e')
      (later : e.Later c.valueName e') :
    Step c first p k e t ({ p with world := last, desk }.goOn n (s'.doing c)) (Function.update k n (some s')) e'
  /-- Neither the scheduler nor an errand takes part. -/
  | still {t : Turn τ} {w : World} {d : Desk τ} {f : Option (Poller (Work τ))} {e' : Evaluation}
      (found : d.evaluations[c.number]? = some e') (later : e.Later c.valueName e')
      (outside : w = p.world ∨ t = .elsewhere w d)
      (quiet : f.bind Poller.submission? = p.follower.bind Poller.submission?)
      (knows : ∀ handed, Poller.Known e handed p.follower → Poller.Known e' handed f) :
    Step c first p k e t { p with world := w, desk := d, follower := f } k e'
  | handIn {t : Turn τ} {f q : Poller (Work τ)} {x : Errand} {σ : System (Work τ)} (follows : p.follower = some f)
      (before : f.submission? = none)
      (after : q.submission? = some (.looks false (c.envelope p.system.scheduler.serial x)))
      (founded : ∀ handed, f.Knows e handed → x.Founded e handed ∧ (∀ y, handed y → y.rank ≤ x.rank) ∧
        q.Knows e fun y => handed y ∨ y = x)
      (taken : p.system.act first (.submit (.thread c.thread) c.generation (x.job c)) = some σ) :
    Step c first p k e t
      (({ p with follower := some q }.goOn p.system.scheduler.serial ((Standing.fresh x).doing c)).through
        (.submit (.thread c.thread) c.generation (x.job c)) σ)
      (Function.update k p.system.scheduler.serial (some (.fresh x))) e
  | sends {t : Turn τ} {f q : Poller (Work τ)} {s s' : Submission (Work τ)} {choice : Nat} {u : Scheduler (Work τ)}
      {σ : System (Work τ)} (follows : p.follower = some f) (before : f.submission? = some s)
      (after : q.submission? = some s') (step : s.Step p.system.scheduler s' u)
      (knows : ∀ handed, f.Knows e handed → q.Knows e handed)
      (taken : p.system.act first (.go (.thread c.thread) (.ok ()) choice) = some σ)
      (calls : σ.call? (.thread c.thread) = some (.submit s')) :
    Step c first p k e t ({ p with follower := some q }.through (.go (.thread c.thread) (.ok ()) choice) σ) k e
  | returns {t : Turn τ} {f q : Poller (Work τ)} {s : Submission (Work τ)} {σ : System (Work τ)}
      (follows : p.follower = some f) (before : f.submission? = some s) (after : q.submission? = none)
      (knows : ∀ handed, f.Knows e handed → q.Knows e handed)
      (taken : p.system.act first (.return (.thread c.thread)) = some σ) :
    Step c first p k e t ({ p with follower := some q }.through (.return (.thread c.thread)) σ) k e

section
variable {c : Plan} {first : Work τ} {capacity choice : Nat} {p p' : Course τ} {k : Nat → Option Standing}
  {e : Evaluation} {t : Turn τ} {f q : Poller (Work τ)} {v : Poller.View τ}

theorem step_of_arrive (based : Based c first capacity p k e) (follows : p.follower = some f)
    (steps : Poller.Steps c p.view e choice f q v) (taken : p.arrive c first choice f q v = some p') :
    ∃ k' e', Step c first p k e t p' k' e' := by
  have called := based.call
  rw [follows] at called
  cases steps with
  | @still desk e' before after found later knows =>
    have none : f.errand? q = none := Poller.errand_of_none after
    simp only [arrive,none,Poller.action?,before,Option.some.injEq] at taken
    subst taken
    refine ⟨k,e',.still (w := p.world) found later (.inl rfl) ?_ ?_⟩
    · rw [follows]
      exact after.trans before.symm
    · rw [follows]
      exact knows
  | @handIn x before hands after founded =>
    simp only [arrive,hands,Poller.action?] at taken
    obtain ⟨σ,stepped,rfl⟩ := Option.map_eq_some_iff.mp taken
    exact ⟨_,_,.handIn follows before after founded stepped⟩
  | @sends s s' u before after chosen knows =>
    have none : f.errand? q = none := Poller.errand_of_some before
    simp only [arrive,none,Poller.action?,before,after] at taken
    obtain ⟨σ,stepped,rfl⟩ := Option.map_eq_some_iff.mp taken
    have called : p.system.call? (.thread c.thread) = some (.submit s) := called.trans (congrArg (Option.map _) before)
    refine ⟨_,_,.sends follows before after (Submission.step_of_mem (List.mem_of_getElem? chosen)) knows stepped ?_⟩
    have chosen : (s.next p.system.scheduler)[choice]? = some (s',u) := chosen
    have stepped : p.system.act first (.go (.thread c.thread) (.ok ()) choice) = some σ := stepped
    simp only [System.act,called,Call.moves,List.getElem?_map,chosen,Option.map_some,Option.some.injEq] at stepped
    subst stepped
    exact System.call_goOn (System.sound_of_reachable based.audited.journaled.reachable) _ (.inl ⟨_,called⟩) _ _
  | @returns s accepted before finished after knows =>
    have none : f.errand? q = none := Poller.errand_of_none after
    simp only [arrive,none,Poller.action?,before,after] at taken
    obtain ⟨σ,stepped,rfl⟩ := Option.map_eq_some_iff.mp taken
    exact ⟨_,_,.returns follows before after knows stepped⟩

/-- Where the errand that runs stands. -/
theorem Based.runs {n : Nat} {d : Doing τ} (based : Based c first capacity p k e) (running : p.running? c = some (n,d)) :
    (p.system.workers c.generation).running? = some n ∧ ∃ s, k n = some s ∧ d = s.doing c := by
  obtain ⟨m,runs,same⟩ := Option.bind_eq_some_iff.mp running
  rw [based.errands m] at same
  simp only [Option.map_map,Option.map_eq_some_iff,Function.comp_apply,Prod.mk.injEq] at same
  obtain ⟨s,stands,rfl,rfl⟩ := same
  exact ⟨runs,s,stands,rfl⟩

/-- The errand that runs comes to the end of a computation. -/
theorem Based.compute {backoff : Backoff} {answers : List Answer} {r : Except Thrown (Work τ)} {last : World}
    (based : Based c first capacity p k e) (possible : p.Possible c (.compute answers r last))
    (taken : p.act c first backoff (.compute answers r last) = some p') :
    ∃ n s s', (p.system.workers c.generation).running? = some n ∧ k n = some s ∧
      s.Goes c p.world p.desk (.compute answers r last) s' last p.desk ∧ r.toOption.getD .done = s'.rest c ∧
      p' = { p with world := last }.goOn n (s'.doing c) := by
  simp only [act] at taken
  split at taken
  · next n d running =>
    split at taken
    · next m engine =>
      cases taken
      have ends := possible n d m running engine
      obtain ⟨runs,s,stands,rfl⟩ := based.runs running
      obtain ⟨s',goes,rest⟩ := Standing.goes_of_engine p.desk engine ends
      have same : (s'.doing c : Doing τ) = { (s.doing c : Doing τ) with rest := r.toOption.getD .done, started := true } := by
        simp [Standing.doing,rest,goes.errand,goes.isFresh]
      exact ⟨n,s,s',runs,stands,goes,rest,by rw [same]⟩
    · cases taken
  · cases taken

/-- The errand that runs looks at the desk and changes it. -/
theorem Based.share {backoff : Backoff} (based : Based c first capacity p k e)
    (taken : p.act c first backoff .share = some p') :
    ∃ n s s' desk e', (p.system.workers c.generation).running? = some n ∧ k n = some s ∧
      s.Goes c p.world p.desk .share s' p.world desk ∧ desk.evaluations[c.number]? = some e' ∧ e.Later c.valueName e' ∧
      p' = { p with desk }.goOn n (s'.doing c) := by
  simp only [act] at taken
  split at taken
  · next n d running =>
    split at taken
    · next f share =>
      cases taken
      obtain ⟨runs,s,stands,rfl⟩ := based.runs running
      obtain ⟨s',goes,rest⟩ := Standing.goes_of_share p.world p.desk share
      obtain ⟨e',found,later⟩ := goes.later based.found fun announces => based.taken n (announces ▸ stands)
      have same : (s'.doing c : Doing τ) = { (s.doing c : Doing τ) with rest := (f p.desk).2 } := by
        simp [Standing.doing,rest,goes.errand,goes.isFresh,goes.started]
      exact ⟨n,s,s',_,e',runs,stands,goes,found,later,by rw [same]⟩
    · cases taken
  · cases taken

/-- Every turn that can be taken is one of these steps. -/
theorem step_of_act {backoff : Backoff} (based : Based c first capacity p k e) (possible : p.Possible c t)
    (taken : p.act c first backoff t = some p') : ∃ k' e', Step c first p k e t p' k' e' := by
  have found := based.found
  have changed : ∀ {f : Evaluation → Evaluation}, e.Later c.valueName (f e) →
      ∃ k' e', Step c first p k e t (p.change c f) k' e' := fun later =>
    ⟨k,_,.still (w := p.world) (f := p.follower) (Desk.puts_change found _).here later (.inl rfl) rfl
      fun handed known => known.later later⟩
  cases t with
  | system a =>
    obtain ⟨σ,stepped,rfl⟩ := Option.map_eq_some_iff.mp taken
    refine ⟨k,e,.others possible.1 stepped fun panicked n s finish running stands => ?_⟩
    have running : p.running? c = some (n,s.doing c) := by simp [running?,running,based.errands,stands]
    obtain ⟨-,r,ended⟩ := possible.2 panicked n _ finish running
    exact Standing.isOver_of_rest ended
  | compute answers r last =>
    obtain ⟨n,s,s',runs,stands,goes,-,rfl⟩ := based.compute possible taken
    exact ⟨Function.update k n (some s'),e,.errand runs stands goes found (.refl _ e)⟩
  | share =>
    obtain ⟨n,s,s',desk,e',runs,stands,goes,found,later,rfl⟩ := based.share taken
    exact ⟨Function.update k n (some s'),e',.errand runs stands goes found later⟩
  | elsewhere world desk =>
    cases taken
    exact ⟨k,e,.still (f := p.follower) (possible.trans found) (.refl _ e) (.inr rfl) rfl fun handed => id⟩
  | cancel =>
    cases taken
    exact changed (Evaluation.later_outcome (Completion.stays_cancel _))
  | watchScript choice =>
    obtain ⟨script,chosen,rfl⟩ := Option.map_eq_some_iff.mp taken
    rw [Desk.evaluation_eq found] at chosen
    exact changed (Evaluation.later_watchScript (List.mem_of_getElem? chosen))
  | watchOutcome choice =>
    obtain ⟨outcome,chosen,rfl⟩ := Option.map_eq_some_iff.mp taken
    rw [Desk.evaluation_eq found] at chosen
    exact changed (Evaluation.later_watchOutcome (List.mem_of_getElem? chosen))
  | follow =>
    simp only [act] at taken
    split at taken
    · next none =>
      cases taken
      have none := Option.isNone_iff_eq_none.mp none
      refine ⟨k,e,.still (w := p.world) (d := p.desk) found (.refl _ e) (.inl rfl) ?_ ?_⟩
      · rw [none]
        rfl
      · rw [none]
        exact fun handed known => known
    · cases taken
  | poll choice =>
    obtain ⟨f,follows,taken⟩ := Option.bind_eq_some_iff.mp taken
    obtain ⟨⟨q,v⟩,chosen,taken⟩ := Option.bind_eq_some_iff.mp taken
    exact step_of_arrive based follows (Poller.steps_of_next found based.generation based.honest chosen) taken
  | late =>
    obtain ⟨f,follows,taken⟩ := Option.bind_eq_some_iff.mp taken
    obtain ⟨⟨q,v⟩,late,taken⟩ := Option.bind_eq_some_iff.mp taken
    exact step_of_arrive based follows (Poller.steps_of_late found based.generation late) taken

end

end Course

end ScriptHost
