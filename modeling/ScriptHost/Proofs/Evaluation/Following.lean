import ScriptHost.Proofs.Evaluation.Scene
import ScriptHost.Proofs.Scheduler.Step
/-!
What the follower of an evaluation relies on and leaves. A follower has nothing more to wait for than the end
of its generation, and does not go away before an outcome was taken.
-/
namespace ScriptHost
variable {τ : Type}

namespace Desk
variable {d : Desk τ} {i : Nat} {e : Evaluation}

theorem evaluation_eq (found : d.evaluations[i]? = some e) : d.evaluation i = e := by
  unfold evaluation
  rw [found]
  rfl

theorem change_get (d : Desk τ) (i j : Nat) (f : Evaluation → Evaluation) :
    (d.change i f).evaluations[j]? = if i = j then d.evaluations[j]?.map f else d.evaluations[j]? :=
  Array.getElem?_modify

@[simp] theorem size_change (d : Desk τ) (i : Nat) (f : Evaluation → Evaluation) :
    (d.change i f).evaluations.size = d.evaluations.size :=
  Array.size_modify

/-- One evaluation of a desk is put in the place of another one. -/
structure Puts (d t : Desk τ) (i : Nat) (e : Evaluation) : Prop where
  size : t.evaluations.size = d.evaluations.size
  here : t.evaluations[i]? = some e
  elsewhere : ∀ j ≠ i, t.evaluations[j]? = d.evaluations[j]?

theorem puts_same (found : d.evaluations[i]? = some e) : Puts d d i e := ⟨rfl,found,fun _ _ => rfl⟩

theorem puts_change (found : d.evaluations[i]? = some e) (f : Evaluation → Evaluation) :
    Puts d (d.change i f) i (f e) := by
  refine ⟨size_change d i f,?_,fun j other => ?_⟩
  · rw [change_get,if_pos rfl,found]
    rfl
  · rw [change_get,if_neg other.symm]

end Desk

namespace Poller
variable {e : Evaluation}

/-- The follower owes an announcement. -/
def Owes {J : Type} : Poller J → Prop
  | .announces _ => True
  | _ => False

/-- A submission of a follower is for the generation of its evaluation. -/
def Sends {J : Type} (g : Nat) (p : Submission J) : Prop := ∀ e, p.envelope? = some e → e.generation = g

/-- What a follower relies on: its submissions are for the generation of the evaluation, and an outcome was
    taken when it begins to go away. -/
def Fits {J : Type} (e : Evaluation) : Poller J → Prop
  | .awaitsScript | .awaitsJob _ _ _ | .turns _ _ | .pauses _ _ => True
  | .submits _ p _ _ => Sends e.generation p
  | .awaitsCancelled | .announces _ | .cleans _ | .gone => e.outcome.slot.isSome = true
  | .submitsCleaning p => e.outcome.slot.isSome = true ∧ Sends e.generation p

theorem Sends.next {J : Type} {g : Nat} {p q : Submission J} {s t : Scheduler J} (sends : Sends g p)
    (member : (q,t) ∈ p.next s) : Sends g q := by
  intro envelope holds
  refine sends envelope ?_
  cases Submission.step_of_mem member with
  | @look inside => cases inside <;> exact holds
  | full => exact holds
  | _ => cases holds

/-- A submission for a generation that has ended does not wait. -/
theorem Sends.goes_on {J : Type} {g : Nat} {p : Submission J} {s : Scheduler J} (sends : Sends g p)
    (past : s.isOver g = true) (under : p.outcome? = none) : p.next s ≠ [] := by
  cases p with
  | looks inside e =>
    simp only [Submission.next]
    split <;> exact List.cons_ne_nil _ _
  | sends e =>
    have ended : s.isOver e.generation = true := (sends e rfl).symm ▸ past
    simp [Submission.next,ended]
  | tries e =>
    simp only [Submission.next]
    split <;> exact List.cons_ne_nil _ _
  | sent | refused => exact List.cons_ne_nil _ _
  | handsOver e | ended accepted => cases under

/-- Fitting does not depend on more of an evaluation than its generation and whether an outcome was taken. -/
theorem Fits.mono {J : Type} {p : Poller J} {f : Evaluation} (fits : p.Fits e) (same : f.generation = e.generation)
    (kept : e.outcome.slot.isSome = true → f.outcome.slot.isSome = true) : p.Fits f := by
  cases p with
  | awaitsScript | awaitsJob serial value delay | turns value delay | pauses value delay => trivial
  | submits serial p value delay => exact fun envelope holds => (fits envelope holds).trans same.symm
  | awaitsCancelled | announces value | cleans value | gone => exact kept fits
  | submitsCleaning p => exact ⟨kept fits.1,fun envelope holds => (fits.2 envelope holds).trans same.symm⟩

section
variable {i : Nat} {v w : View τ} {p q : Poller (Job (Desk τ))} {jobs scripts : Prop}

/-- What a step of a follower comes to: its evaluation is still in order, and all others are as they were. -/
structure Goes (v : View τ) (i : Nat) (e : Evaluation) (scripts jobs : Prop) (q : Poller (Job (Desk τ)))
    (w : View τ) : Prop where
  puts : ∃ f, Desk.Puts v.desk w.desk i f ∧ q.Fits f ∧ f.script.Kept scripts ∧ f.outcome.Kept (jobs ∨ q.Owes)

/-- A step that leaves all evaluations as they are. -/
private theorem goes_still (found : v.desk.evaluations[i]? = some e) (script : e.script.Kept scripts)
    (outcome : e.outcome.Kept (jobs ∨ p.Owes)) (waits : ¬ p.Owes) {s : Scheduler (Job (Desk τ))} (fits : q.Fits e)
    (free : ¬ q.Owes) : Goes v i e scripts jobs q { v with scheduler := s } := by
  refine ⟨e,Desk.puts_same found,fits,script,outcome.congr ?_⟩
  exact (or_iff_left waits).trans (or_iff_left free).symm

private theorem settled_fits (value : Option String) (full : e.outcome.slot.isSome = true) :
    (settled value : Poller (Job (Desk τ))).Fits e ∧ ¬ (settled value : Poller (Job (Desk τ))).Owes := by
  cases value with
  | none => exact ⟨full,id⟩
  | some value => exact ⟨full,id⟩

/-- The follower offers a failure. -/
private theorem goes_offering (found : v.desk.evaluations[i]? = some e) (script : e.script.Kept scripts)
    (outcome : e.outcome.Kept (jobs ∨ p.Owes)) (waits : ¬ p.Owes) (f : Failure) (value : Option String) :
    Goes v i e scripts jobs (v.offering i f value).1 (v.offering i f value).2 := by
  unfold View.offering Desk.offerOutcome
  rw [Desk.evaluation_eq found]
  cases offered : e.outcome.offer (.error f) with
  | mk taken c =>
    refine ⟨{ e with outcome := c },Desk.puts_change found _,?_⟩
    cases taken with
    | true =>
      have full := (Completion.kept_offer offered).debt trivial
      exact ⟨full,script,(Completion.kept_offer offered).congr (by simp [Owes])⟩
    | false =>
      obtain ⟨rfl,full⟩ := Completion.offer_refused offered
      obtain ⟨fits,free⟩ := settled_fits (τ := τ) value full
      exact ⟨fits,script,outcome.congr ((or_iff_left waits).trans (or_iff_left free).symm)⟩

/-- A follower begins a submission for the generation of its evaluation. -/
private theorem sends_submission (found : v.desk.evaluations[i]? = some e) (j : Job (Desk τ)) :
    Sends e.generation (v.submission i j).2.1 := by
  intro envelope holds
  cases holds
  exact congrArg Evaluation.generation (Desk.evaluation_eq found)

/-- A follower goes on. -/
theorem goes_next {underway : Nat → Bool} {backoff : Backoff} {stateName : String}
    (found : v.desk.evaluations[i]? = some e) (fits : p.Fits e) (script : e.script.Kept scripts)
    (outcome : e.outcome.Kept (jobs ∨ p.Owes)) (member : (q,w) ∈ p.next underway backoff stateName i v) :
    Goes v i e scripts jobs q w := by
  cases p with
  | awaitsScript =>
    simp only [next,Desk.evaluation_eq found] at member
    split at member
    · next ready =>
      cases List.mem_singleton.mp member
      exact ⟨_,Desk.puts_change found _,outcome.ready ready,script.cancel,outcome⟩
    · split at member
      · cases member
      · cases List.mem_singleton.mp member
        exact goes_offering found script outcome id _ _
      · cases List.mem_singleton.mp member
        exact goes_still found script outcome id (sends_submission found _) id
  | awaitsCancelled =>
    simp only [next] at member
    split at member
    · cases member
    · cases List.mem_singleton.mp member
      exact goes_still found script outcome id fits id
  | submits serial p value delay =>
    simp only [next] at member
    split at member
    · cases List.mem_singleton.mp member
      exact goes_still found script outcome id trivial id
    · cases List.mem_singleton.mp member
      exact goes_still found script outcome id trivial id
    · obtain ⟨⟨p',s⟩,step,same⟩ := List.mem_map.mp member
      cases same
      exact goes_still found script outcome id (Sends.next fits step) id
  | awaitsJob serial value delay =>
    simp only [next] at member
    split at member
    · cases List.mem_singleton.mp member
      exact goes_still found script outcome id trivial id
    · cases member
  | turns value delay =>
    simp only [next,Desk.evaluation_eq found] at member
    cases ready : e.outcome.ready with
    | true =>
      rw [ready] at member
      cases List.mem_singleton.mp member
      exact goes_still found script outcome id (outcome.ready ready) id
    | false =>
      rw [ready] at member
      cases List.mem_singleton.mp member
      exact goes_still found script outcome id trivial id
  | pauses value delay =>
    simp only [next,Desk.evaluation_eq found,List.mem_append] at member
    rcases member with member | member
    · split at member
      · next ready =>
        cases List.mem_singleton.mp member
        exact goes_still found script outcome id (outcome.ready ready) id
      · cases member
    · split at member
      · cases List.mem_singleton.mp member
        exact goes_offering found script outcome id _ _
      · cases member
  | announces value =>
    cases List.mem_singleton.mp member
    exact ⟨_,Desk.puts_change found _,(settled_fits value fits).1,script,Completion.kept_announce fits⟩
  | cleans value =>
    cases List.mem_singleton.mp member
    exact goes_still found script outcome id ⟨fits,sends_submission found _⟩ id
  | submitsCleaning p =>
    simp only [next] at member
    split at member
    · cases List.mem_singleton.mp member
      exact goes_still found script outcome id fits.1 id
    · obtain ⟨⟨p',s⟩,step,same⟩ := List.mem_map.mp member
      cases same
      exact goes_still found script outcome id ⟨fits.1,Sends.next fits.2 step⟩ id
  | gone => cases member

/-- The pause of a follower is over. -/
theorem goes_late {backoff : Backoff} {stateName : String} (found : v.desk.evaluations[i]? = some e)
    (script : e.script.Kept scripts) (outcome : e.outcome.Kept (jobs ∨ p.Owes))
    (taken : p.late backoff stateName i v = some (q,w)) : Goes v i e scripts jobs q w := by
  cases p with
  | pauses value delay =>
    cases taken
    exact goes_still found script outcome id (sends_submission found _) id
  | _ => cases taken

end

/-- A follower whose generation has ended waits for nothing once the script is ready. -/
theorem gone_of_waits {i : Nat} {v : View τ} {p : Poller (Job (Desk τ))} {underway : Nat → Bool} {backoff : Backoff}
    {stateName : String} (found : v.desk.evaluations[i]? = some e) (fits : p.Fits e)
    (past : v.scheduler.isOver e.generation = true) (ready : e.script.ready = true)
    (waits : p.next underway backoff stateName i v = []) : p = .gone := by
  have script : ∃ r, e.script.wait? = some r := ⟨_,if_pos ready⟩
  obtain ⟨r,script⟩ := script
  cases p with
  | awaitsScript =>
    simp only [next,Desk.evaluation_eq found,script] at waits
    split at waits
    · cases waits
    · cases r <;> cases waits
  | awaitsCancelled => simp [next,Desk.evaluation_eq found,script] at waits
  | submits serial p value delay =>
    simp only [next] at waits
    split at waits
    · cases waits
    · cases waits
    · next under => exact absurd (List.map_eq_nil_iff.mp waits) (Sends.goes_on fits past under)
  | awaitsJob serial value delay => simp [next,Desk.evaluation_eq found,past] at waits
  | pauses value delay => simp [next,Desk.evaluation_eq found,past] at waits
  | turns value delay | announces value | cleans value => cases waits
  | submitsCleaning p =>
    simp only [next] at waits
    split at waits
    · cases waits
    · next under => exact absurd (List.map_eq_nil_iff.mp waits) (Sends.goes_on fits.2 past under)
  | gone => rfl

end Poller

end ScriptHost
