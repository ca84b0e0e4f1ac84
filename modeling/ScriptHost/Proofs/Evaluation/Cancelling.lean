import ScriptHost.Proofs.Evaluation.Calling
import ScriptHost.Proofs.Evaluation.Leading
import ScriptHost.Proofs.Evaluation.Presence
/-!
Cancellations and those they race with. A cancellation only asks: it is the watcher that offers the outcome for it, and
whoever resolves the completion before the watcher comes to that is ahead of it, even if it began after the cancellation
had returned.
-/
namespace ScriptHost
namespace Completion.Gathering
variable {α : Type}

/-- Nobody has begun to resolve the completion. -/
def Unresolved (g : Gathering α) : Prop := ∀ n v, g.visits n = some v → v.resolves = false

/-- A cancellation has returned, or the signal has closed. -/
def Stirred (g : Gathering α) : Prop := (∃ n, g.visits n = some .cancelled) ∨ g.signal.closed = true

/-- Neither the watcher nor a call can go on. -/
def Quiet (g : Gathering α) : Prop :=
  g.completion.watchNext g.signal = [] ∧ ∀ n v, g.visits n = some v → v.next g.completion = none

section
variable {signal : Signal} {g h : Gathering α}

/-- Once everyone is done with a completion that was cancelled, there is an outcome, and everyone knows. -/
theorem Agreed.resolved (agreed : g.Agreed) (stirred : g.completion.cancelled = true ∨ g.signal.closed = true)
    (quiet : g.Quiet) : g.completion.slot.isSome = true ∧ g.completion.ready = true := by
  obtain ⟨full,ready⟩ := agreed.kept.settled_of_stirred stirred quiet.1
  refine ⟨full,ready ?_⟩
  rintro ⟨n,r,announces⟩
  cases quiet.2 n _ announces

/-- Nobody resolves a completion that has an outcome. -/
theorem not_taken_of_slot (came : (made signal).Leads g) (unresolved : g.Unresolved) (full : g.completion.slot.isSome = true)
    (later : g.Leads h) (n : Nat) (r : Except Failure α) : (some n,r) ∉ h.takings := by
  intro member
  have agreed := agreed_of_leads came
  obtain ⟨s,full⟩ := Option.isSome_iff_exists.mp full
  obtain ⟨who,taken⟩ := agreed.taken_of_slot full
  have own : (who,s) ∈ g.takings := taken ▸ List.mem_singleton_self _
  have same := (agreed_of_leads (came.trans later)).same ((onward_of_leads later).takings.mem own) member
  cases same
  rcases agreed.owner n r own with announces | resolved
  · cases unresolved n _ announces
  · cases unresolved n _ resolved

/-- A completion is cancelled, or its signal has closed, before anybody has begun to resolve it. Unless a call gets ahead
    of the watcher, the outcome is that it was cancelled, and all calls that resolve it are refused; if one does, its
    outcome is kept, and all other ones are refused. Nobody gets ahead once the cancellation is the outcome, as it is from
    the beginning when the signal had closed before the completion was made. -/
theorem cancelled_unless_overtaken (came : (made signal).Leads g) (unresolved : g.Unresolved) (stirred : g.Stirred)
    (later : g.Leads h) :
    ((∀ n r, (some n,r) ∉ h.takings) → (∀ n r taken, h.visits n = some (.resolved r taken) → taken = false) ∧
      (∀ r, h.completion.slot = some r → r = .error .cancelled) ∧
      (h.Quiet → h.completion.slot = some (.error .cancelled) ∧ h.completion.ready = true)) ∧
    (∀ n r, (some n,r) ∈ h.takings → h.completion.slot = some r ∧
      (∀ k s taken, h.visits k = some (.resolved s taken) → k ≠ n → taken = false) ∧
      (h.Quiet → h.visits n = some (.resolved r true) ∧ h.completion.ready = true)) ∧
    (g.completion.slot.isSome = true ∨ signal.closed = true → ∀ n r, (some n,r) ∉ h.takings) := by
  have agreed := agreed_of_leads (came.trans later)
  have on := onward_of_leads later
  have stirred : h.completion.cancelled = true ∨ h.signal.closed = true := by
    rcases stirred with ⟨n,cancelled⟩ | closed
    · exact .inl (on.cancelled ((agreed_of_leads came).fits n _ cancelled))
    · exact .inr (on.closed closed)
  refine ⟨fun ahead => ?_,fun n r taken => ?_,fun early => ?_⟩
  · have only : ∀ r, h.completion.slot = some r → r = .error .cancelled := by
      intro r full
      obtain ⟨who,taken⟩ := agreed.taken_of_slot full
      have member : (who,r) ∈ h.takings := taken ▸ List.mem_singleton_self _
      cases who with
      | none => exact agreed.watcher r member
      | some n => exact absurd member (ahead n r)
    refine ⟨fun n r taken resolved => ?_,only,fun quiet => ?_⟩
    · cases taken with
      | false => rfl
      | true => exact absurd (agreed.fits n _ resolved) (ahead n r)
    · obtain ⟨full,ready⟩ := agreed.resolved stirred quiet
      obtain ⟨r,full⟩ := Option.isSome_iff_exists.mp full
      exact ⟨only r full ▸ full,ready⟩
  · refine ⟨?_,fun k s taken' resolved other => ?_,fun quiet => ⟨?_,(agreed.resolved stirred quiet).2⟩⟩
    · rcases agreed.taken with ⟨none,-⟩ | ⟨who,s,single,full⟩
      · rw [none] at taken
        cases taken
      · rw [single] at taken
        cases List.mem_singleton.mp taken
        exact full
    · cases taken' with
      | false => rfl
      | true => exact absurd (Option.some.inj (congrArg Prod.fst (agreed.same (agreed.fits k _ resolved) taken))) other
    · rcases agreed.owner n r taken with announces | resolved
      · cases quiet.2 n _ announces
      · exact resolved
  · refine not_taken_of_slot came unresolved ?_ later
    rcases early with full | closed
    · exact full
    · have full : (made signal : Gathering α).completion.slot = some (.error .cancelled) := by
        simp [made,bound,closed,resolve,offer,fresh,announce]
      rw [(onward_of_leads came).slot _ full]
      rfl

end

/-- Once the watcher has gone on, everybody who waits is told. -/
example : ((made ⟨false⟩ : Gathering Bool).run [.call 0 .cancel,.go 0,.watch 0,.watch 0]).any (·.completion.ready) = true := by
  decide +kernel

/-- A cancellation has returned. -/
def asked : Gathering Bool := ((made ⟨false⟩ : Gathering Bool).run [.call 0 .cancel,.go 0]).get rfl

/-- The signal has closed. -/
def ended : Gathering Bool := ((made ⟨false⟩ : Gathering Bool).run [.close]).get rfl

/-- The watcher is ahead of a call to resolve. -/
def watched : Gathering Bool := (asked.run [.watch 0,.call 1 (.resolve (.ok true)),.go 1,.watch 0]).get rfl

/-- A call to resolve is ahead of the watcher, though it came after the cancellation. -/
def beaten : Gathering Bool := (asked.run [.call 1 (.resolve (.ok true)),.go 1,.go 1,.watch 0]).get rfl

/-- A call to resolve is ahead of the watcher, though it came after the signal had closed. -/
def outlived : Gathering Bool := (ended.run [.call 1 (.resolve (.ok true)),.go 1,.go 1,.watch 0]).get rfl

theorem leads_beaten : asked.Leads beaten := leads_of_run [.call 1 (.resolve (.ok true)),.go 1,.go 1,.watch 0] rfl

theorem quiet_beaten : beaten.Quiet := by
  refine ⟨rfl,fun n v stands => ?_⟩
  match n with
  | 0 | 1 =>
    cases stands
    rfl
  | n+2 => cases stands

theorem leads_ended : (made ⟨false⟩ : Gathering Bool).Leads ended := leads_of_run [.close] rfl

theorem unresolved_ended : ended.Unresolved := fun n v stands => by cases stands

theorem leads_outlived : ended.Leads outlived :=
  leads_of_run [.call 1 (.resolve (.ok true)),.go 1,.go 1,.watch 0] rfl

theorem quiet_outlived : outlived.Quiet := by
  refine ⟨rfl,fun n v stands => ?_⟩
  match n with
  | 1 =>
    cases stands
    rfl
  | 0 | n+2 => cases stands

theorem came_asked : (made ⟨false⟩ : Gathering Bool).Leads asked := leads_of_run [.call 0 .cancel,.go 0] rfl

theorem unresolved_asked : asked.Unresolved := by
  intro n v stands
  match n with
  | 0 =>
    cases stands
    rfl
  | n+1 => cases stands

theorem cancelled_unless_overtaken_of_watched : (made ⟨false⟩ : Gathering Bool).Leads asked ∧ asked.Unresolved ∧
    asked.Stirred ∧ asked.Leads watched ∧ watched.visits 1 = some (.resolved (.ok true) false) ∧ watched.Quiet ∧
    watched.completion.slot = some (.error .cancelled) ∧ watched.completion.ready = true := by
  have stirred : asked.Stirred := .inl ⟨0,rfl⟩
  have later : asked.Leads watched :=
    leads_of_run [.watch 0,.call 1 (.resolve (.ok true)),.go 1,.watch 0] rfl
  have quiet : watched.Quiet := by
    refine ⟨rfl,fun n v stands => ?_⟩
    match n with
    | 0 | 1 =>
      cases stands
      rfl
    | n+2 => cases stands
  have ahead : ∀ n r, (some n,r) ∉ watched.takings := fun n r member => by cases List.mem_singleton.mp member
  obtain ⟨slot,ready⟩ := ((cancelled_unless_overtaken came_asked unresolved_asked stirred later).1 ahead).2.2 quiet
  exact ⟨came_asked,unresolved_asked,stirred,later,rfl,quiet,slot,ready⟩

end Completion.Gathering

namespace Course.Unsettled
open Completion (Gathering)

/-- The evaluation is cancelled before the follower's look is run. -/
def unheeded : Option (Course Unit) := overtaken.bind (·.run plan .done backoff [.cancel])

/-- It was cancelled, nobody has offered an outcome, and the follower's look is about to be run. -/
def isUnheeded (p : Course Unit) : Bool :=
  p.isAt plan .look && (p.desk.evaluation 0).outcome.cancelled && (p.desk.evaluation 0).outcome.slot.isNone

theorem reached_unheeded : ∃ p, unheeded = some p ∧ Reachable plan .done backoff 2 (Tactful plan) p ∧
    isUnheeded p = true ∧ p.world = valued := by
  obtain ⟨p,ran,reached,-,world⟩ :=
    reached_leg reached_evaluates rfl (Standing.ends_compute_ok ends_evaluateInto) discreet_evaluate overtaken_looks
  have facts : unheeded.any isUnheeded = true := by decide +kernel
  obtain ⟨q,cancelled,seen⟩ := (Option.any_eq_true _ _).mp facts
  obtain ⟨p',ran',turns⟩ := Option.bind_eq_some_iff.mp cancelled
  have same : overtaken = some p := ran
  cases same.symm.trans ran'
  exact ⟨q,cancelled,.run reached _ tactful_of_allows turns,seen,(world_run turns).trans world⟩

/-- Cancelling does not always win. A completion is cancelled, or its signal closes, before anybody begins to resolve it,
    and still a call to resolve it is told that it was the one; and an evaluation is cancelled before the job that looks
    for its outcome is run, and still ends with what that job found. -/
theorem outcome_in_spite_of_cancel :
    ((Gathering.made ⟨false⟩).Leads Gathering.asked ∧ Gathering.asked.Unresolved ∧
      Gathering.asked.visits 0 = some .cancelled ∧
      Gathering.asked.Leads Gathering.beaten ∧ Gathering.beaten.Quiet ∧
      Gathering.beaten.completion.slot = some (.ok true) ∧
      Gathering.beaten.visits 1 = some (.resolved (.ok true) true)) ∧
    ((Gathering.made ⟨false⟩).Leads Gathering.ended ∧ Gathering.ended.Unresolved ∧
      Gathering.ended.signal.closed = true ∧
      Gathering.ended.Leads Gathering.outlived ∧ Gathering.outlived.Quiet ∧
      Gathering.outlived.completion.slot = some (.ok true) ∧
      Gathering.outlived.visits 1 = some (.resolved (.ok true) true)) ∧
    ∃ p q : Course Unit, Reachable plan .done backoff 2 (Tactful plan) p ∧
      (p.desk.evaluation 0).outcome.cancelled = true ∧ (p.desk.evaluation 0).outcome.slot = none ∧
      (∃ ts, Leads plan .done backoff (fun _ => True) p ts q) ∧
      (q.desk.evaluation 0).outcome.ready = true ∧ (q.desk.evaluation 0).outcome.slot = some (.error missing) := by
  refine ⟨⟨Gathering.came_asked,Gathering.unresolved_asked,rfl,Gathering.leads_beaten,Gathering.quiet_beaten,rfl,rfl⟩,
    ⟨Gathering.leads_ended,Gathering.unresolved_ended,rfl,Gathering.leads_outlived,Gathering.quiet_outlived,rfl,rfl⟩,?_⟩
  obtain ⟨p,ran,reached,seen,world⟩ := reached_unheeded
  simp only [isUnheeded,Bool.and_eq_true,Option.isNone_iff_eq_none] at seen
  obtain ⟨⟨here,cancelled⟩,empty⟩ := seen
  obtain ⟨n,running⟩ := reached.doing_of_isAt here
  have facts : (unheeded.bind (·.leg plan .done backoff [] (.ok (Evaluation.offering 0 (some (.error missing)))) valued
      [.share,.share])).any (hasFailed · missing) = true := by decide +kernel
  rw [ran,Option.bind_some] at facts
  obtain ⟨q,came,failed⟩ := (Option.any_eq_true _ _).mp facts
  have ends : ((Engine.outcomeAt "state" valued).bind fun r w => .ok (Evaluation.offering (τ := Unit) 0 r) w).Ends [] _ _ :=
    Standing.ends_compute_ok outcomeAt_valued
  have leads : Leads plan .done backoff (fun _ => True) p _ q :=
    leads_of_leg running rfl (by rw [world]; exact ends) (fun _ => trivial) came
  obtain ⟨ready,slot⟩ := slot_of_hasFailed failed
  exact ⟨p,q,reached,cancelled,empty,⟨_,leads⟩,ready,slot⟩

end Course.Unsettled

end ScriptHost
