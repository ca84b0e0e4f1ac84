import ScriptHost.Proofs.Evaluation.Accounting
/-!
No outcome is left hanging when a generation ends. As soon as its signal is closed and no watcher, no follower
and no job goes on any more, every completion that is bound to the generation is resolved, and so is the outcome
of every evaluation of the generation that is followed.
-/
namespace ScriptHost

/-- A move of a watcher or of a follower, or the announcement of what a job has offered. The loop of a worker, the
    ends of pauses and threads that wait for room in the queue do not matter to what is resolved. -/
def Move.isInner {τ α : Type} : Move τ α → Bool
  | .watchScript _ _ | .watchOutcome _ _ | .watchOther _ _ | .poll _ _ => true
  | .announce who _ => who.isWorker
  | _ => false

namespace Scene
variable {τ α : Type} {first : Work τ} {backoff : Backoff} {capacity : Nat} {own : τ} {s : Scene τ α}

/-- No watcher, no follower and no job can go on. -/
def Quiet (first : Work τ) (backoff : Backoff) (s : Scene τ α) : Prop :=
  ∀ m : Move τ α, m.isInner = true → s.act first backoff m = none

theorem accounted_of_reachable (reached : Reachable first backoff capacity own s) : s.Accounted := by
  induction reached with
  | init => exact accounted_init capacity own
  | act m _ taken ih => exact accounted_act ih taken

private theorem nil_of_head {β : Type} {l : List β} (none : l[0]? = none) : l = [] := by
  simpa using none

namespace Quiet
variable {i k g : Nat} {e : Evaluation} {c : Completion α}

theorem script (quiet : s.Quiet first backoff) (found : s.desk.evaluations[i]? = some e) :
    e.script.watchNext (s.signal e.generation) = [] := by
  have stuck := quiet (.watchScript i 0) rfl
  simp only [act,found,Option.bind_some,Option.map_eq_none_iff] at stuck
  exact nil_of_head stuck

theorem outcome (quiet : s.Quiet first backoff) (found : s.desk.evaluations[i]? = some e) :
    e.outcome.watchNext ⟨false⟩ = [] := by
  have stuck := quiet (.watchOutcome i 0) rfl
  simp only [act,found,Option.bind_some,Option.map_eq_none_iff] at stuck
  exact nil_of_head stuck

theorem other (quiet : s.Quiet first backoff) (found : s.others[k]? = some (g,c)) :
    c.watchNext (s.signal g) = [] := by
  have stuck := quiet (.watchOther k 0) rfl
  simp only [act,found,Option.bind_some,Option.map_eq_none_iff] at stuck
  exact nil_of_head stuck

theorem follower {stateName : String} {p : Poller (Work τ)} (quiet : s.Quiet first backoff)
    (follows : s.followers i = some (stateName,p)) :
    p.next s.system.isUnderway backoff stateName i s.view = [] := by
  have stuck := quiet (.poll i 0) rfl
  simp only [act,follows,Option.bind_some,Option.map_eq_none_iff] at stuck
  exact nil_of_head stuck

theorem debts {who : Party} {spot : Spot} (quiet : s.Quiet first backoff) (owes : (who,spot) ∈ s.debts) :
    who.isWorker = false := by
  by_contra worker
  have stuck := quiet (.announce who spot) (by simpa [Move.isInner] using worker)
  simp [act,owes] at stuck

end Quiet

/-- All watchers and all followers are gone, and nobody owes an announcement. -/
def isGone (s : Scene τ α) : Bool :=
  s.desk.evaluations.toList.all (fun e => e.script.watcher = .gone && e.outcome.watcher = .gone) &&
    s.others.toList.all (fun x => x.2.watcher = .gone) &&
    (List.range s.desk.evaluations.size).all (fun i => ((s.followers i).map (·.2.isGone)).getD true) &&
    s.debts.isEmpty

theorem quiet_of_isGone (accounted : s.Accounted) (gone : s.isGone = true) : s.Quiet first backoff := by
  simp only [isGone,Bool.and_eq_true,List.all_eq_true,Array.mem_toList_iff,List.mem_range,
    decide_eq_true_eq,List.isEmpty_iff] at gone
  obtain ⟨⟨⟨evaluations,others⟩,followers⟩,debts⟩ := gone
  intro m inner
  cases m with
  | watchScript i choice =>
    cases found : s.desk.evaluations[i]? with
    | none => simp [act,found]
    | some e => simp [act,found,Completion.watchNext,(evaluations e (Array.mem_of_getElem? found)).1]
  | watchOutcome i choice =>
    cases found : s.desk.evaluations[i]? with
    | none => simp [act,found]
    | some e => simp [act,found,Completion.watchNext,(evaluations e (Array.mem_of_getElem? found)).2]
  | watchOther k choice =>
    cases found : s.others[k]? with
    | none => simp [act,found]
    | some x => simp [act,found,Completion.watchNext,others x (Array.mem_of_getElem? found)]
  | poll i choice =>
    cases follows : s.followers i with
    | none => simp [act,follows]
    | some x =>
      obtain ⟨e,found,-⟩ := accounted.follows follows
      have gone := followers i (Array.getElem?_eq_some_iff.mp found).1
      rw [follows] at gone
      cases place : x.2 with
      | gone => simp [act,follows,place,Poller.next]
      | _ => simp [place,Poller.isGone] at gone
  | announce who spot => simp [act,debts]
  | _ => cases inner

/-- Nobody owes anything to an evaluation of a quiet scene. -/
theorem Accounted.free {i : Nat} {spot : Spot} (accounted : s.Accounted) (quiet : s.Quiet first backoff)
    (about : spot = .script i ∨ spot = .outcome i) : ¬ s.Owed spot := by
  rintro ⟨who,owes⟩
  have worker : who.isWorker = true := by
    rcases about with rfl | rfl <;> exact (accounted.known who _ owes).2
  cases worker.symm.trans (quiet.debts owes)

theorem Accounted.script_resolved {i : Nat} {e : Evaluation} (accounted : s.Accounted)
    (quiet : s.Quiet first backoff) (found : s.desk.evaluations[i]? = some e)
    (past : s.system.scheduler.isOver e.generation = true) : e.script.IsResolved := by
  obtain ⟨full,ready⟩ := (accounted.evaluations i e found).script.settled past (quiet.script found)
  exact ⟨full,ready (accounted.free quiet (.inl rfl))⟩

/-- A follower of a quiet scene whose generation has ended is gone, and it has seen to an outcome. -/
theorem Accounted.outcome_resolved {i : Nat} {e : Evaluation} (accounted : s.Accounted)
    (quiet : s.Quiet first backoff) (found : s.desk.evaluations[i]? = some e)
    (past : s.system.scheduler.isOver e.generation = true) (followed : (s.followers i).isSome = true) :
    e.outcome.IsResolved := by
  obtain ⟨⟨stateName,p⟩,follows⟩ := Option.isSome_iff_exists.mp followed
  obtain ⟨e',found',fits,-,outcome⟩ := accounted.follows follows
  cases found'.symm.trans found
  have gone : p = .gone := Poller.gone_of_waits found fits past
    (accounted.script_resolved quiet found past).2 (quiet.follower follows)
  subst gone
  refine ⟨fits,outcome.ready_of_slot fits (quiet.outcome found) ?_⟩
  rintro (owed | owes)
  · exact accounted.free quiet (.inr rfl) owed
  · exact owes

/-- A caller may be about to announce what it has offered to a completion of its own. -/
theorem Accounted.other_resolved {k g : Nat} {c : Completion α} (accounted : s.Accounted)
    (quiet : s.Quiet first backoff) (found : s.others[k]? = some (g,c))
    (past : s.system.scheduler.isOver g = true) :
    c.slot.isSome = true ∧ (c.ready = true ∨ ∃ t, (.thread t,.other k) ∈ s.debts) := by
  obtain ⟨full,ready⟩ := (accounted.others k g c found).settled past (quiet.other found)
  refine ⟨full,?_⟩
  by_cases owed : s.Owed (.other k)
  · obtain ⟨who,owes⟩ := owed
    have caller := quiet.debts owes
    cases who with
    | thread t => exact .inr ⟨t,owes⟩
    | worker g => cases caller
  · exact .inl (ready owed)

/-- Nothing bound to a generation that has ended is left hanging. -/
theorem resolved_of_quiet (reached : Reachable first backoff capacity own s) (quiet : s.Quiet first backoff) {g : Nat}
    (past : s.system.scheduler.isOver g = true) :
    (∀ i e, s.desk.evaluations[i]? = some e → e.generation = g →
      e.script.IsResolved ∧ ((s.followers i).isSome = true → e.outcome.IsResolved)) ∧
    ∀ (k : Nat) (c : Completion α), s.others[k]? = some (g,c) →
      c.slot.isSome = true ∧ (c.ready = true ∨ ∃ t, (.thread t,.other k) ∈ s.debts) := by
  have accounted := accounted_of_reachable reached
  constructor
  · rintro i e found rfl
    exact ⟨accounted.script_resolved quiet found past,accounted.outcome_resolved quiet found past⟩
  · exact fun k c found => accounted.other_resolved quiet found past

/-- A call of a thread goes on, and then the worker of the first generation. -/
private def calls (t calling working : Nat) : List (Move Unit Unit) :=
  List.replicate calling (.system (.go (.thread t) (.ok ()) 0)) ++ List.replicate working (.system (.work 1 0))

/-- The running job of the worker comes to its end. -/
private def jobDone : List (Move Unit Unit) :=
  [.system (.finish 1 false),.system (.work 1 0),.system (.settle 1)]

/-- The scheduler is stopped while the follower of an evaluation waits for the job that looks at the outcome, and a
    completion of a caller is pending. -/
def interrupted : List (Move Unit Unit) :=
  List.flatten [
    [.system (.start (.thread 0))],calls 0 8 0,[.system (.return (.thread 0)),.system .takeHandle],calls 0 0 6,
    jobDone,[.create 1,.evaluate 1,.system (.submit (.thread 1) 1 .done)],calls 1 3 6,
    [.follow 0 "state",.offerScript 1 0 (.ok "value"),.announce (.worker 1) (.script 0)],jobDone,
    List.replicate 5 (.poll 0 0),[.system (.stop 2)],calls 2 3 6,jobDone,calls 2 0 9,
    [.system (.settle 1),.system (.work 1 0)],List.replicate 8 (.poll 0 0),
    [.watchOther 0 0,.watchOther 0 0,.watchScript 0 0,.watchOutcome 0 0]]

theorem resolved_after_interruption :
    ∃ s : Scene Unit Unit, (init 2 ()).run (.done : Work Unit) (.ofSettings {}) interrupted = some s ∧
      s.Quiet (.done : Work Unit) (.ofSettings {}) ∧ s.system.scheduler.isOver 1 = true ∧
      (∃ e, s.desk.evaluations[0]? = some e ∧ e.generation = 1 ∧ e.script.IsResolved ∧ e.outcome.IsResolved) ∧
      ∃ c : Completion Unit, s.others[0]? = some (1,c) ∧ c.IsResolved := by
  have last : ((init 2 () : Scene Unit Unit).run (.done : Work Unit) (.ofSettings {}) interrupted).map
      (fun s => (s.isGone,s.system.scheduler.isOver 1,(s.followers 0).isSome,s.debts.isEmpty,
        s.desk.evaluations[0]?.map (·.generation),s.others[0]?.map (·.1))) =
      some (true,true,true,true,some 1,some 1) := rfl
  obtain ⟨s,ran,seen⟩ := Option.map_eq_some_iff.mp last
  simp only [Prod.mk.injEq,List.isEmpty_iff] at seen
  obtain ⟨gone,past,followed,debts,generation,bound⟩ := seen
  have reached : Reachable (.done : Work Unit) (.ofSettings {}) 2 () s := .run .init interrupted ran
  have quiet : s.Quiet (.done : Work Unit) (.ofSettings {}) := quiet_of_isGone (accounted_of_reachable reached) gone
  obtain ⟨evaluations,others⟩ := resolved_of_quiet reached quiet past
  refine ⟨s,ran,quiet,past,?_,?_⟩
  · obtain ⟨e,found,own⟩ := Option.map_eq_some_iff.mp generation
    obtain ⟨script,outcome⟩ := evaluations 0 e found own
    exact ⟨e,found,own,script,outcome followed⟩
  · obtain ⟨⟨g,c⟩,found,rfl⟩ := Option.map_eq_some_iff.mp bound
    obtain ⟨full,ready⟩ := others 0 c found
    exact ⟨c,found,full,ready.resolve_right (by simp [debts])⟩

end Scene

end ScriptHost
