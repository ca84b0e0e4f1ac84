import ScriptHost.Proofs.Evaluation.Tidiness
/-!
What a look at the outcome of an evaluation finds. The value was handed on before, and its state object is there; but
a stop that gives up waiting drops the job that was to hand the value on, and the follower, which cannot tell a job
that was run from one that was dropped, goes on to look.
-/
namespace ScriptHost
variable {τ : Type}

namespace Course

section
variable {c : Plan} {first : Work τ} {backoff : Backoff} {capacity : Nat} {p : Course τ} {k : Nat → Option Standing}
  {e : Evaluation} {m : Nat} {s : Standing}

/-- While the follower looks, there is a state object or an outcome, if the value was handed on. -/
theorem Neat.present_of_look (neat : Neat c p k e) (sound : Sound c first capacity p k e)
    (runs : (p.system.workers c.generation).running? = some m) (stands : k m = some s) (look : s.errand = .look) {v : String}
    (computed : Computed k (.follow v)) :
    (∃ id, p.world.kept? c.stateName = some (.data (.obj id) .full)) ∨ e.outcome.slot.isSome = true := by
  rcases neat.present v computed with object | full | ⟨n,v',failure,offers⟩ | ⟨value,n,s',stands',clean,old⟩
  · exact .inl object
  · exact .inr full
  · have other : n ≠ m := by
      rintro rfl
      cases stands.symm.trans offers
      cases look
    cases sound.over_of_other runs offers rfl other
  · have fresh := sound.fresh_of_later runs stands (by rw [look]; nofun) stands' (by rw [look,clean]; exact Nat.le.refl)
    cases old.symm.trans fresh

/-- Whenever the follower's look is run, the job that hands the value on was run before it, and the look finds the
    state object unless there is an outcome already; but for a job that a stop has dropped. -/
theorem follow_before_look (reached : Reachable c first backoff capacity (Tactful c) p) {d : Doing τ}
    (running : p.running? c = some (m,d)) (look : d.errand = .look) :
    ∃ n v d', p.errands n = some d' ∧ d'.errand = .follow v ∧
      ((∀ h, (.drained h,c.envelope n (.follow v)) ∉ p.journal.left) →
        Before (jobsOf (begun c.generation p.system.history)) n m ∧ (c.generation,n) ∈ p.ledger.executed ∧
        ((∃ id, p.world.kept? c.stateName = some (.data (.obj id) .full) ∧
            Engine.plainly (do Engine.asObject (← Engine.getGlobal c.stateName)) p.world = .ok (.ok id) p.world) ∨
          (p.desk.evaluation c.number).outcome.slot.isSome = true)) := by
  obtain ⟨k,e,sound,neat⟩ := exists_neat reached
  obtain ⟨runs,s,stands,same⟩ := sound.stands_of_running running
  have looks : s.errand = .look := same.trans look
  obtain ⟨v,n,s',stands',follow⟩ := sound.informed.founded .look ⟨m,s,stands,looks⟩
  have errand : p.errands n = some (s'.doing c) := by
    rw [sound.based.errands,stands']
    rfl
  refine ⟨n,v,_,errand,follow,fun kept => ?_⟩
  obtain ⟨before,executed,ended⟩ := sound.over_of_earlier runs stands' (by rw [follow]; nofun) stands
    (by rw [follow,looks]; exact Nat.le.refl) (by rw [follow]; exact kept)
  have computed : Computed k (.follow v) := ⟨n,s',stands',follow,by cases s' <;> first | rfl | cases ended⟩
  refine ⟨before,executed,?_⟩
  rw [Desk.evaluation_eq sound.based.found]
  rcases neat.present_of_look sound runs stands looks computed with ⟨id,object⟩ | full
  · exact .inl ⟨id,object,Engine.found_of_kept (neat.keeps _ c.stateName_mem) object⟩
  · exact .inr full

end

namespace Unsettled

theorem follow_before_look_of_unsettled : ∃ (p : Course Unit) (m : Nat) (d : Doing Unit),
    Reachable plan .done backoff 2 (Tactful plan) p ∧ p.running? plan = some (m,d) ∧ d.errand = .look ∧
    ∃ n v d', p.errands n = some d' ∧ d'.errand = .follow v ∧ Before (jobsOf (begun 1 p.system.history)) n m ∧
      (1,n) ∈ p.ledger.executed ∧
      ((∃ id, p.world.kept? "state" = some (.data (.obj id) .full) ∧
          Engine.plainly (do Engine.asObject (← Engine.getGlobal "state")) p.world = .ok (.ok id) p.world) ∨
        (p.desk.evaluation 0).outcome.slot.isSome = true) := by
  have facts : looks.any isUndrained = true := by decide +kernel
  obtain ⟨p,ran,reached,runs,-⟩ := reached_looks
  rw [ran] at facts
  obtain ⟨m,running⟩ := reached.doing_of_isAt runs
  obtain ⟨n,v,d',found,follow,rest⟩ := follow_before_look reached running rfl
  exact ⟨p,m,_,reached,running,rfl,n,v,d',found,follow,rest fun h => not_drained facts h _⟩

/-- The job that is to hand the value on waits behind another one when a stop gives up waiting; before the stop goes on
    after that, the follower hands in a look, which is run next. -/
def overtaken : Option (Course Unit) :=
  evaluates.bind (·.leg plan .done backoff [] (.ok (Evaluation.offeringScript 0 "value" (.ok ()))) valued
    (List.flatten [[.share,.share],jobDone,.system (.submit (.thread 4) 1 .done) :: (calls 4 3 ++ worker),[.follow],polls 5,
      .system (.stop 3) :: calls 3 7,polls 2,[.late],polls 4,jobDone,worker]))

/-- What is said of a state object that is not there. -/
def missing : Failure := .engine "Error converting from js 'undefined' into type 'object'"

theorem outcomeAt_valued : (Engine.outcomeAt "state" valued).Ends [] (.ok (some (.error missing))) valued := .ok

/-- Nothing that was run to its end has handed a value on. -/
def isUnfollowed (p : Course Unit) : Bool :=
  p.ledger.executed.all fun (_,n) => (p.errands n).all fun d => match d.errand with
    | .follow _ => false
    | _ => true

theorem not_executed {p : Course Unit} (unfollowed : isUnfollowed p = true) {n : Nat} {d : Doing Unit} {v : String}
    (found : p.errands n = some d) (follow : d.errand = .follow v) (g : Nat) : (g,n) ∉ p.ledger.executed := by
  intro executed
  have other := List.all_eq_true.mp unfollowed _ executed
  simp [found,follow] at other

/-- A failure is the outcome, and everyone knows. -/
def hasFailed (p : Course Unit) (f : Failure) : Bool :=
  (p.desk.evaluation 0).outcome.ready && (p.desk.evaluation 0).outcome.slot.any fun r => match r with
    | .ok _ => false
    | .error f' => f' = f

theorem slot_of_hasFailed {p : Course Unit} {f : Failure} (failed : hasFailed p f = true) :
    (p.desk.evaluation 0).outcome.ready = true ∧ (p.desk.evaluation 0).outcome.slot = some (.error f) := by
  simp only [hasFailed,Bool.and_eq_true] at failed
  obtain ⟨ready,failed⟩ := failed
  obtain ⟨r,full,same⟩ := (Option.any_eq_true _ _).mp failed
  cases r with
  | ok v => cases same
  | error f' => exact ⟨ready,full.trans (by rw [of_decide_eq_true same])⟩

theorem overtaken_looks : overtaken.any (fun p => p.isAt plan .look && isUnfollowed p) = true := by decide +kernel

/-- A look is run, though the value was never handed on. It finds no state object, and that is what the evaluation
    ends with. -/
theorem look_without_follow : ∃ p q : Course Unit, Reachable plan .done backoff 2 (Tactful plan) p ∧
    (∃ m, p.running? plan = some (m,Errand.look.doing plan)) ∧
    (∀ n d v, p.errands n = some d → d.errand = .follow v → (1,n) ∉ p.ledger.executed) ∧
    p.world.kept? "state" = none ∧ Reachable plan .done backoff 2 (Tactful plan) q ∧
    (q.desk.evaluation 0).outcome.ready = true ∧ (q.desk.evaluation 0).outcome.slot = some (.error missing) := by
  obtain ⟨p,ran,reached,seen,world⟩ :=
    reached_leg reached_evaluates rfl (Standing.ends_compute_ok ends_evaluateInto) discreet_evaluate overtaken_looks
  simp only [Bool.and_eq_true] at seen
  obtain ⟨runs,unfollowed⟩ := seen
  have facts : (overtaken.bind (·.leg plan .done backoff [] (.ok (Evaluation.offering 0 (some (.error missing)))) valued
      [.share,.share])).any (hasFailed · missing) = true := by decide +kernel
  obtain ⟨q,-,ends,failed,-⟩ :=
    reached_leg ⟨p,ran,reached,runs,world⟩ rfl (Standing.ends_compute_ok outcomeAt_valued) (.refl _ _) facts
  have none : valued.kept? "state" = none := by rfl
  exact ⟨p,q,reached,reached.doing_of_isAt runs,fun n d v found follow => not_executed unfollowed found follow 1,
    world ▸ none,ends,slot_of_hasFailed failed⟩

end Unsettled

end Course

end ScriptHost
