import ScriptHost.Proofs.Scheduler.Delivery
import ScriptHost.Proofs.Scheduler.Isolation
/-!
How workers come to run jobs, and the first job of every generation. A worker begins with a job in one step, and nothing
but the end of the job takes it away again. If nobody hands in the first job but a start, every generation has one envelope
with it.
-/
namespace ScriptHost
variable {J : Type}

/-- The job that a worker begins with in a step, with its number. -/
def Worker.begun? {R : Type} : Worker J R → Worker J R → Option (Nat × J)
  | .clearsReason e, .runs _ _ =>
    match e.task with
    | .job j => some (e.serial,j)
    | .stop => none
  | _, _ => none

/-- Who runs a job afterwards only if it ran one before begins with none. -/
theorem Worker.begun_eq_none {R : Type} {p q : Worker J R} (same : q.running? = p.running?) : p.begun? q = none := by
  cases p with
  | clearsReason e =>
    cases q with
    | runs n r => cases same
    | _ => rfl
  | _ => rfl

namespace System
variable {first : J} {σ τ : System J} {a : Action J}

/-- A worker begins with a job, or the job that it runs stays the same. -/
theorem begins_step (sound : σ.Sound) (step : Step first σ a τ) (goesOn : ∀ g panicked, a ≠ .finish g panicked) (g : Nat) :
    (∃ e j, e.task = .job j ∧ (σ.workers g).begun? (τ.workers g) = some (e.serial,j) ∧
      τ.workers g = .runs e.serial none ∧ τ.history = .began g e :: σ.history) ∨
    (τ.workers g).running? = (σ.workers g).running? ∧ (σ.workers g).begun? (τ.workers g) = none := by
  have still (same : (τ.workers g).running? = (σ.workers g).running?) :
      (τ.workers g).running? = (σ.workers g).running? ∧ (σ.workers g).begun? (τ.workers g) = none :=
    ⟨same,Worker.begun_eq_none same⟩
  have arrives (c : Option (Call J)) (who : Party) (s : Scheduler J) (events : List (Event J)) :
      (((σ.setCall c who).arrive who s events).workers g).running? = (σ.workers g).running? := by
    have idle : s.generation ≠ (σ.setCall c who).scheduler.generation →
        ((σ.setCall c who).workers s.generation).running? = none := by
      rw [scheduler_setCall,running_setCall]
      exact sound.idle
    rw [running_arrive idle,running_setCall]
  cases step with
  | takeHandle free | interrupt free => exact .inr (still rfl)
  | start free | stop free | «return» called past => exact .inr (still (running_setCall σ _ _ g))
  | submit free taken | go called step | failToHandOver called => exact .inr (still (arrives _ _ _ _))
  | handOver called free => exact .inr (still (by rw [running_setCall,running_setCall]))
  | @work h choice p t step =>
    have landed : ({ σ with workers := Function.update σ.workers h p }.arrive (.worker h) t
        ((σ.workers h).events h p)).workers g = Function.update σ.workers h p g := by
      simp [arrive,step.generation]
    by_cases own : g = h
    · subst own
      rw [Function.update_self] at landed
      rw [landed]
      have before := (step.jobs g).1
      generalize place : σ.workers g = w at step before
      cases step with
      | @beginJob e j task => exact .inl ⟨e,j,task,by simp only [Worker.begun?,task],rfl,rfl⟩
      | _ => exact .inr ⟨rfl,rfl⟩
    · rw [Function.update_of_ne own] at landed
      exact .inr (still (congrArg Worker.running? landed))
  | @finish h n panicked place => exact absurd rfl (goesOn h panicked)
  | @settle h r place =>
    refine .inr (still ?_)
    by_cases own : g = h
    · subst own
      simp [place,Worker.running?]
    · simp [Function.update_of_ne own]

/-! ### First jobs -/

/-- The first job is handed in once for every generation. -/
structure Firsts (first : J) (σ : System J) : Prop where
  opened : ∀ h e, .submitted h e ∈ σ.history → e.task = .job first → e.generation ≤ σ.scheduler.generation
  single : ∀ h e, .submitted h e ∈ σ.history → e.task = .job first → ∀ h' f, .submitted h' f ∈ σ.history →
    f.task = .job first → e.generation = f.generation → e = f

/-- Jobs are handed in by submissions, and by starts. -/
theorem submitted_step (step : Step first σ a τ) {handle : Nat} {e : Envelope J}
    (member : .submitted handle e ∈ τ.history) : .submitted handle e ∈ σ.history ∨
      (∃ who j, a = .submit who handle j ∧ e.task = .job j) ∨
      e = Starting.firstEnvelope first σ.scheduler ∧ τ.scheduler.generation = σ.scheduler.generation+1 := by
  have old {events : List (Event J)} {c : Option (Call J)} {who : Party}
      (member : .submitted handle e ∈ events ++ (σ.setCall c who).history) :
      .submitted handle e ∈ events ∨ .submitted handle e ∈ σ.history := by
    rw [history_setCall] at member
    exact List.mem_append.mp member
  have plain (p q : Submission J) : .submitted handle e ∉ p.events q := by
    intro member
    rcases Submission.mem_events member with ⟨f,same⟩ | ⟨f,same⟩ <;> cases same
  cases step with
  | takeHandle free | finish place | settle place | interrupt free => exact .inl member
  | start free | stop free | «return» called past =>
    rw [history_setCall] at member
    exact .inl member
  | @submit who handle' j free taken =>
    rcases old member with new | before
    · cases List.mem_singleton.mp new
      exact .inr (.inl ⟨who,j,rfl,rfl⟩)
    · exact .inl before
  | @go who made choice c d t events called step =>
    rcases old member with new | before
    · cases step with
      | @start p q found t step =>
        cases step with
        | create =>
          rcases List.mem_cons.mp new with same | other
          · cases same
            exact .inr (.inr ⟨rfl,rfl⟩)
          · cases List.mem_singleton.mp other
        | submit step => exact absurd new (plain _ _)
        | _ => simp [Starting.events] at new
      | stop step => cases step <;> simp [Stopping.events] at new
      | submit step => exact absurd new (plain _ _)
    · exact .inl before
  | handOver called free =>
    rw [history_setCall,history_setCall] at member
    exact .inl member
  | failToHandOver called =>
    rcases old member with new | before
    · cases List.mem_singleton.mp new
    · exact .inl before
  | work step =>
    rcases List.mem_append.mp member with new | before
    · rcases Worker.mem_events new with ⟨f,same⟩ | ⟨f,same⟩ | ⟨same,-⟩ <;> cases same
    · exact .inl before

/-- If nobody else hands in the first job, a further envelope with it is that of a generation that was not there before. -/
theorem Firsts.step (firsts : Firsts first σ) (later : σ.scheduler.generation ≤ τ.scheduler.generation)
    (step : Step first σ a τ) (foreign : ∀ who handle j, a = .submit who handle j → j ≠ first) : Firsts first τ := by
  have next : (Starting.firstEnvelope first σ.scheduler).generation = σ.scheduler.generation+1 := rfl
  have origin (h : Nat) (e : Envelope J) (member : .submitted h e ∈ τ.history) (task : e.task = .job first) :
      .submitted h e ∈ σ.history ∨
        e = Starting.firstEnvelope first σ.scheduler ∧ τ.scheduler.generation = σ.scheduler.generation+1 := by
    rcases submitted_step step member with before | ⟨who,j,same,job⟩ | new
    · exact .inl before
    · exact absurd (Task.job.inj (job.symm.trans task)) (foreign who h j same)
    · exact .inr new
  refine ⟨fun h e member task => ?_,fun h e member task h' f member' task' same => ?_⟩
  · rcases origin h e member task with before | ⟨rfl,opens⟩
    · exact Nat.le_trans (firsts.opened h e before task) later
    · exact Nat.le_of_eq (next.trans opens.symm)
  · rcases origin h e member task with before | ⟨rfl,-⟩
    · rcases origin h' f member' task' with before' | ⟨rfl,-⟩
      · exact firsts.single h e before task h' f before' task' same
      · have old := firsts.opened h e before task
        omega
    · rcases origin h' f member' task' with before' | ⟨rfl,-⟩
      · have old := firsts.opened h' f before' task'
        omega
      · rfl

/-! ### Jobs that were begun with -/

section
variable {g : Nat} {e : Envelope J}

/-- A job that a worker has begun with was handed in. -/
theorem submitted_of_began (orderly : Orderly σ) (began : .began g e ∈ σ.history) {j : J} (task : e.task = .job j) :
    e.generation = g ∧ .submitted e.generation e ∈ σ.history := by
  obtain ⟨later,earlier,same,own,-,sent⟩ := orderly.recorded.lawful.of_mem began
  unfold Sent at sent
  rw [task] at sent
  refine ⟨own,?_⟩
  rw [same]
  exact List.mem_append_right later (List.mem_cons_of_mem _ sent)

/-- A worker begins with an envelope of a number that none of its earlier ones has. -/
theorem fresh_of_began {capacity : Nat} (reached : Reachable first capacity τ) (began : τ.history = .began g e :: σ.history)
    {f : Envelope J} (earlier : .began g f ∈ σ.history) : f.serial ≠ e.serial := by
  obtain ⟨j,journaled⟩ := reached.journaled
  have nodup := journaled.begun_nodup g
  have split : begun g τ.history = e :: begun g σ.history := by
    rw [began]
    simp [begun,Event.begun?]
  rw [split,List.map_cons,List.nodup_cons] at nodup
  intro same
  exact nodup.1 (same ▸ List.mem_map_of_mem (mem_begun.mpr earlier))

end

end System

end ScriptHost
