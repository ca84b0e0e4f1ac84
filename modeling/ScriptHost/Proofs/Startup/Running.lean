import ScriptHost.Scripts
import ScriptHost.Proofs.Engine.Aborting
/-!
What one step of a running job does. Whatever the host is like, and whatever the engine answers, the job goes on with what
its computation has come to, registers a hook, or comes to its end, and the list of hooks changes by registrations only.
The first job of a generation is the only one that goes over to the hooks: a job is ordinary if neither it nor any job that
it hands in or registers can come to that.
-/
namespace ScriptHost
open Engine

/-- The job does not come to the hooks, whatever its computations and requests come to, and neither do the jobs that it
    submits or registers. -/
inductive Job.Ordinary {σ : Type} : Job σ → Prop where
  | ended (r : Except Failure Unit) : Ordinary (.ended r)
  | panicked (text : String) : Ordinary (.panicked text)
  | engine {m : World → Engine.Tree (Job σ)}
    (each : ∀ w answers j last, (m w).Ends answers (.ok j) last → Ordinary j) : Ordinary (.engine m)
  | share {f : σ → σ × Job σ} (each : ∀ d, Ordinary (f d).2) : Ordinary (.share f)
  | await {ready : σ → Bool} {next : Job σ} (rest : Ordinary next) : Ordinary (.await ready next)
  | sleep {d : Span} {next : Job σ} (rest : Ordinary next) : Ordinary (.sleep d next)
  | submit {j : Job σ} {next : Bool → Job σ} (job : Ordinary j) (each : ∀ accepted, Ordinary (next accepted)) :
    Ordinary (.submit j next)
  | start {next : Except Failure Unit → Job σ} (each : ∀ r, Ordinary (next r)) : Ordinary (.start next)
  | stop {next : Except Failure Unit → Job σ} (each : ∀ r, Ordinary (next r)) : Ordinary (.stop next)
  | interrupt {reason : String} {next : Job σ} (rest : Ordinary next) : Ordinary (.interrupt reason next)
  | addHook {before : Bool} {hook next : Job σ} (job : Ordinary hook) (rest : Ordinary next) :
    Ordinary (.addHook before hook next)

namespace Job
variable {σ α : Type} {next : Job σ}

theorem ordinary_done : (done : Job σ).Ordinary := .ended _

theorem ordinary_compute {m : M α} {next : α → Job σ} (each : ∀ a, (next a).Ordinary) : (compute m next).Ordinary := by
  refine .engine fun w answers j last ends => ?_
  rcases Tree.ends_bind.mp ends with ⟨first,rest,a,back,-,-,after⟩ | ⟨e,same,-⟩
  · cases after
    exact each a
  · cases same

theorem ordinary_put {f : σ → σ} (rest : next.Ordinary) : (put f next).Ordinary := .share fun _ => rest

end Job

/-! ### Jobs of a host -/

section
variable {τ : Type}

theorem Host.ordinary_timerJob (t : Engine.Timer) : (Host.timerJob t : Work τ).Ordinary :=
  Job.ordinary_compute fun _ => Job.ordinary_done

/-- The hook that runs the scripts of a directory. -/
theorem Host.ordinary_directoryHook (root : Path) : (Host.directoryHook root : Work τ).Ordinary :=
  Job.ordinary_compute fun _ => Job.ordinary_done

theorem Host.ordinary_restJob : ∃ j : Work τ, Host.restJob = ⟨.doing j,none⟩ ∧ j.Ordinary :=
  ⟨_,rfl,Job.ordinary_compute fun _ => Job.ordinary_done⟩

theorem Evaluation.ordinary_offering (i : Nat) (r : Option (Except Failure Json)) :
    (Evaluation.offering i r : Work τ).Ordinary := by
  cases r with
  | none => exact Job.ordinary_done
  | some r =>
    refine .share fun d => ?_
    show (if (d.offerOutcome i r).1 = true then _ else _ : Work τ).Ordinary
    split
    · exact Job.ordinary_put Job.ordinary_done
    · exact Job.ordinary_done

theorem Evaluation.ordinary_offeringScript (i : Nat) (valueName : String) (r : Except Failure Unit) :
    (Evaluation.offeringScript i valueName r : Work τ).Ordinary := by
  refine .share fun d => ?_
  cases taken : (d.offerScript i (r.map fun () => valueName)).1 with
  | true =>
    simp only [taken]
    exact Job.ordinary_put Job.ordinary_done
  | false =>
    cases r with
    | ok v =>
      simp only [taken]
      exact Job.ordinary_compute fun _ => Job.ordinary_done
    | error e =>
      simp only [taken]
      exact Job.ordinary_done

/-- The jobs of an evaluation are ordinary ones. -/
theorem Evaluation.ordinary_jobs (i : Nat) (p : Program) (valueName stateName : String) (kept : Option String) :
    (scriptJob i p valueName : Work τ).Ordinary ∧ (followJob i valueName stateName : Work τ).Ordinary ∧
    (lookJob i stateName : Work τ).Ordinary ∧ (cleanJob stateName kept : Work τ).Ordinary :=
  ⟨Job.ordinary_compute (ordinary_offeringScript i valueName),Job.ordinary_compute (ordinary_offering i),
    Job.ordinary_compute (ordinary_offering i),Job.ordinary_compute fun _ => Job.ordinary_done⟩

end

/-! ### What a new engine is given -/

namespace Engine

/-- What could not be installed is noted in the log. -/
def World.noting (message : String) (r : Except Failure Unit) (w : World) : World :=
  match r with
  | .ok () => w
  | .error e => { w with outside.logs := .warning message [("error",.str e.message)] :: w.outside.logs }

/-- An engine was given its globals: the registry is empty, then `require` is installed, and then the console and timers.
    What throws in there is noted, and keeps nothing that follows from being done. -/
inductive Installed : World → Prop where
  | intro {start modules rest : World} {first second : List Answer} {r s : Except Failure Unit}
    (require : (plainly (sure installModules)
      { start with outside.registry := start.outside.registry.reset }).Ends first (.ok r) modules)
    (builtins : (plainly (sure do
      installConsole
      installTimers) (modules.noting "Failed to enable require" r)).Ends second (.ok s) rest) :
    Installed (rest.noting "Failed to install built-in globals" s)

/-- The end of a computation that throws nothing, with what follows. -/
theorem Yields.ends_bind {α β : Type} {m : M α} {f : α → M β} {P : α → Prop} {w last : World} {answers : List Answer}
    {r : Except Thrown β} (yields : Yields m P) (ends : ((m >>= f) w).Ends answers r last) :
    ∃ first rest a back, (m w).Ends first (.ok a) back ∧ (f a back).Ends rest r last := by
  rw [M.bind_apply] at ends
  rcases Tree.ends_bind.mp ends with ⟨first,rest,a,back,-,before,after⟩ | ⟨e,-,thrown⟩
  · exact ⟨first,rest,a,back,before,after⟩
  · obtain ⟨a,same,-⟩ := yields _ _ _ _ thrown
    cases same

/-- Note what could not be installed. -/
def noted (message : String) (r : Except Failure Unit) : M Unit :=
  if let .error e := r then
    changeOutside fun o => { o with logs := .warning message [("error",.str e.message)] :: o.logs }
  else pure ()

theorem noted_apply (message : String) (r : Except Failure Unit) (w : World) :
    noted message r w = .ok () (w.noting message r) := by
  cases r <;> rfl

theorem installGlobals_eq : installGlobals = (do
    changeOutside fun o => { o with registry := o.registry.reset }
    noted "Failed to enable require" (← plainly (sure installModules))
    noted "Failed to install built-in globals" (← plainly (sure do
      installConsole
      installTimers))) := rfl

/-- Whatever the answers are, a new engine is given its globals. -/
theorem installed_of_ends {w last : World} {answers : List Answer} {r : Except Thrown Unit}
    (ends : (installGlobals w).Ends answers r last) : r = .ok () ∧ Installed last := by
  rw [installGlobals_eq,M.bind_of_ok (show changeOutside _ w = .ok () _ from rfl)] at ends
  obtain ⟨first,rest,a,back,require,ends⟩ := (yields_plainly _).ends_bind ends
  rw [M.bind_of_ok (noted_apply _ a back)] at ends
  obtain ⟨second,rest,b,last',builtins,ends⟩ := (yields_plainly _).ends_bind ends
  rw [noted_apply] at ends
  cases ends
  exact ⟨rfl,.intro require builtins⟩

end Engine

/-! ### One step -/

/-- How a hook has come to its end. -/
inductive Ending where
  | returned (r : Except Failure Unit)
  | panicked (text : String)

/-- A hook has broken off. -/
def Ending.isPanic : Ending → Bool
  | .returned _ => false
  | .panicked _ => true

section
variable {τ : Type}

namespace Stage

/-- The hook that is registered next, and whether before the others. -/
def registers? : Stage τ → Option (Bool × Work τ)
  | .doing (.addHook before hook _) => some (before,hook)
  | _ => none

/-- The job has come to its end. -/
def ending? : Stage τ → Option Ending
  | .doing (.ended r) => some (.returned r)
  | .doing (.panicked text) => some (.panicked text)
  | _ => none

/-- The job is an ordinary one, and so is what its computation comes to. -/
def Ordinary : Stage τ → Prop
  | .doing j => j.Ordinary
  | .asking next => ∀ goesOn back j last, (next goesOn back).Ends (.ok j) last → j.Ordinary
  | .sleeping _ next => next.Ordinary
  | .submitting _ next => ∀ accepted, (next accepted).Ordinary
  | .starting _ next => ∀ r, (next r).Ordinary

/-- An engine is being given its globals. -/
def Installing : Stage τ → Prop
  | .doing j => j = Host.initialJob
  | .asking next => ∀ goesOn back r last, (next goesOn back).Ends r last → r = .ok .hooks ∧ Installed last
  | _ => False

end Stage

namespace Host
variable (h : Host τ) (m : Machine) (hooks : Option (List (Work τ)))

/-- A computation comes to its end, or to a question of a script; whatever the answer is, what it ends with then is what the
    computation may end with. -/
theorem compute_cases (begin_ : World → Current (Work τ)) :
    (∃ r last, (begin_ (h.lend m.world)).Ends r last ∧ (h.compute m hooks begin_).2.2.world = returned last ∧
      (h.compute m hooks begin_).1 = .goes ⟨.doing (r.toOption.getD .done),hooks⟩) ∨
    ∃ next, (h.compute m hooks begin_).1 = .goes ⟨.asking next,hooks⟩ ∧
      ∀ goesOn back r last, (next goesOn back).Ends r last → (begin_ (h.lend m.world)).Ends r last := by
  obtain ⟨w,parked,limit⟩ := m
  have ends := fun r last => @Run.ends (Work τ) limit r last parked Engine.endless (begin_ (h.lend w))
  unfold compute
  dsimp only
  generalize runFor limit Engine.endless (begin_ (h.lend w)) parked = run at ends
  cases run with
  | ended r last left =>
    refine .inl ⟨r,last,ends r last ⟨rfl,rfl⟩,rfl,?_⟩
    cases r <;> rfl
  | asks w left next =>
    exact .inr ⟨next,rfl,fun goesOn back r last after => ends r last ⟨goesOn,back,after⟩⟩

theorem hooks_compute (begin_ : World → Current (Work τ)) : (h.compute m hooks begin_).2.1.hooks = h.hooks := by
  obtain ⟨w,parked,limit⟩ := m
  unfold compute
  dsimp only
  generalize runFor limit Engine.endless (begin_ (h.lend w)) parked = run
  cases run <;> rfl

theorem hooks_stepStart {p q : Starting (Work τ)} {h' : Host τ} (step : h.stepStart p = some (q,h')) :
    h'.hooks = h.hooks := by
  unfold stepStart at step
  dsimp only at step
  split at step
  · cases step
  · cases step
    split <;> rfl

/-- The hooks change by what a job registers. -/
theorem hooks_stepActivity (a : Activity τ) : (h.stepActivity m a).2.1.hooks =
    match a.stage.registers? with
    | some (before,hook) => (h.addHook before hook).hooks
    | none => h.hooks := by
  obtain ⟨stage,hooks⟩ := a
  cases stage with
  | doing j =>
    cases j with
    | ended r => cases r <;> cases hooks <;> rfl
    | panicked text => cases hooks <;> rfl
    | engine work => exact h.hooks_compute m hooks _
    | await ready next =>
      simp only [stepActivity]
      split <;> rfl
    | submit job next =>
      simp only [stepActivity,beginSubmission]
      split <;> rfl
    | _ => rfl
  | asking next => exact hooks_compute _ m hooks _
  | sleeping due next =>
    simp only [stepActivity]
    split <;> rfl
  | submitting p next =>
    simp only [stepActivity]
    split
    · rfl
    · rfl
    · split <;> rfl
  | starting p next =>
    simp only [stepActivity]
    split
    · rfl
    · split
      · rfl
      · next step => exact h.hooks_stepStart step

/-- Who comes to the end of a job goes on with the next hook, if there is one. -/
theorem advance_of_ending {stage : Stage τ} {e : Ending} (ends : stage.ending? = some e) :
    (h.stepActivity m ⟨stage,hooks⟩).1 = finish hooks e.isPanic := by
  cases stage with
  | doing j =>
    cases j with
    | ended r | panicked text =>
      cases ends
      rfl
    | _ => cases ends
  | _ => cases ends

/-- Any other job goes on or waits. -/
theorem advance_of_ordinary {stage : Stage τ} (ordinary : stage.Ordinary) (goesOn : stage.ending? = none) :
    ∃ s : Stage τ, s.Ordinary ∧ ((h.stepActivity m ⟨stage,hooks⟩).1 = .goes ⟨s,hooks⟩ ∨
      (h.stepActivity m ⟨stage,hooks⟩).1 = .waits ⟨s,hooks⟩) := by
  have computes (k : Host τ) (begin_ : World → Current (Work τ))
      (each : ∀ w j last, (begin_ w).Ends (.ok j) last → j.Ordinary) :
      ∃ s : Stage τ, s.Ordinary ∧ ((k.compute m hooks begin_).1 = .goes ⟨s,hooks⟩ ∨
        (k.compute m hooks begin_).1 = .waits ⟨s,hooks⟩) := by
    rcases k.compute_cases m hooks begin_ with ⟨r,last,ends,-,goes⟩ | ⟨next,goes,ends⟩
    · refine ⟨_,?_,.inl goes⟩
      cases r with
      | ok j => exact each _ j last ends
      | error e => exact Job.ordinary_done
    · exact ⟨.asking next,fun goesOn back j last after => each _ j last (ends goesOn back _ last after),.inl goes⟩
  cases stage with
  | doing j =>
    cases ordinary with
    | ended r | panicked text => cases goesOn
    | engine each =>
      refine computes h _ fun w j last ends => ?_
      obtain ⟨answers,ends⟩ := ends
      exact each w answers j last ends
    | share each => exact ⟨.doing _,each h.desk,.inl rfl⟩
    | @await ready next rest =>
      simp only [stepActivity]
      split
      · exact ⟨.doing _,rest,.inl rfl⟩
      · exact ⟨.doing (.await ready next),.await rest,.inr rfl⟩
    | @sleep d next rest => exact ⟨.sleeping (h.now.plus d) next,rest,.inl rfl⟩
    | @submit j next job each => exact ⟨.submitting (h.beginSubmission true j).1 next,each,.inl rfl⟩
    | @start next each => exact ⟨.starting .enters next,each,.inl rfl⟩
    | stop each => exact ⟨.doing _,each _,.inl rfl⟩
    | interrupt rest | addHook job rest => exact ⟨.doing _,rest,.inl rfl⟩
  | asking next => exact computes _ _ fun w j last ends => ordinary _ w j last ends
  | sleeping due next =>
    simp only [stepActivity]
    split
    · exact ⟨.doing next,ordinary,.inl rfl⟩
    · exact ⟨.sleeping due next,ordinary,.inr rfl⟩
  | submitting p next =>
    simp only [stepActivity]
    split
    · exact ⟨.doing _,ordinary _,.inl rfl⟩
    · exact ⟨.doing _,ordinary _,.inl rfl⟩
    · split
      · exact ⟨.submitting _ next,ordinary,.inr rfl⟩
      · refine ⟨.submitting _ next,?_,.inl rfl⟩
        exact ordinary
  | starting p next =>
    simp only [stepActivity]
    split
    · exact ⟨.doing _,ordinary _,.inl rfl⟩
    · split
      · exact ⟨.starting _ next,ordinary,.inr rfl⟩
      · refine ⟨.starting _ next,?_,.inl rfl⟩
        exact ordinary

/-- An engine that is being given its globals goes over to the hooks when that has come to its end. -/
theorem advance_of_installing {stage : Stage τ} (installing : stage.Installing) :
    (∃ next, Stage.Installing (.asking next : Stage τ) ∧ (h.stepActivity m ⟨stage,hooks⟩).1 = .goes ⟨.asking next,hooks⟩) ∨
    (h.stepActivity m ⟨stage,hooks⟩).1 = .goes ⟨.doing .hooks,hooks⟩ ∧
      ∃ last, Installed last ∧ (h.stepActivity m ⟨stage,hooks⟩).2.2.world = returned last := by
  have computes (k : Host τ) (begin_ : World → Current (Work τ))
      (each : ∀ w r last, (begin_ w).Ends r last → r = .ok .hooks ∧ Installed last) :
      (∃ next, Stage.Installing (.asking next : Stage τ) ∧ (k.compute m hooks begin_).1 = .goes ⟨.asking next,hooks⟩) ∨
      (k.compute m hooks begin_).1 = .goes ⟨.doing .hooks,hooks⟩ ∧
        ∃ last, Installed last ∧ (k.compute m hooks begin_).2.2.world = returned last := by
    rcases k.compute_cases m hooks begin_ with ⟨r,last,ends,world,goes⟩ | ⟨next,goes,ends⟩
    · obtain ⟨rfl,installed⟩ := each _ r last ends
      exact .inr ⟨goes,last,installed,world⟩
    · exact .inl ⟨next,fun goesOn back r last after => each _ r last (ends goesOn back r last after),goes⟩
  cases stage with
  | doing j =>
    cases installing
    refine computes h _ fun w r last ends => ?_
    obtain ⟨answers,ends⟩ := ends
    rcases Tree.ends_bind.mp ends with ⟨first,rest,a,back,-,before,after⟩ | ⟨e,-,thrown⟩
    · cases after
      exact ⟨rfl,(installed_of_ends before).2⟩
    · cases (installed_of_ends thrown).1
  | asking next => exact computes _ _ fun w r last ends => installing _ w r last ends
  | _ => exact installing.elim

end Host

/-- An engine that has no memory left for its globals. -/
def exhausted : World := { (default : World) with memoryLimit := some 1 }

/-- A computation comes to a value without a question. -/
def isValue {α : Type} : Engine.Tree α → Bool
  | .ok _ _ => true
  | _ => false

/-- The first job of a generation is not an ordinary one. -/
theorem initialJob_not_ordinary : ¬(Host.initialJob : Work τ).Ordinary := by
  have plain : isValue (installGlobals exhausted) = true := by decide +kernel
  intro ordinary
  cases ordinary with
  | engine each =>
    cases comes : installGlobals exhausted with
    | ok a back =>
      have before : (installGlobals exhausted).Ends [] (.ok a) back := by
        rw [comes]
        exact .ok
      have hooks := each exhausted [] .hooks back (Tree.ends_bind.mpr (.inl ⟨[],[],a,back,rfl,before,.ok⟩))
      cases hooks
    | thrown t back =>
      rw [comes] at plain
      cases plain
    | ask q back next =>
      rw [comes] at plain
      cases plain

end

end ScriptHost
