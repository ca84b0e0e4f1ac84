import ScriptHost.Proofs.Startup.Firsts
import ScriptHost.Proofs.Startup.Running
/-!
The hooks over all generations. Hooks are registered at any time, by any thread and by jobs, before the others or behind
them, and generations are started and stopped meanwhile. The first job of a generation installs the globals, reads the list
of hooks once, and runs what it has read one after another, whatever comes of each. Every execution of a job keeps a trace
of this.
-/
namespace ScriptHost
open Engine (Machine World Installed)

namespace Startup

/-- A hook that was registered. -/
structure Registration (τ : Type) where
  /-- It runs before those that were registered earlier. -/
  before : Bool
  hook : Work τ
  /-- The generation and the number of the job that registered it, if a job did. -/
  inside : Option (Nat × Nat) := none

/-- The order in which hooks run that were registered, with the newest registration first in the list: those that were to
    run before the others, the newest first, and then the others, the oldest first. -/
def arranged {τ : Type} (registrations : List (Registration τ)) : List (Work τ) :=
  (registrations.filter (·.before)).map (·.hook) ++ ((registrations.filter (!·.before)).map (·.hook)).reverse

/-- What an execution has come to. -/
inductive Note (τ : Type) where
  /-- The engine was given its globals. -/
  | installed (w : World)
  /-- The hooks were read; what had been registered by then, newest first, and the list of hooks as it was. -/
  | read (seen : List (Registration τ)) (hooks : List (Work τ))
  | started (hook : Work τ)
  /-- The hook that was started last came to its end. -/
  | ended (e : Ending)
  | done (panicked : Bool)

/-- A job that a worker has begun with. -/
structure Execution (τ : Type) where
  serial : Nat
  job : Work τ
  /-- How far it is, or what its last step was taken from. -/
  activity : Activity τ
  /-- Oldest first. -/
  trace : List (Note τ) := []

section
variable {τ : Type}

/-- What the next step is the end of: of a hook, or of the time before the hooks are read. -/
def closes? (seen : List (Registration τ)) (hooks : List (Work τ)) : Activity τ → Option (Note τ)
  | ⟨.doing .hooks,_⟩ => some (.read seen hooks)
  | ⟨stage,some _⟩ => stage.ending?.map .ended
  | _ => none

/-- What a step is noted as that has led so far, with the engine in a world. -/
def notes (w : World) (closed : Option (Note τ)) : Host.Advance τ → List (Note τ)
  | .ended panicked => closed.toList ++ [.done panicked]
  | .goes ⟨.doing .hooks,_⟩ => [.installed w]
  | .goes ⟨.doing j,_⟩ =>
    match closed with
    | some note => [note,.started j]
    | none => []
  | .goes _ | .waits _ => []

/-- How far a job is after a step, unless it has come to its end. -/
def Advance.activity? : Host.Advance τ → Option (Activity τ)
  | .goes a | .waits a => some a
  | .ended _ => none

/-- A hook that is registered inside of a job. -/
def registered? (inside : Nat × Nat) (stage : Stage τ) : Option (Registration τ) :=
  stage.registers?.map fun (before,hook) => ⟨before,hook,some inside⟩

end

end Startup

/-- A scheduler with its threads, the hooks, and what its workers have run. -/
structure Startup (τ : Type) where
  system : System (Work τ)
  hooks : List (Work τ) := []
  /-- Newest first. -/
  registrations : List (Startup.Registration τ) := []
  /-- The executions of every generation, newest first. -/
  executions : Nat → List (Startup.Execution τ) := fun _ => []

namespace Startup

/-- What happens next. -/
inductive Turn (τ : Type) where
  /-- A step of any thread, except that a job comes to its end. -/
  | system (a : Action (Work τ))
  /-- A hook is registered from outside, at a host that is like this otherwise. -/
  | register (h : Host τ) (before : Bool) (hook : Work τ)
  /-- The job of a generation's worker takes a step, with the host and the engine like this otherwise. -/
  | step (g : Nat) (h : Host τ) (m : Machine)

variable {τ : Type}

/-- The jobs that are handed in and registered are ordinary ones. -/
def Turn.Plain : Turn τ → Prop
  | .system (.submit _ _ j) => j.Ordinary
  | .register _ _ hook => hook.Ordinary
  | _ => True

/-- A scheduler that was never started, and no hooks. -/
def init (capacity : Nat) : Startup τ := { system := .init capacity }

/-- The workers of a system begin with what they begin with in a step. -/
def begin (p : Startup τ) (system : System (Work τ)) : Startup τ :=
  { p with
    system
    executions := fun g =>
      (((p.system.workers g).begun? (system.workers g)).map fun (n,j) => ⟨n,j,Host.beginJob j,[]⟩).toList ++ p.executions g }

/-- The job of a worker has taken a step: what came of it, from a host and an engine. -/
def after (p : Startup τ) (g n : Nat) (x : Execution τ) (earlier : List (Execution τ))
    (r : Host.Advance τ × Host τ × Machine) (system : System (Work τ)) : Startup τ :=
  { system
    hooks := r.2.1.hooks
    registrations := (registered? (g,n) x.activity.stage).toList ++ p.registrations
    executions := Function.update p.executions g ({ x with
      activity := (Advance.activity? r.1).getD x.activity
      trace := x.trace ++ notes r.2.2.world (closes? p.registrations p.hooks x.activity) r.1 } :: earlier) }

/-- What comes of a turn, if it can be taken. -/
def act (p : Startup τ) : Turn τ → Option (Startup τ)
  | .system (.finish _ _) => none
  | .system a => (p.system.act Host.initialJob a).map p.begin
  | .register h before hook => some { p with
      hooks := ({ h with hooks := p.hooks }.addHook before hook).hooks
      registrations := ⟨before,hook,none⟩ :: p.registrations }
  | .step g h m =>
    match (p.system.workers g).running?, p.executions g with
    | some n, x :: earlier =>
      let r := { h with hooks := p.hooks }.stepActivity m x.activity
      match r.1 with
      | .ended panicked => (p.system.act Host.initialJob (.finish g panicked)).map (p.after g n x earlier r)
      | _ => some (p.after g n x earlier r p.system)
    | _, _ => none

/-- What comes of turns one after another. -/
def run (p : Startup τ) : List (Turn τ) → Option (Startup τ)
  | [] => some p
  | t :: rest => (p.act t).bind fun q => q.run rest

/-- What some interleaving leads to. -/
inductive Reachable (capacity : Nat) : Startup τ → Prop where
  | init : Reachable capacity (init capacity)
  | act {p q : Startup τ} (t : Turn τ) (plain : t.Plain) (reached : Reachable capacity p) (taken : p.act t = some q) :
    Reachable capacity q

/-! ### The order of the hooks -/

theorem arranged_cons (h : Host τ) {registrations : List (Registration τ)} (same : h.hooks = arranged registrations)
    (r : Registration τ) : (h.addHook r.before r.hook).hooks = arranged (r :: registrations) := by
  obtain ⟨before,hook,inside⟩ := r
  unfold Host.addHook arranged
  cases before <;> simp [same,arranged]

theorem mem_arranged {registrations : List (Registration τ)} {j : Work τ} (member : j ∈ arranged registrations) :
    ∃ r ∈ registrations, r.hook = j := by
  unfold arranged at member
  simp only [List.mem_append,List.mem_reverse,List.mem_map,List.mem_filter] at member
  rcases member with ⟨r,⟨listed,-⟩,same⟩ | ⟨r,⟨listed,-⟩,same⟩ <;> exact ⟨r,listed,same⟩

/-! ### The course of an execution -/

/-- The trace of a first job up to the hooks. -/
def opening (last : World) (seen : List (Registration τ)) : List (Note τ) :=
  [.installed (Host.returned last),.read seen (arranged seen)]

/-- The trace of hooks that have run one after another. -/
def played (done : List (Work τ × Ending)) : List (Note τ) := done.flatMap fun (hook,e) => [.started hook,.ended e]

/-- How far an execution is, by its job and its trace; what it is at, if it is not over. -/
inductive Follows : Work τ → Option (Activity τ) → List (Note τ) → Prop where
  | plain {j : Work τ} {stage : Stage τ} (job : j.Ordinary) (ordinary : stage.Ordinary) : Follows j (some ⟨stage,none⟩) []
  | gone {j : Work τ} (job : j.Ordinary) (panicked : Bool) : Follows j none [.done panicked]
  | installs {stage : Stage τ} (installing : stage.Installing) : Follows Host.initialJob (some ⟨stage,none⟩) []
  | ready {last : World} (installed : Installed last) :
    Follows Host.initialJob (some ⟨.doing .hooks,none⟩) [.installed (Host.returned last)]
  | runs {last : World} {seen : List (Registration τ)} {done : List (Work τ × Ending)} {hook : Work τ} {left : List (Work τ)}
    {stage : Stage τ} (installed : Installed last) (order : arranged seen = done.map (·.1) ++ hook :: left)
    (ordinary : stage.Ordinary) (others : ∀ j ∈ left, j.Ordinary) :
    Follows Host.initialJob (some ⟨stage,some left⟩) (opening last seen ++ played done ++ [.started hook])
  | finished {last : World} {seen : List (Registration τ)} {done : List (Work τ × Ending)} (installed : Installed last)
    (order : arranged seen = done.map (·.1)) :
    Follows Host.initialJob none (opening last seen ++ played done ++ [.done false])

theorem played_concat (done : List (Work τ × Ending)) (hook : Work τ) (e : Ending) :
    played (done ++ [(hook,e)]) = played done ++ [.started hook,.ended e] := by
  simp [played]

theorem closes_of_ordinary {seen : List (Registration τ)} {hooks : List (Work τ)} {stage : Stage τ} (ordinary : stage.Ordinary)
    (left : Option (List (Work τ))) :
    closes? seen hooks ⟨stage,left⟩ = if left.isSome then stage.ending?.map .ended else none := by
  have other : stage ≠ .doing .hooks := by
    rintro rfl
    cases (ordinary : Job.Ordinary _)
  cases left <;> simp [closes?,other]

theorem notes_of_ordinary (w : World) {s : Stage τ} (ordinary : s.Ordinary) (left : Option (List (Work τ))) :
    notes w none (.goes ⟨s,left⟩) = [] := by
  cases s with
  | doing j =>
    cases j with
    | hooks => cases (ordinary : Job.Ordinary _)
    | _ => rfl
  | _ => rfl

theorem notes_started (w : World) {j : Work τ} (ordinary : j.Ordinary) (note : Note τ) (left : Option (List (Work τ))) :
    notes w (some note) (.goes ⟨.doing j,left⟩) = [note,.started j] := by
  cases j with
  | hooks => cases ordinary
  | _ => rfl

/-- A step in an ordinary job that has not come to its end is noted as nothing. -/
theorem step_of_ordinary (h : Host τ) (m : Machine) (seen : List (Registration τ)) {stage : Stage τ} (ordinary : stage.Ordinary)
    (goesOn : stage.ending? = none) (left : Option (List (Work τ))) : ∃ s : Stage τ, s.Ordinary ∧
      Advance.activity? (h.stepActivity m ⟨stage,left⟩).1 = some ⟨s,left⟩ ∧
      notes (h.stepActivity m ⟨stage,left⟩).2.2.world (closes? seen h.hooks ⟨stage,left⟩)
        (h.stepActivity m ⟨stage,left⟩).1 = [] := by
  have unclosed : closes? seen h.hooks ⟨stage,left⟩ = none := by
    rw [closes_of_ordinary ordinary,goesOn]
    cases left <;> rfl
  obtain ⟨s,ordinary',goes | waits⟩ := h.advance_of_ordinary m left ordinary goesOn
  · rw [goes,unclosed]
    exact ⟨s,ordinary',rfl,notes_of_ordinary _ ordinary' left⟩
  · rw [waits,unclosed]
    exact ⟨s,ordinary',rfl,rfl⟩

/-- Behind what has run, the first of the hooks that are left is started, or the execution is over. -/
theorem Follows.finish {last : World} {seen : List (Registration τ)} {done : List (Work τ × Ending)} {left : List (Work τ)}
    {trace : List (Note τ)} {note : Note τ} (installed : Installed last) (order : arranged seen = done.map (·.1) ++ left)
    (ordinary : ∀ j ∈ left, j.Ordinary) (closed : trace ++ [note] = opening last seen ++ played done) (panicked : Bool)
    (w : World) : Follows Host.initialJob (Advance.activity? (Host.finish (some left) panicked))
      (trace ++ notes w (some note) (Host.finish (some left) panicked)) := by
  cases left with
  | nil =>
    have finished : Follows Host.initialJob none (opening last seen ++ played done ++ [.done false]) :=
      .finished installed (order.trans (List.append_nil _))
    rw [← closed,List.append_assoc] at finished
    exact finished
  | cons hook left =>
    obtain ⟨first,others⟩ := List.forall_mem_cons.mp ordinary
    have runs : Follows Host.initialJob (some ⟨.doing hook,some left⟩) (opening last seen ++ played done ++ [.started hook]) :=
      .runs installed order first others
    rw [← closed,List.append_assoc] at runs
    show Follows _ _ (trace ++ notes w (some note) (.goes ⟨.doing hook,some left⟩))
    rw [notes_started w first]
    exact runs

/-- An execution goes on, whatever the host and the engine are like otherwise. -/
theorem Follows.step {h : Host τ} {m : Machine} {seen : List (Registration τ)} {j : Work τ} {a : Activity τ}
    {trace : List (Note τ)} (follows : Follows j (some a) trace) (same : h.hooks = arranged seen)
    (known : ∀ r ∈ seen, r.hook.Ordinary) :
    Follows j (Advance.activity? (h.stepActivity m a).1)
      (trace ++ notes (h.stepActivity m a).2.2.world (closes? seen h.hooks a) (h.stepActivity m a).1) := by
  -- Where an execution is over there is no next step, so `gone` and `finished` are no cases here.
  cases follows with
  | @plain j stage job ordinary =>
    cases ends : stage.ending? with
    | some e =>
      rw [closes_of_ordinary ordinary,h.advance_of_ending m none ends]
      exact .gone job e.isPanic
    | none =>
      obtain ⟨s,ordinary',next,silent⟩ := step_of_ordinary h m seen ordinary ends none
      rw [next,silent]
      exact .plain job ordinary'
  | @installs stage installing =>
    have before : closes? seen h.hooks ⟨stage,none⟩ = none := by
      cases stage with
      | doing j =>
        cases installing
        rfl
      | _ => rfl
    rw [before]
    rcases h.advance_of_installing m none installing with ⟨next,installing',goes⟩ | ⟨goes,last,installed,world⟩
    · rw [goes]
      exact .installs installing'
    · rw [goes,world]
      exact .ready installed
  | @ready last installed =>
    have reads : h.stepActivity m ⟨.doing .hooks,none⟩ = (Host.finish (some h.hooks) false,h,m) := rfl
    rw [reads,same]
    have order : arranged seen = ([] : List (Work τ × Ending)).map (·.1) ++ arranged seen := rfl
    refine Follows.finish installed order (fun j member => ?_) rfl false m.world
    obtain ⟨r,listed,rfl⟩ := mem_arranged member
    exact known r listed
  | @runs last seen' done hook left stage installed order ordinary others =>
    cases ends : stage.ending? with
    | some e =>
      have closed : closes? seen h.hooks ⟨stage,some left⟩ = some (.ended e) := by
        rw [closes_of_ordinary ordinary,ends]
        rfl
      rw [closed,h.advance_of_ending m (some left) ends]
      have all : arranged seen' = (done ++ [(hook,e)]).map (·.1) ++ left := by
        rw [order,List.map_append,List.append_assoc]
        rfl
      have longer : opening last seen' ++ played done ++ [.started hook] ++ [.ended e] =
          opening last seen' ++ played (done ++ [(hook,e)]) := by
        rw [played_concat]
        simp
      exact Follows.finish installed all others longer e.isPanic _
    | none =>
      obtain ⟨s,ordinary',next,silent⟩ := step_of_ordinary h m seen ordinary ends (some left)
      rw [next,silent,List.append_nil]
      exact .runs installed order ordinary' others

/-! ### Turns -/

section
variable {p q : Startup τ} {capacity g : Nat}

theorem act_system {a : Action (Work τ)} (taken : p.act (.system a) = some q) :
    (∀ g panicked, a ≠ .finish g panicked) ∧ ∃ system, p.system.act Host.initialJob a = some system ∧ p.begin system = q := by
  cases a with
  | finish g panicked => cases taken
  | _ => exact ⟨nofun,Option.map_eq_some_iff.mp taken⟩

theorem act_step {h : Host τ} {m : Machine} (taken : p.act (.step g h m) = some q) :
    ∃ n x earlier system, (p.system.workers g).running? = some n ∧ p.executions g = x :: earlier ∧
      p.after g n x earlier ({ h with hooks := p.hooks }.stepActivity m x.activity) system = q ∧
      ((∃ a, Advance.activity? ({ h with hooks := p.hooks }.stepActivity m x.activity).1 = some a) ∧ system = p.system ∨
        Advance.activity? ({ h with hooks := p.hooks }.stepActivity m x.activity).1 = none ∧
          ∃ panicked, p.system.act Host.initialJob (.finish g panicked) = some system) := by
  simp only [act] at taken
  split at taken
  · next n x earlier runs line =>
    split at taken
    · next panicked ended =>
      obtain ⟨system,acted,same⟩ := Option.map_eq_some_iff.mp taken
      exact ⟨n,x,earlier,system,runs,line,same,.inr ⟨by rw [ended]; rfl,panicked,acted⟩⟩
    · next goesOn =>
      refine ⟨n,x,earlier,p.system,runs,line,Option.some.inj taken,.inl ⟨?_,rfl⟩⟩
      cases advance : ({ h with hooks := p.hooks }.stepActivity m x.activity).1 with
      | goes a | waits a => exact ⟨a,rfl⟩
      | ended panicked => exact absurd advance (goesOn panicked)
  · cases taken

/-- The job that a worker runs is the newest one, and all others are over. -/
def Lined (running : Option Nat) (line : List (Execution τ)) : Prop :=
  match running with
  | none => ∀ x ∈ line, Follows x.job none x.trace
  | some n => ∃ x earlier, line = x :: earlier ∧ x.serial = n ∧ Follows x.job (some x.activity) x.trace ∧
    ∀ y ∈ earlier, Follows y.job none y.trace

/-- The executions are those of the jobs that workers have begun with, and the hooks are in order. -/
structure Fair (capacity : Nat) (p : Startup τ) : Prop where
  reached : p.system.Reachable Host.initialJob capacity
  firsts : System.Firsts Host.initialJob p.system
  jobs : ∀ h e j, .submitted h e ∈ p.system.history → e.task = .job j → j.Ordinary ∨ j = Host.initialJob
  hooks : p.hooks = arranged p.registrations
  known : ∀ r ∈ p.registrations, r.hook.Ordinary
  lined : ∀ g, Lined (p.system.workers g).running? (p.executions g)
  begun : ∀ g, ∀ x ∈ p.executions g, ∃ e, .began g e ∈ p.system.history ∧ e.serial = x.serial ∧ e.task = .job x.job
  apart : ∀ g, ((p.executions g).map (·.serial)).Nodup

theorem executions_begin {system : System (Work τ)} {n : Nat} {j : Work τ}
    (begins : (p.system.workers g).begun? (system.workers g) = some (n,j)) :
    (p.begin system).executions g = ⟨n,j,Host.beginJob j,[]⟩ :: p.executions g := by
  simp [begin,begins]

theorem executions_begin_of_none {system : System (Work τ)}
    (still : (p.system.workers g).begun? (system.workers g) = none) : (p.begin system).executions g = p.executions g := by
  simp [begin,still]

theorem Fair.system {a : Action (Work τ)} (fair : Fair capacity p) (plain : (Turn.system a).Plain)
    (taken : p.act (.system a) = some q) : Fair capacity q := by
  obtain ⟨goesOn,system,acted,rfl⟩ := act_system taken
  have step := System.step_of_act acted
  have reached := System.Reachable.act a fair.reached acted
  have orderly := System.orderly_of_reachable reached
  have later := System.generation_step (System.orderly_of_reachable fair.reached) orderly step
  obtain ⟨events,history⟩ := System.history_step step
  have kept : ∀ event ∈ p.system.history, event ∈ system.history := fun event member =>
    history ▸ List.mem_append_right events member
  have ordinary : ∀ who handle j, a = .submit who handle j → j.Ordinary := by
    rintro who handle j rfl
    exact plain
  have jobs : ∀ h e j, .submitted h e ∈ system.history → e.task = .job j → j.Ordinary ∨ j = Host.initialJob := by
    intro h e j member task
    rcases System.submitted_step step member with before | ⟨who,k,same,job⟩ | ⟨rfl,-⟩
    · exact fair.jobs h e j before task
    · cases task.symm.trans job
      exact .inl (ordinary who h j same)
    · exact .inr (Task.job.inj task).symm
  have cases_of (g : Nat) := System.begins_step (System.sound_of_reachable fair.reached) step goesOn g
  refine ⟨reached,fair.firsts.step later step fun who handle j same => ?_,jobs,fair.hooks,fair.known,
    fun g => ?_,fun g x member => ?_,fun g => ?_⟩
  · rintro rfl
    exact initialJob_not_ordinary (ordinary who handle _ same)
  · rcases cases_of g with ⟨e,j,task,begins,place,began⟩ | ⟨same,still⟩
    · have idle : (p.system.workers g).running? = none := by
        unfold Worker.begun? at begins
        split at begins
        · next before _ => rw [before]; rfl
        · cases begins
      have earlier := fair.lined g
      rw [idle] at earlier
      rw [executions_begin begins]
      show Lined (system.workers g).running? _
      rw [place]
      refine ⟨_,_,rfl,rfl,?_,earlier⟩
      have submitted := (System.submitted_of_began orderly (began ▸ List.mem_cons_self) task).2
      rcases jobs _ e j submitted task with job | rfl
      · exact .plain job job
      · exact .installs rfl
    · rw [executions_begin_of_none still]
      show Lined (system.workers g).running? _
      rw [same]
      exact fair.lined g
  · rcases cases_of g with ⟨e,j,task,begins,-,began⟩ | ⟨-,still⟩
    · rw [executions_begin begins] at member
      rcases List.mem_cons.mp member with rfl | before
      · exact ⟨e,began ▸ List.mem_cons_self,rfl,task⟩
      · obtain ⟨f,earlier,same⟩ := fair.begun g x before
        exact ⟨f,kept _ earlier,same⟩
    · rw [executions_begin_of_none still] at member
      obtain ⟨f,earlier,same⟩ := fair.begun g x member
      exact ⟨f,kept _ earlier,same⟩
  · rcases cases_of g with ⟨e,j,task,begins,-,began⟩ | ⟨-,still⟩
    · rw [executions_begin begins,List.map_cons,List.nodup_cons]
      refine ⟨fun again => ?_,fair.apart g⟩
      obtain ⟨x,before,same⟩ := List.mem_map.mp again
      obtain ⟨f,earlier,serial,-⟩ := fair.begun g x before
      exact System.fresh_of_began reached began earlier (serial.trans same)
    · rw [executions_begin_of_none still]
      exact fair.apart g

theorem Fair.register {h : Host τ} {before : Bool} {hook : Work τ} (fair : Fair capacity p) (ordinary : hook.Ordinary)
    (taken : p.act (.register h before hook) = some q) : Fair capacity q := by
  cases taken
  exact ⟨fair.reached,fair.firsts,fair.jobs,arranged_cons _ fair.hooks ⟨before,hook,none⟩,
    List.forall_mem_cons.mpr ⟨ordinary,fair.known⟩,fair.lined,fair.begun,fair.apart⟩

/-- Who registers a hook registers an ordinary one; the first job of a generation does so only in the hooks. -/
theorem Follows.registers {j : Work τ} {a : Activity τ} {trace : List (Note τ)} (follows : Follows j (some a) trace)
    {before : Bool} {hook : Work τ} (registers : a.stage.registers? = some (before,hook)) :
    hook.Ordinary ∧ (j = Host.initialJob → ∃ seen, .read seen (arranged seen) ∈ trace) := by
  have registered {stage : Stage τ} (ordinary : stage.Ordinary) (registers : stage.registers? = some (before,hook)) :
      hook.Ordinary := by
    unfold Stage.registers? at registers
    split at registers
    · cases registers
      cases (ordinary : Job.Ordinary _) with
      | addHook job rest => exact job
    · cases registers
  cases follows with
  | plain job ordinary => exact ⟨registered ordinary registers,fun same => (initialJob_not_ordinary (same ▸ job)).elim⟩
  | @installs stage installing =>
    cases stage with
    | doing j =>
      cases installing
      cases registers
    | _ => cases registers
  | ready installed => cases registers
  | @runs last seen done hook' left stage installed order ordinary others =>
    refine ⟨registered ordinary registers,fun _ => ⟨seen,?_⟩⟩
    simp [opening]

/-- What a step of a job does to the system: nothing, or the job has come to its end. -/
theorem system_of_step {system : System (Work τ)} {a : Option (Activity τ)} (fair : Fair capacity p)
    (ended : (∃ b, a = some b) ∧ system = p.system ∨
      a = none ∧ ∃ panicked, p.system.act Host.initialJob (.finish g panicked) = some system) :
    system.Reachable Host.initialJob capacity ∧ system.scheduler = p.system.scheduler ∧ system.history = p.system.history ∧
      (∀ k, k ≠ g → (system.workers k).running? = (p.system.workers k).running?) ∧
      (system.workers g).running? = if a.isSome then (p.system.workers g).running? else none := by
  rcases ended with ⟨⟨b,rfl⟩,rfl⟩ | ⟨rfl,panicked,acted⟩
  · exact ⟨fair.reached,rfl,rfl,fun _ _ => rfl,rfl⟩
  · have reached := System.Reachable.act _ fair.reached acted
    cases System.step_of_act acted with
    | finish place =>
      refine ⟨reached,rfl,rfl,fun k other => ?_,?_⟩
      · simp [Function.update_of_ne other]
      · simp [Worker.running?]

theorem executions_after {n : Nat} {x : Execution τ} {earlier : List (Execution τ)} {r : Host.Advance τ × Host τ × Machine}
    {system : System (Work τ)} {k : Nat} (other : k ≠ g) : (p.after g n x earlier r system).executions k = p.executions k :=
  Function.update_of_ne other _ _

/-- The newest execution of a worker that runs a job is that of the job. -/
theorem Fair.newest {n : Nat} {x : Execution τ} {earlier : List (Execution τ)} (fair : Fair capacity p)
    (runs : (p.system.workers g).running? = some n) (line : p.executions g = x :: earlier) :
    x.serial = n ∧ Follows x.job (some x.activity) x.trace ∧ ∀ y ∈ earlier, Follows y.job none y.trace := by
  have lined := fair.lined g
  rw [runs,line] at lined
  obtain ⟨y,rest,same,facts⟩ := lined
  cases same
  exact facts

/-- After a step, an execution is the one that has gone on, or it is as it was and of another number. -/
theorem Fair.mem_after {n k : Nat} {x z : Execution τ} {earlier : List (Execution τ)}
    {r : Host.Advance τ × Host τ × Machine} {system : System (Work τ)} (fair : Fair capacity p)
    (runs : (p.system.workers g).running? = some n) (line : p.executions g = x :: earlier)
    (member : z ∈ (p.after g n x earlier r system).executions k) :
    (k = g ∧ z.serial = n ∧ z.job = x.job ∧
      z.trace = x.trace ++ notes r.2.2.world (closes? p.registrations p.hooks x.activity) r.1) ∨
    z ∈ p.executions k ∧ (k,z.serial) ≠ (g,n) := by
  have serial := (fair.newest runs line).1
  by_cases own : k = g
  · subst own
    rw [show (p.after k n x earlier r system).executions k = _ from Function.update_self ..] at member
    rcases List.mem_cons.mp member with rfl | before
    · exact .inl ⟨rfl,serial,rfl,rfl⟩
    · refine .inr ⟨line ▸ List.mem_cons_of_mem _ before,fun same => ?_⟩
      have apart := fair.apart k
      rw [line,List.map_cons,List.nodup_cons] at apart
      have same : z.serial = x.serial := (congrArg Prod.snd same).trans serial.symm
      exact apart.1 (same ▸ List.mem_map_of_mem before)
  · rw [executions_after own] at member
    exact .inr ⟨member,fun same => own (congrArg Prod.fst same)⟩

/-- An execution keeps its number. -/
theorem exists_mem_after {k : Nat} {x y : Execution τ} {earlier : List (Execution τ)} (n : Nat)
    (r : Host.Advance τ × Host τ × Machine) (system : System (Work τ)) (line : p.executions g = x :: earlier)
    (member : y ∈ p.executions k) : ∃ z ∈ (p.after g n x earlier r system).executions k, z.serial = y.serial := by
  by_cases own : k = g
  · subst own
    rw [show (p.after k n x earlier r system).executions k = _ from Function.update_self ..]
    rw [line] at member
    rcases List.mem_cons.mp member with rfl | before
    · exact ⟨_,List.mem_cons_self,rfl⟩
    · exact ⟨y,List.mem_cons_of_mem _ before,rfl⟩
  · rw [executions_after own]
    exact ⟨y,member,rfl⟩

theorem Fair.step {h : Host τ} {m : Machine} (fair : Fair capacity p) (taken : p.act (.step g h m) = some q) :
    Fair capacity q := by
  obtain ⟨n,x,earlier,system,runs,line,rfl,ended⟩ := act_step taken
  obtain ⟨reached,scheduler,history,others,own⟩ := system_of_step fair ended
  obtain ⟨serial,follows,past⟩ := fair.newest runs line
  have same : { h with hooks := p.hooks }.hooks = arranged p.registrations := fair.hooks
  have next := follows.step same fair.known (m := m)
  have hooks := { h with hooks := p.hooks }.hooks_stepActivity m x.activity
  generalize { h with hooks := p.hooks }.stepActivity m x.activity = r at *
  have self : (p.after g n x earlier r system).executions g = { x with
      activity := (Advance.activity? r.1).getD x.activity
      trace := x.trace ++ notes r.2.2.world (closes? p.registrations p.hooks x.activity) r.1 } :: earlier :=
    Function.update_self ..
  have kept : ∀ event ∈ (p.after g n x earlier r system).system.history, event ∈ p.system.history :=
    fun event member => history ▸ member
  refine ⟨reached,⟨fun h e member task => ?_,fun h e member task h' f member' => ?_⟩,fun h e j member => ?_,?_,?_,
    fun k => ?_,fun k z member => ?_,fun k => ?_⟩
  · show e.generation ≤ system.scheduler.generation
    rw [scheduler]
    exact fair.firsts.opened h e (kept _ member) task
  · exact fair.firsts.single h e (kept _ member) task h' f (kept _ member')
  · exact fair.jobs h e j (kept _ member)
  · show r.2.1.hooks = arranged ((registered? (g,n) x.activity.stage).toList ++ p.registrations)
    rw [hooks]
    cases registers : x.activity.stage.registers? with
    | none => simpa [registered?,registers] using fair.hooks
    | some entry =>
      have one : registered? (g,n) x.activity.stage = some ⟨entry.1,entry.2,some (g,n)⟩ := by
        simp [registered?,registers]
      rw [one]
      exact arranged_cons { h with hooks := p.hooks } fair.hooks ⟨entry.1,entry.2,some (g,n)⟩
  · intro entry member
    rcases List.mem_append.mp member with new | before
    · obtain ⟨⟨before,hook⟩,registers,rfl⟩ := Option.map_eq_some_iff.mp (Option.mem_toList.mp new)
      exact (follows.registers registers).1
    · exact fair.known entry before
  · by_cases here : k = g
    · subst here
      rw [self]
      show Lined (system.workers k).running? _
      rw [own]
      cases advance : Advance.activity? r.1 with
      | none =>
        rw [advance] at next
        exact List.forall_mem_cons.mpr ⟨next,past⟩
      | some b =>
        rw [advance] at next
        rw [runs]
        exact ⟨_,earlier,rfl,serial,next,past⟩
    · rw [executions_after here]
      show Lined (system.workers k).running? _
      rw [others k here]
      exact fair.lined k
  · show ∃ e, .began k e ∈ system.history ∧ _
    rw [history]
    rcases fair.mem_after runs line member with ⟨rfl,number,job,-⟩ | ⟨before,-⟩
    · rw [number,job,← serial]
      exact fair.begun k x (line ▸ List.mem_cons_self)
    · exact fair.begun k z before
  · by_cases here : k = g
    · subst here
      rw [self]
      have apart := fair.apart k
      rw [line] at apart
      exact apart
    · rw [executions_after here]
      exact fair.apart k

end

end Startup

end ScriptHost
