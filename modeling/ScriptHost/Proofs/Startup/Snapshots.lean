import ScriptHost.Proofs.Startup.Hooks
/-!
What the first job of a generation reads as the hooks: all that were registered by then, those of earlier generations among
them, and none of its own. And what comes next: after a hook the next one, and after the last hook the next job, whatever
they came to.
-/
namespace ScriptHost
open Engine (Machine World Installed)

namespace Startup

section
variable {τ : Type} {p q : Startup τ} {capacity g : Nat}

/-! ### What the hooks were read as -/

/-- The hooks were read by this job of a generation when these registrations had been made. -/
structure Saw (p : Startup τ) (g n : Nat) (seen : List (Registration τ)) : Prop where
  opened : g ≤ p.system.scheduler.generation
  /-- The job had registered none of them itself. -/
  others : ∀ r ∈ seen, r.inside ≠ some (g,n)
  /-- No job of an earlier generation has registered one since. -/
  later : ∃ newer, p.registrations = newer ++ seen ∧ ∀ r ∈ newer, ∀ i k, r.inside = some (i,k) → g ≤ i

/-- When hooks were registered, and when they were read. -/
structure Dated (p : Startup τ) : Prop where
  authors : ∀ r ∈ p.registrations, ∀ g n, r.inside = some (g,n) → ∃ x ∈ p.executions g, x.serial = n
  /-- The first job of a generation registers nothing before it has read the hooks. -/
  untouched : ∀ g, ∀ x ∈ p.executions g, x.job = Host.initialJob → (∀ seen, .read seen (arranged seen) ∉ x.trace) →
    ∀ r ∈ p.registrations, r.inside ≠ some (g,x.serial)
  reads : ∀ g, ∀ x ∈ p.executions g, ∀ seen hooks, .read seen hooks ∈ x.trace → Saw p g x.serial seen

/-- What was read is known for good. -/
theorem Saw.step {n : Nat} {seen : List (Registration τ)} (saw : Saw p g n seen) (new : List (Registration τ))
    (generation : p.system.scheduler.generation ≤ q.system.scheduler.generation)
    (registrations : q.registrations = new ++ p.registrations)
    (newest : ∀ r ∈ new, ∀ i k, r.inside = some (i,k) → i = p.system.scheduler.generation) : Saw q g n seen := by
  obtain ⟨newer,split,later⟩ := saw.later
  refine ⟨Nat.le_trans saw.opened generation,saw.others,new ++ newer,?_,fun r member i k inside => ?_⟩
  · rw [registrations,split,List.append_assoc]
  · rcases List.mem_append.mp member with last | before
    · exact newest r last i k inside ▸ saw.opened
    · exact later r before i k inside

theorem Dated.system {a : Action (Work τ)} (dated : Dated p) (fair : Fair capacity p) (after : Fair capacity q)
    (taken : p.act (.system a) = some q) : Dated q := by
  obtain ⟨goesOn,system,acted,rfl⟩ := act_system taken
  have step := System.step_of_act acted
  have generation := System.generation_step (System.orderly_of_reachable fair.reached)
    (System.orderly_of_reachable after.reached) step
  have grows (g : Nat) : ∀ x ∈ (p.begin system).executions g, x ∈ p.executions g ∨
      x.trace = [] ∧ (p.begin system).executions g = x :: p.executions g := by
    intro x member
    rcases System.begins_step (System.sound_of_reachable fair.reached) step goesOn g with ⟨e,j,-,begins,-⟩ | ⟨-,still⟩
    · rw [executions_begin begins] at member ⊢
      rcases List.mem_cons.mp member with rfl | before
      · exact .inr ⟨rfl,rfl⟩
      · exact .inl before
    · rw [executions_begin_of_none still] at member
      exact .inl member
  refine ⟨fun r member g n inside => ?_,fun g x member first unread r listed inside => ?_,
    fun g x member seen hooks read => ?_⟩
  · obtain ⟨x,member,serial⟩ := dated.authors r member g n inside
    exact ⟨x,List.mem_append_right _ member,serial⟩
  · rcases grows g x member with before | ⟨-,line⟩
    · exact dated.untouched g x before first unread r listed inside
    · obtain ⟨y,before,serial⟩ := dated.authors r listed g x.serial inside
      have apart := after.apart g
      rw [line,List.map_cons,List.nodup_cons] at apart
      exact apart.1 (serial ▸ List.mem_map_of_mem before)
  · rcases grows g x member with before | ⟨blank,-⟩
    · exact (dated.reads g x before seen hooks read).step [] generation rfl (fun r member => nomatch member)
    · rw [blank] at read
      cases read

theorem Dated.register {h : Host τ} {before : Bool} {hook : Work τ} (dated : Dated p)
    (taken : p.act (.register h before hook) = some q) : Dated q := by
  cases taken
  refine ⟨List.forall_mem_cons.mpr ⟨nofun,dated.authors⟩,fun g x member first unread =>
    List.forall_mem_cons.mpr ⟨nofun,dated.untouched g x member first unread⟩,fun g x member seen hooks read => ?_⟩
  have saw := dated.reads g x member seen hooks read
  exact saw.step [⟨before,hook,none⟩] (Nat.le_refl _) rfl (List.forall_mem_singleton.mpr nofun)

/-- The hooks are read where a job comes to them. -/
theorem read_of_notes {w : World} {seen seen' : List (Registration τ)} {hooks hooks' : List (Work τ)} {a : Activity τ}
    {advance : Host.Advance τ} (read : .read seen hooks ∈ notes w (closes? seen' hooks' a) advance) :
    a.stage = .doing .hooks ∧ seen = seen' := by
  have closed : closes? seen' hooks' a = some (.read seen hooks) := by
    unfold notes at read
    split at read
    · rcases List.mem_append.mp read with closed | last
      · exact Option.mem_toList.mp closed
      · cases List.mem_singleton.mp last
    · cases List.mem_singleton.mp read
    · split at read
      · next note closed =>
        rcases List.mem_cons.mp read with rfl | last
        · exact closed
        · cases List.mem_singleton.mp last
      · cases read
    · cases read
    · cases read
  unfold closes? at closed
  split at closed
  · cases closed
    exact ⟨rfl,rfl⟩
  · obtain ⟨e,-,same⟩ := Option.map_eq_some_iff.mp closed
    cases same
  · cases closed

/-- The job that comes to the hooks is the first one of its generation, and has not read them before. -/
theorem Follows.reads {j : Work τ} {a : Activity τ} {trace : List (Note τ)} (follows : Follows j (some a) trace)
    (here : a.stage = .doing .hooks) : j = Host.initialJob ∧ ∀ seen hooks, .read seen hooks ∉ trace := by
  cases follows with
  | plain job ordinary =>
    cases here
    cases (ordinary : Job.Ordinary _)
  | installs installing =>
    cases here
    cases (installing : Job.hooks = Host.initialJob)
  | ready installed => exact ⟨rfl,fun seen hooks read => by cases List.mem_singleton.mp read⟩
  | runs installed order ordinary others =>
    cases here
    cases (ordinary : Job.Ordinary _)

theorem Dated.step {h : Host τ} {m : Machine} (dated : Dated p) (fair : Fair capacity p)
    (taken : p.act (.step g h m) = some q) : Dated q := by
  obtain ⟨n,x,earlier,system,runs,line,rfl,ended⟩ := act_step taken
  obtain ⟨-,scheduler,-⟩ := system_of_step fair ended
  obtain ⟨serial,follows,-⟩ := fair.newest runs line
  generalize { h with hooks := p.hooks }.stepActivity m x.activity = r
  have here : x ∈ p.executions g := line ▸ List.mem_cons_self
  -- Only the newest generation has a worker that runs a job, so whoever registers a hook now is of no earlier one.
  have newest : g = p.system.scheduler.generation := by
    refine Classical.byContradiction fun other => ?_
    cases runs.symm.trans ((System.sound_of_reachable fair.reached).idle other)
  have registered : ∀ entry ∈ (registered? (g,n) x.activity.stage).toList,
      entry.inside = some (g,n) ∧ x.activity.stage.registers? = some (entry.before,entry.hook) := by
    intro entry member
    obtain ⟨⟨before,hook⟩,registers,rfl⟩ := Option.map_eq_some_iff.mp (Option.mem_toList.mp member)
    exact ⟨rfl,registers⟩
  have stays {k l : Nat} {seen : List (Registration τ)} (saw : Saw p k l seen) :
      Saw (p.after g n x earlier r system) k l seen := by
    refine saw.step _ (Nat.le_of_eq (congrArg Scheduler.generation scheduler.symm)) rfl fun entry member i j inside => ?_
    cases inside.symm.trans (registered entry member).1
    exact newest
  refine ⟨fun entry member k l inside => ?_,fun k z member first unread entry listed inside => ?_,
    fun k z member seen hooks read => ?_⟩
  · rcases List.mem_append.mp member with new | before
    · cases inside.symm.trans (registered entry new).1
      obtain ⟨z,member,same⟩ := exists_mem_after n r system line here
      exact ⟨z,member,same.trans serial⟩
    · obtain ⟨y,member,same⟩ := dated.authors entry before k l inside
      obtain ⟨z,member,same'⟩ := exists_mem_after n r system line member
      exact ⟨z,member,same'.trans same⟩
  · rcases fair.mem_after runs line member with ⟨rfl,same,job,trace⟩ | ⟨before,other⟩
    · have unread : ∀ seen, .read seen (arranged seen) ∉ x.trace := fun seen read =>
        unread seen (trace ▸ List.mem_append_left _ read)
      rcases List.mem_append.mp listed with new | old
      · obtain ⟨seen,read⟩ := (follows.registers (registered entry new).2).2 (job.symm.trans first)
        exact unread seen read
      · refine dated.untouched k x here (job.symm.trans first) unread entry old ?_
        rw [inside,same,serial]
    · rcases List.mem_append.mp listed with new | old
      · exact other (Option.some.inj (inside.symm.trans (registered entry new).1))
      · exact dated.untouched k z before first unread entry old inside
  · rcases fair.mem_after runs line member with ⟨rfl,same,job,trace⟩ | ⟨before,-⟩
    · rw [same]
      rcases List.mem_append.mp (trace ▸ read) with old | new
      · exact stays (serial ▸ dated.reads k x here seen hooks old)
      · obtain ⟨stage,rfl⟩ := read_of_notes new
        obtain ⟨first,unread⟩ := follows.reads stage
        refine stays ⟨Nat.le_of_eq newest,?_,[],rfl,fun entry member => nomatch member⟩
        exact serial ▸ dated.untouched k x here first fun seen => unread seen _
    · exact stays (dated.reads k z before seen hooks read)

/-- How far the execution of a first job is, by its trace: the globals are installed, the hooks are read, and all hooks that
    were read run one after another, each once, in order, whatever comes of them. -/
inductive Traced : List (Note τ) → Prop where
  | begun : Traced []
  | ready {last : World} (installed : Installed last) : Traced [.installed (Host.returned last)]
  | running {last : World} {seen : List (Registration τ)} {done : List (Work τ × Ending)} {hook : Work τ}
    {left : List (Work τ)} (installed : Installed last) (order : arranged seen = done.map (·.1) ++ hook :: left) :
    Traced (opening last seen ++ played done ++ [.started hook])
  | finished {last : World} {seen : List (Registration τ)} {done : List (Work τ × Ending)} (installed : Installed last)
    (order : arranged seen = done.map (·.1)) : Traced (opening last seen ++ played done ++ [.done false])

/-- All hooks that were read have run. -/
def Complete (trace : List (Note τ)) : Prop :=
  ∃ last seen done, Installed last ∧ arranged seen = done.map (·.1) ∧
    trace = opening last seen ++ played done ++ [.done false]

theorem Follows.traced {j : Work τ} {a : Option (Activity τ)} {trace : List (Note τ)} (follows : Follows j a trace)
    (first : j = Host.initialJob) : Traced trace ∧ (a = none → Complete trace) := by
  cases follows with
  | plain job ordinary => exact (initialJob_not_ordinary (first ▸ job)).elim
  | gone job panicked => exact (initialJob_not_ordinary (first ▸ job)).elim
  | installs installing => exact ⟨.begun,nofun⟩
  | ready installed => exact ⟨.ready installed,nofun⟩
  | runs installed order ordinary others => exact ⟨.running installed order,nofun⟩
  | finished installed order => exact ⟨.finished installed order,fun _ => ⟨_,_,_,installed,order,rfl⟩⟩

/-- After this note and with these hooks left, an execution goes on with the next one, or the job has come to its end and did
    not panic. -/
def GoesOn (left : List (Work τ)) (note : Note τ) (x y : Execution τ) (w : Worker (Work τ) (Option (Call (Work τ)))) : Prop :=
  match left with
  | [] => y.trace = x.trace ++ [note,.done false] ∧ w = .ran false
  | hook :: left => y.trace = x.trace ++ [note,.started hook] ∧ y.activity = ⟨.doing hook,some left⟩

section
variable {n : Nat} {x : Execution τ} {earlier : List (Execution τ)}

/-- Where a step is the end of what came before the hooks that are left, the first of these is started. -/
theorem goesOn_of_finish {h : Host τ} {m : Machine} {left : List (Work τ)} {note : Note τ} {panicked : Bool}
    (place : p.system.workers g = .runs n none) (line : p.executions g = x :: earlier)
    (advance : ({ h with hooks := p.hooks }.stepActivity m x.activity).1 = Host.finish (some left) panicked)
    (closed : closes? p.registrations p.hooks x.activity = some note) (ordinary : ∀ j ∈ left, j.Ordinary) :
    ∃ q y, p.act (.step g h m) = some q ∧ q.executions g = y :: earlier ∧ GoesOn left note x y (q.system.workers g) := by
  have runs : (p.system.workers g).running? = some n := by rw [place]; rfl
  cases left with
  | nil =>
    have ended : ({ h with hooks := p.hooks }.stepActivity m x.activity).1 = .ended false := advance
    let system := { p.system with workers := Function.update p.system.workers g (.ran false) }
    have acted : p.system.act Host.initialJob (.finish g false) = some system := by simp [System.act,place,system]
    refine ⟨p.after g n x earlier ({ h with hooks := p.hooks }.stepActivity m x.activity) system,_,?_,
      Function.update_self ..,?_,Function.update_self ..⟩
    · simp only [act,runs,line,ended,acted]
      rfl
    · rw [ended,closed]
      rfl
  | cons hook left =>
    have goes : ({ h with hooks := p.hooks }.stepActivity m x.activity).1 = .goes ⟨.doing hook,some left⟩ := advance
    refine ⟨p.after g n x earlier ({ h with hooks := p.hooks }.stepActivity m x.activity) p.system,_,?_,
      Function.update_self ..,?_,?_⟩
    · simp only [act,runs,line,goes]
    · rw [goes,closed,notes_started _ (ordinary hook List.mem_cons_self)]
    · rw [goes]
      rfl

/-- Where the hooks are read, all that are registered are, and the first one is started. -/
theorem Fair.opens (fair : Fair capacity p) (place : p.system.workers g = .runs n none) (line : p.executions g = x :: earlier)
    (here : x.activity.stage = .doing .hooks) (h : Host τ) (m : Machine) :
    ∃ q y, p.act (.step g h m) = some q ∧ q.executions g = y :: earlier ∧
      GoesOn p.hooks (.read p.registrations p.hooks) x y (q.system.workers g) := by
  obtain ⟨serial,job,⟨stage,left⟩,trace⟩ := x
  cases here
  have advance : ({ h with hooks := p.hooks }.stepActivity m ⟨.doing .hooks,left⟩).1 = Host.finish (some p.hooks) false := rfl
  refine goesOn_of_finish place line advance rfl fun j member => ?_
  obtain ⟨r,listed,rfl⟩ := mem_arranged (fair.hooks ▸ member)
  exact fair.known r listed

/-- Whatever a hook ends with, the next step starts the next hook, or is the end of the execution. -/
theorem Fair.next {left : List (Work τ)} {e : Ending} (fair : Fair capacity p) (place : p.system.workers g = .runs n none)
    (line : p.executions g = x :: earlier) (hooks : x.activity.hooks = some left) (ends : x.activity.stage.ending? = some e)
    (h : Host τ) (m : Machine) :
    ∃ q y, p.act (.step g h m) = some q ∧ q.executions g = y :: earlier ∧
      GoesOn left (.ended e) x y (q.system.workers g) := by
  have runs : (p.system.workers g).running? = some n := by rw [place]; rfl
  obtain ⟨-,follows,-⟩ := fair.newest runs line
  have advance := { h with hooks := p.hooks }.advance_of_ending m (some left) ends
  obtain ⟨serial,job,⟨stage,left'⟩,trace⟩ := x
  cases hooks
  have others : stage.Ordinary ∧ ∀ j ∈ left, j.Ordinary := by
    cases follows with
    | runs installed order ordinary others => exact ⟨ordinary,others⟩
  have closed : closes? p.registrations p.hooks ⟨stage,some left⟩ = stage.ending?.map .ended :=
    closes_of_ordinary others.1 (some left)
  rw [ends] at closed
  exact goesOn_of_finish place line advance closed others.2

end

/-- An execution that no worker is at is over. -/
theorem Fair.follows {x : Execution τ} (fair : Fair capacity p) (member : x ∈ p.executions g) :
    (∃ a, Follows x.job a x.trace) ∧
      ((p.system.workers g).running? ≠ some x.serial → Follows x.job none x.trace) := by
  have lined := fair.lined g
  cases runs : (p.system.workers g).running? with
  | none =>
    rw [runs] at lined
    exact ⟨⟨none,lined x member⟩,fun _ => lined x member⟩
  | some n =>
    rw [runs] at lined
    obtain ⟨y,earlier,line,serial,follows,past⟩ := lined
    rcases List.mem_cons.mp (line ▸ member) with rfl | before
    · exact ⟨⟨_,follows⟩,fun other => absurd (congrArg some serial.symm) other⟩
    · exact ⟨⟨none,past x before⟩,fun _ => past x before⟩

theorem Fair.once (fair : Fair capacity p) (g : Nat) :
    (p.executions g).Pairwise fun x y => ¬(x.job = Host.initialJob ∧ y.job = Host.initialJob) := by
  have orderly := System.orderly_of_reachable fair.reached
  have submitted (x : Execution τ) (member : x ∈ p.executions g) (first : x.job = Host.initialJob) :
      ∃ h e, .submitted h e ∈ p.system.history ∧ e.serial = x.serial ∧ e.task = .job Host.initialJob ∧ e.generation = g := by
    obtain ⟨e,began,serial,task⟩ := fair.begun g x member
    obtain ⟨own,submitted⟩ := System.submitted_of_began orderly began task
    exact ⟨_,e,submitted,serial,first ▸ task,own⟩
  refine (List.pairwise_map.mp (fair.apart g)).imp_of_mem fun {x y} inX inY apart ⟨firstX,firstY⟩ => apart ?_
  obtain ⟨h,e,submitted₁,serial₁,task₁,own₁⟩ := submitted x inX firstX
  obtain ⟨h',f,submitted₂,serial₂,task₂,own₂⟩ := submitted y inY firstY
  have same := fair.firsts.single h e submitted₁ task₁ h' f submitted₂ task₂ (own₁.trans own₂.symm)
  rw [← serial₁,← serial₂,same]

/-- A note in brief. -/
inductive Kind where
  | installed
  | read (registrations : Nat)
  | started
  | returned (failed : Bool)
  | panicked
  | done (panicked : Bool)
  deriving DecidableEq

def Note.kind : Note τ → Kind
  | .installed _ => .installed
  | .read seen _ => .read seen.length
  | .started _ => .started
  | .ended (.returned (.ok ())) => .returned false
  | .ended (.returned (.error _)) => .returned true
  | .ended (.panicked _) => .panicked
  | .done panicked => .done panicked

/-- A host that was never started, without files. -/
def idle : Host Unit := .new default .none ()

/-- A thread starts the scheduler. -/
def starting : List (Turn Unit) :=
  [.system (.start (.thread 0))] ++ List.replicate 8 (.system (.go (.thread 0) (.ok ()) 0)) ++ [.system (.return (.thread 0))]

theorem Reachable.run {turns : List (Turn τ)} (reached : Reachable capacity p) (plain : ∀ t ∈ turns, t.Plain)
    (ran : p.run turns = some q) : Reachable capacity q := by
  induction turns generalizing p with
  | nil =>
    cases ran
    exact reached
  | cons t rest ih =>
    obtain ⟨first,plain⟩ := List.forall_mem_cons.mp plain
    obtain ⟨between,taken,ran⟩ := Option.bind_eq_some_iff.mp ran
    exact ih (.act t first reached taken) plain ran

end

end Startup

end ScriptHost
