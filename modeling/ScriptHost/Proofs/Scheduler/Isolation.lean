import ScriptHost.Proofs.Scheduler.History
/-!
Generations do not get into each other's way. Only the newest generation can be open, a worker begins only
with what was handed in for its own generation, nothing of a generation begins any more once a stop of it
has returned without a failure, and only a start that returns without a failure makes a new generation.
-/
namespace ScriptHost
namespace System
variable {J : Type}

/-- What is true of a system whatever its threads have done. An event comes before another one if it is
    further back in the history. -/
structure Isolated (first : J) (σ : System J) : Prop where
  newest : ∀ g, σ.scheduler.isOver g = false → g = σ.scheduler.generation
  running : σ.scheduler.locked = false →
    (σ.scheduler.running = true ↔ σ.scheduler.isOver σ.scheduler.generation = false)
  /-- A worker begins with stops of its own generation and with jobs from handles of its own generation. -/
  own : ∀ later earlier w e, σ.history = later ++ .began w e :: earlier →
    match e.task with
    | .stop => .ordered w e ∈ earlier
    | .job _ => .submitted w e ∈ earlier ∧ ∀ handle, .submitted handle e ∈ σ.history → handle = w
  /-- Once a generation is closed its worker takes nothing out of the queue. -/
  took : ∀ later earlier g e, σ.history = later ++ .closed g :: earlier → .took g e ∉ later
  /-- Once a stop has returned without a failure no envelope of its generation is begun with. -/
  stopped : ∀ later earlier g w e, σ.history = later ++ .stopped g (.ok ()) :: earlier →
    .began w e ∈ later → e.generation ≠ g
  grows : ∀ a τ, σ.act first a = some τ → σ.scheduler.generation ≤ τ.scheduler.generation
  succeeds : ∀ found left, .started (.ok ()) found left ∈ σ.history → left.generation = found.generation+1
  fails : ∀ f found left, .started (.error f) found left ∈ σ.history →
    left.running = found.running ∧ left.generation = found.generation ∧ left.signals = found.signals
  /-- There are as many generations as starts that returned without a failure. -/
  counts : σ.scheduler.locked = false → σ.history.countP Event.succeeds = σ.scheduler.generation

/-- What happened stays on record. -/
theorem history_step {first : J} {σ τ : System J} {a : Action J} (step : Step first σ a τ) :
    ∃ events, τ.history = events ++ σ.history := by
  cases step with
  | @submit who handle j free taken =>
    refine ⟨[.submitted handle (σ.scheduler.envelop handle (.job j)).1],?_⟩
    exact congrArg (_ :: ·) (history_setCall σ _ who)
  | @go who made choice c d t events called step =>
    exact ⟨events,congrArg (events ++ ·) (history_setCall σ _ who)⟩
  | @failToHandOver who e called =>
    exact ⟨[.refused e],congrArg (_ :: ·) (history_setCall σ _ who)⟩
  | @work g choice p t step => exact ⟨(σ.workers g).events g p,rfl⟩
  | handOver called free => exact ⟨[],by rw [history_setCall,history_setCall]; rfl⟩
  | start free | stop free | «return» called past => exact ⟨[],history_setCall σ _ _⟩
  | takeHandle free | finish place | settle place | interrupt free => exact ⟨[],rfl⟩

theorem generation_step {first : J} {σ τ : System J} {a : Action J} (before : Orderly σ) (after : Orderly τ)
    (step : Step first σ a τ) : σ.scheduler.generation ≤ τ.scheduler.generation := by
  rcases Nat.eq_zero_or_pos σ.scheduler.generation with none | some
  · omega
  · obtain ⟨events,same⟩ := history_step step
    have opened : .opened σ.scheduler.generation ∈ σ.history :=
      (before.recorded.opened _).mpr ⟨some,Nat.le_refl _⟩
    have kept : .opened σ.scheduler.generation ∈ τ.history := same ▸ List.mem_append_right events opened
    exact ((after.recorded.opened _).mp kept).2

theorem isolated_of_reachable {first : J} {capacity : Nat} {σ : System J}
    (reached : Reachable first capacity σ) : Isolated first σ := by
  have steady := (sound_of_reachable reached).steady
  have orderly := orderly_of_reachable reached
  have lawful := orderly.recorded.lawful
  constructor
  case newest => exact steady.newest
  case running => exact fun free => (steady.free free).1
  case own =>
    intro later earlier w e same
    obtain ⟨generation,-,sent⟩ := (same ▸ lawful).split.1
    subst generation
    cases task : e.task with
    | stop => simpa [Sent,task] using sent
    | job j =>
      refine ⟨by simpa [Sent,task] using sent,fun handle submitted => ?_⟩
      obtain ⟨-,-,-,handed,-⟩ := lawful.of_mem submitted
      exact handed.symm
  case took =>
    intro later earlier g e same took
    obtain ⟨before,allowed,closed⟩ := (same ▸ lawful).of_mem_later took
    exact allowed (closed _ List.mem_cons_self)
  case stopped =>
    intro later earlier g w e same began own
    have ended : .closed g ∈ earlier := (same ▸ lawful).split.1
    obtain ⟨before,⟨generation,live,-⟩,closed⟩ := (same ▸ lawful).of_mem_later began
    have worker : w = g := generation.symm.trans own
    exact live (worker ▸ closed _ (List.mem_cons_of_mem _ ended))
  case grows =>
    intro a τ taken
    exact generation_step orderly (orderly_of_reachable (.act a reached taken)) (step_of_act taken)
  case succeeds =>
    intro found left started
    obtain ⟨later,earlier,-,more⟩ := lawful.of_mem started
    exact more
  case fails =>
    intro f found left started
    obtain ⟨later,earlier,-,same⟩ := lawful.of_mem started
    exact same
  case counts => exact fun free => (steady.free free).2

/-- A thread starts the scheduler, another one submits a job, and a third one stops it. -/
def lifetime : List (Action Unit) :=
  List.flatten [
    [.start (.thread 0)],List.replicate 8 (.go (.thread 0) (.ok ()) 0),[.return (.thread 0),.takeHandle],
    List.replicate 6 (.work 1 0),[.finish 1 false,.work 1 0,.settle 1,.submit (.thread 1) 1 ()],
    List.replicate 3 (.go (.thread 1) (.ok ()) 0),List.replicate 6 (.work 1 0),
    [.finish 1 false,.work 1 0,.settle 1,.stop 2],List.replicate 3 (.go (.thread 2) (.ok ()) 0),
    List.replicate 9 (.work 1 0),[.settle 1,.work 1 0],List.replicate 3 (.go (.thread 2) (.ok ()) 0)]

theorem isolated_after_lifetime : ∃ σ : System Unit, (init 2).run () lifetime = some σ ∧
    .stopped 1 (.ok ()) ∈ σ.history ∧ Isolated () σ := by
  have latest : ((init 2).run () lifetime).map (·.history.head?) = some (some (.stopped 1 (.ok ()))) := rfl
  obtain ⟨σ,ran,head⟩ := Option.map_eq_some_iff.mp latest
  exact ⟨σ,ran,List.mem_of_head? head,isolated_of_reachable (.run .init lifetime ran)⟩

end System

end ScriptHost
