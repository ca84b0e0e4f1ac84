import ScriptHost.Host.Poller
import ScriptHost.Scheduler.Lifecycle
import ScriptHost.Scheduler.Worker
/-!
The state of a host: the scheduler and its workers with their engines, the registry of modules, the
followers of evaluations, and the timers. While a job computes, its engine is lent what lies outside
of it, and gives it back at every pause.
-/

namespace ScriptHost

/-- The jobs of a host whose jobs share a state `τ` of the embedder's choice. -/
abbrev Work (τ : Type) := Job (Desk τ)

/-- How far a running job is. -/
inductive Stage (τ : Type) where
  | doing (j : Work τ)
  /-- A script asked whether it may go on. -/
  | asking (next : Bool → Engine.World → Engine.Current (Work τ))
  | sleeping (due : Span) (next : Work τ)
  | submitting (p : Submission (Work τ)) (next : Bool → Work τ)
  | starting (p : Starting (Work τ)) (next : Except Failure Unit → Work τ)
  deriving Inhabited

/-- A running job. -/
structure Activity (τ : Type) where
  stage : Stage τ
  /-- While an engine is being started by jobs: those that are still to be done. -/
  hooks : Option (List (Work τ)) := none
  deriving Inhabited

/-- A worker with its engine. -/
structure Station (τ : Type) where
  generation : Nat
  place : Worker (Work τ) (Activity τ)
  machine : Engine.Machine
  deriving Inhabited

/-- A thread besides the workers. -/
inductive Thread (τ : Type) where
  /-- Waits for room in the queue on behalf of a job. -/
  | helper (p : Submission (Work τ))
  /-- Waits for a timer to be due, and then submits its job. -/
  | alarm (generation : Nat) (timer : Engine.Timer) (due : Span)
  | ringing (generation : Nat) (timer : Engine.Timer) (p : Submission (Work τ))
  /-- Follows an evaluation, and pauses no longer than until it is due. -/
  | follower (i : Nat) (stateName : String) (due : Span) (p : Poller (Work τ))
  deriving Inhabited

/-- A host of scripts. -/
structure Host (τ : Type) where
  settings : Settings
  scheduler : Scheduler (Work τ)
  /-- The jobs that start an engine. -/
  hooks : List (Work τ) := []
  registry : Registry
  files : Files
  /-- The uses of the files, newest first. -/
  accesses : List Access := []
  /-- Newest first. -/
  console : List ConsoleLine := []
  stations : List (Station τ) := []
  threads : List (Thread τ) := []
  desk : Desk τ
  /-- The time since the host was made. -/
  now : Span := ⟨0⟩
  /-- How often scripts have gone on in a row while nothing else happened. -/
  rounds : Nat := 0

namespace Host

variable {τ : Type}

/-- A host that was never started. -/
def new (settings : Settings) (files : Files) (own : τ) : Host τ :=
  { settings, files
    scheduler := .new settings.queueCapacity
    registry := .new settings.modulesPath
    desk := { own } }

/-- Write a line to the log. -/
def note (h : Host τ) (line : LogLine) : Host τ := { h with scheduler := h.scheduler.note line }

/-- The worker of a generation is gone. -/
def isFinished (h : Host τ) (g : Nat) : Bool :=
  !h.stations.any fun k => k.generation == g && !k.place.isGone

/-- An envelope is in the queue or in the hands of a worker. -/
def isUnderway (h : Host τ) (serial : Nat) : Bool :=
  h.scheduler.holds serial || h.stations.any fun k => k.place.serial? == some serial

/-- The milliseconds since the epoch at which the clock of scripts starts. -/
def epoch : Float := 1700000000000

/-- What lies outside of the engine of a generation. -/
def outside (h : Host τ) (g : Nat) (timers : Engine.Timers) : Engine.Outside :=
  { generation := g, registry := h.registry, files := h.files, timers
    interrupt := h.scheduler.interruptOf g
    clock := epoch + Float.ofNat h.now.toMillis }

/-- Lend a world what lies outside of it. -/
def lend (h : Host τ) (w : Engine.World) : Engine.World :=
  { w with outside := h.outside w.outside.generation w.outside.timers }

/-- Take back what was lent, with what scripts have done to it; timers that they have set start. -/
def takeBack (h : Host τ) (o : Engine.Outside) : Host τ :=
  let started := o.timers.started.reverse.map fun t =>
    Thread.alarm o.generation t (h.now.plus t.delay)
  { h with
    registry := o.registry
    accesses := o.accesses ++ h.accesses
    console := o.console ++ h.console
    scheduler :=
      { h.scheduler.changeInterrupt o.generation (fun _ => o.interrupt) with
        log := o.logs ++ h.scheduler.log }
    threads := h.threads ++ started }

/-- A world that has given back what it was lent. -/
def returned (w : Engine.World) : Engine.World :=
  { w with outside := { w.outside with
      accesses := [], console := [], logs := []
      timers := { w.outside.timers with started := [] } } }

/-- The first job of every generation: the globals, and then the jobs that start an engine. -/
def initialJob : Work τ := .compute Engine.installGlobals fun () => .hooks

/-- A worker with a new engine. -/
def station (h : Host τ) (g : Nat) : Station τ :=
  { generation := g, place := .looks
    machine := .fresh (h.outside g {}) h.settings.memoryLimit h.settings.stackLimit }

/-- Go on with a start; a generation that it opens gets a worker. -/
def stepStart (h : Host τ) (p : Starting (Work τ)) : Option (Starting (Work τ) × Host τ) :=
  let create (_ : Nat) : Except Failure Unit :=
    match Engine.Machine.refusal? h.settings.memoryLimit with
    | some e => .error e
    | none => .ok ()
  match p.next h.isFinished create initialJob h.scheduler with
  | [] => none
  | (q, s) :: _ =>
    let opened := s.generation != h.scheduler.generation
    let h := { h with scheduler := s }
    let h := if opened then
        { h with stations := h.stations.filter (!·.place.isGone) ++ [h.station s.generation] }
      else h
    some (q, h)

/-- A job is handed in for the current generation; where its submission starts. -/
def beginSubmission (h : Host τ) (inside : Bool) (j : Work τ) : Submission (Work τ) × Host τ :=
  let g := h.scheduler.generation
  let h := if h.scheduler.isOver g then
      h.note (.warning "VM is not running, discarding job")
    else h
  let (e, s) := h.scheduler.envelop g (.job j)
  (.looks inside e, { h with scheduler := s })

end Host

end ScriptHost
