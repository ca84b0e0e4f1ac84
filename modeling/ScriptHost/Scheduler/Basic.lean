import ScriptHost.Completion
import ScriptHost.Interrupt
import ScriptHost.Log
/-!
The state that the threads of a scheduler share. Work is handed to one worker at a time through a
bounded queue; every start opens a new generation with a worker and a signal of its own, and an
envelope in the queue carries the generation it is meant for. The functions here are the single steps
that threads take on the state; `Submission`, `Starting`, `Stopping` and `Worker` say which step a
thread takes when.
-/

namespace ScriptHost

/-- What is asked of a worker. -/
inductive Task (J : Type) where
  /-- To end its generation. -/
  | stop
  | job (j : J)
  deriving Inhabited

/-- A task in the queue. -/
structure Envelope (J : Type) where
  /-- Tells it from every other envelope. -/
  serial : Nat
  generation : Nat
  task : Task J
  deriving Inhabited

/-- What became of all envelopes so far. -/
structure Counters where
  /-- Envelopes that the queue took. -/
  submitted : Nat := 0
  /-- Tasks that ran to their end. -/
  executed : Nat := 0
  /-- Envelopes that were dropped, and ones that the queue did not take. -/
  discarded : Nat := 0
  /-- Jobs that panicked. -/
  panicked : Nat := 0
  deriving DecidableEq, Inhabited

/-- The shared state of a scheduler of jobs. -/
structure Scheduler (J : Type) where
  /-- The number of envelopes the queue holds. -/
  capacity : Nat
  /-- Oldest first. -/
  queue : List (Envelope J) := []
  running : Bool := false
  /-- The number of the last generation that was started; the first one has number 1. -/
  generation : Nat := 0
  /-- The generation whose worker the next stop waits for. -/
  worker : Option Nat := none
  /-- A thread is in the middle of a start, or of the end of a generation. -/
  locked : Bool := false
  /-- The signals of the generations by their numbers; the signal of generation 0 is closed. -/
  signals : Array Signal := #[⟨true⟩]
  /-- The requests to abort scripts, by generation. -/
  interrupts : Array Interrupt := #[{}]
  counters : Counters := {}
  /-- The serial number of the next envelope. -/
  serial : Nat := 0
  /-- Newest first. -/
  log : List LogLine := []
  deriving Inhabited

namespace Scheduler

variable {J : Type}

/-- A scheduler that was never started; its queue holds one envelope at least. -/
def new (capacity : Nat) : Scheduler J := { capacity := max capacity 1 }

/-- The signal of a generation. -/
def signal (s : Scheduler J) (g : Nat) : Signal := (s.signals[g]?).getD ⟨true⟩

/-- A generation has ended. -/
def isOver (s : Scheduler J) (g : Nat) : Bool := (s.signal g).closed

/-- The queue takes one more envelope. -/
def hasRoom (s : Scheduler J) : Bool := s.queue.length < s.capacity

/-- A task in an envelope. -/
def envelop (s : Scheduler J) (g : Nat) (task : Task J) : Envelope J × Scheduler J :=
  (⟨s.serial, g, task⟩, { s with serial := s.serial + 1 })

/-- An envelope joins the queue. -/
def enqueue (s : Scheduler J) (e : Envelope J) : Scheduler J := { s with queue := s.queue ++ [e] }

/-- The oldest envelope leaves the queue. -/
def dequeue? (s : Scheduler J) : Option (Envelope J × Scheduler J) :=
  match s.queue with
  | [] => none
  | e :: rest => some (e, { s with queue := rest })

/-- An envelope is in the queue. -/
def holds (s : Scheduler J) (serial : Nat) : Bool := s.queue.any (·.serial == serial)

/-- Change the counters. -/
def count (s : Scheduler J) (f : Counters → Counters) : Scheduler J :=
  { s with counters := f s.counters }

/-- The queue took an envelope. -/
def countSubmitted (s : Scheduler J) : Scheduler J :=
  s.count fun c => { c with submitted := c.submitted + 1 }

/-- A task ran to its end. -/
def countExecuted (s : Scheduler J) : Scheduler J :=
  s.count fun c => { c with executed := c.executed + 1 }

/-- Some envelopes were dropped. -/
def countDiscarded (s : Scheduler J) (n : Nat) : Scheduler J :=
  s.count fun c => { c with discarded := c.discarded + n }

/-- A job panicked. -/
def countPanicked (s : Scheduler J) : Scheduler J :=
  s.count fun c => { c with panicked := c.panicked + 1 }

/-- Write a line to the log. -/
def note (s : Scheduler J) (line : LogLine) : Scheduler J := { s with log := line :: s.log }

/-- The requests to abort scripts of a generation. -/
def interruptOf (s : Scheduler J) (g : Nat) : Interrupt := (s.interrupts[g]?).getD {}

/-- Change the requests to abort scripts of a generation. -/
def changeInterrupt (s : Scheduler J) (g : Nat) (f : Interrupt → Interrupt) : Scheduler J :=
  { s with interrupts := s.interrupts.modify g f }

/-- Request that the running script be aborted; nothing happens while not running. -/
def interrupt (s : Scheduler J) (reason : String) : Scheduler J :=
  if s.running then s.changeInterrupt s.generation (·.request reason) else s

/-- A new generation begins. -/
def openGeneration (s : Scheduler J) : Scheduler J :=
  { s with
    running := true
    generation := s.generation + 1
    worker := some (s.generation + 1)
    signals := s.signals.push ⟨false⟩
    interrupts := s.interrupts.push {} }

/-- The last generation is no longer running, if it is this one. -/
def leaveGeneration (s : Scheduler J) (g : Nat) : Scheduler J :=
  if s.generation = g then { s with running := false } else s

/-- The signal of a generation closes. -/
def closeGeneration (s : Scheduler J) (g : Nat) : Scheduler J :=
  { s with signals := s.signals.modify g fun signal => signal.close.2 }

/-- A thread enters what only one thread at a time may do. -/
def lock (s : Scheduler J) : Scheduler J := { s with locked := true }

/-- The thread leaves it again. -/
def unlock (s : Scheduler J) : Scheduler J := { s with locked := false }

/-- The fact which generation a line of the log is about. -/
def aboutGeneration (g : Nat) : String × Json := ("generation", .int g)

end Scheduler

end ScriptHost
