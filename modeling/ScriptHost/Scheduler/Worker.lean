import ScriptHost.Scheduler.Basic
/-!
The loop of a worker. It takes one envelope at a time, drops what is meant for another generation,
forgets all requests to abort, does the task and then everything that scripts have left waiting, until
the signal of its generation is closed. A running job is a state `R` that whoever runs the worker
advances.
-/

namespace ScriptHost

/-- Where a worker stands. -/
inductive Worker (J R : Type) where
  /-- It looks whether its generation has ended. -/
  | looks
  /-- It waits for an envelope or for the end of its generation. -/
  | selects
  | took (e : Envelope J)
  /-- It forgets the requests to abort: the flag, the mark that one was found, the reason. -/
  | clearsRequested (e : Envelope J)
  | clearsFired (e : Envelope J)
  | clearsReason (e : Envelope J)
  | runs (serial : Nat) (r : R)
  /-- It ends its generation: it is about to lock the state, and then to close the signal. -/
  | leaves
  | closes
  /-- The task is done and not counted yet. -/
  | ran (panicked : Bool)
  /-- It runs what scripts have left waiting. -/
  | settles (r : R)
  | gone
  deriving Inhabited

namespace Worker

variable {J R : Type}

/-- What the worker of a generation may do next; nothing while it waits, when it is gone, and while
something runs. `run` begins a job. -/
def next (g : Nat) (run : J → R) (rest : R) (s : Scheduler J) :
    Worker J R → List (Worker J R × Scheduler J)
  | .looks => [(if s.isOver g then .gone else .selects, s)]
  | .selects =>
    (if s.isOver g then [(.gone, s)] else []) ++
      (match s.dequeue? with
      | some (e, s) => [(.took e, s)]
      | none => [])
  | .took e =>
    if e.generation = g then [(.clearsRequested e, s)] else [(.looks, s.countDiscarded 1)]
  | .clearsRequested e => [(.clearsFired e, s.changeInterrupt g (·.clearRequested))]
  | .clearsFired e => [(.clearsReason e, s.changeInterrupt g (·.clearFired))]
  | .clearsReason e =>
    let s := s.changeInterrupt g (·.clearReason)
    match e.task with
    | .stop => [(.leaves, s)]
    | .job j => [(.runs e.serial (run j), s)]
  | .runs _ _ => []
  | .leaves => if s.locked then [] else [(.closes, (s.leaveGeneration g).lock)]
  | .closes => [(.ran false, (s.closeGeneration g).unlock)]
  | .ran panicked => [(.settles rest, if panicked then s.countPanicked else s.countExecuted)]
  | .settles _ => []
  | .gone => []

/-- The serial number of the envelope that the worker has taken and not done with. -/
def serial? : Worker J R → Option Nat
  | .took e | .clearsRequested e | .clearsFired e | .clearsReason e => some e.serial
  | .runs serial _ => some serial
  | _ => none

/-- The worker is gone. -/
def isGone : Worker J R → Bool
  | .gone => true
  | _ => false

end Worker

end ScriptHost
