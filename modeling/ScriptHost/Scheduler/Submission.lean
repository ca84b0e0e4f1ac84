import ScriptHost.Scheduler.Basic
/-!
Submitting a job. A thread hands an envelope in for a generation: it is refused once the generation
has ended, and waits while the queue is full. A job that submits another one never waits for the queue
of its own worker; when that is full the envelope is handed over to a thread that waits instead.
-/

namespace ScriptHost

/-- Where a thread stands that submits a job. -/
inductive Submission (J : Type) where
  /-- It looks whether the generation has ended. `inside`: it is a job of the worker. -/
  | looks (inside : Bool) (e : Envelope J)
  /-- It waits for room in the queue or for the end of the generation. -/
  | sends (e : Envelope J)
  /-- It looks for room in the queue. -/
  | tries (e : Envelope J)
  /-- The envelope is in the queue and not counted yet. -/
  | sent
  /-- The envelope was dropped and is not counted yet. -/
  | refused
  /-- Another thread takes over. -/
  | handsOver (e : Envelope J)
  | ended (accepted : Bool)
  deriving Inhabited

namespace Submission

variable {J : Type}

/-- What the thread may do next; nothing while it waits and when it is done. -/
def next (s : Scheduler J) : Submission J → List (Submission J × Scheduler J)
  | .looks inside e =>
    if s.isOver e.generation then [(.refused, s)]
    else [(if inside then .tries e else .sends e, s)]
  | .sends e =>
    (if s.isOver e.generation then [(.refused, s)] else []) ++
      (if s.hasRoom then [(.sent, s.enqueue e)] else [])
  | .tries e => if s.hasRoom then [(.sent, s.enqueue e)] else [(.handsOver e, s)]
  | .sent => [(.ended true, s.countSubmitted)]
  | .refused => [(.ended false, s.countDiscarded 1)]
  | .handsOver _ | .ended _ => []

/-- The submission is over, and whether the job was accepted. -/
def outcome? : Submission J → Option Bool
  | .ended accepted => some accepted
  | .handsOver _ => some true
  | _ => none

/-- The envelope that a thread still holds. -/
def envelope? : Submission J → Option (Envelope J)
  | .looks _ e | .sends e | .tries e | .handsOver e => some e
  | .sent | .refused | .ended _ => none

end Submission

end ScriptHost
