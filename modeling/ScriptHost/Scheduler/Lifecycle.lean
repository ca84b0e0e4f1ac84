import ScriptHost.Scheduler.Submission
/-!
Starting and stopping. A start empties the queue, opens a generation and submits its first job before
any other thread can. A stop submits the task that ends the generation; when that is not done in time
it empties the queue, has the running script aborted and submits the task again, and when that is not
done in time either it gives up.
-/

namespace ScriptHost

/-- Where a thread stands that starts the scheduler. -/
inductive Starting (J : Type) where
  | enters
  /-- It empties the queue and has dropped so many envelopes. -/
  | drains (dropped : Nat)
  /-- It makes an engine. -/
  | creates
  /-- It submits the first job of the generation. -/
  | submits (p : Submission J)
  | leaves
  | ended (r : Except Failure Unit)
  deriving Inhabited

namespace Starting

variable {J : Type}

/-- Give up the worker of the last generation. -/
def detach (s : Scheduler J) (finished : Nat → Bool) : Scheduler J :=
  match s.worker with
  | none => s
  | some g =>
    let s := { s with worker := none }
    if finished g then s
    else s.note (.warning "Previous worker is still busy, detaching it"
      [Scheduler.aboutGeneration s.generation])

/-- What the thread may do next. `finished` tells which workers are gone, `create` makes an engine for
a generation, and `first` is the first job of every generation. -/
def next (finished : Nat → Bool) (create : Nat → Except Failure Unit) (first : J)
    (s : Scheduler J) : Starting J → List (Starting J × Scheduler J)
  | .enters =>
    if s.locked then []
    else if s.running then [(.ended (.error .alreadyRunning), s)]
    else [(.drains 0, detach s.lock finished)]
  | .drains n =>
    match s.dequeue? with
    | some (_, s) => [(.drains (n + 1), s)]
    | none => [(.creates, s.countDiscarded n)]
  | .creates =>
    let g := s.generation + 1
    match create g with
    | .error e =>
      [(.ended (.error e), (s.note (.failure "Failed to create interpreter"
        [("error", .str e.message), Scheduler.aboutGeneration g])).unlock)]
    | .ok () =>
      let (e, s) := s.openGeneration.envelop g (.job first)
      [(.submits (.looks false e), s)]
  | .submits p =>
    match p.outcome? with
    | some true => [(.leaves, s)]
    | some false =>
      [(.leaves, s.note (.warning "Failed to queue interpreter initialization"
        [Scheduler.aboutGeneration s.generation]))]
    | none => (p.next s).map fun (p, s) => (.submits p, s)
  | .leaves => [(.ended (.ok ()), s.unlock)]
  | .ended _ => []

/-- The start is over, and what came of it. -/
def outcome? : Starting J → Option (Except Failure Unit)
  | .ended r => some r
  | _ => none

end Starting

/-- Where a thread stands that stops the scheduler. `again`: the queue has been emptied. -/
inductive Stopping where
  | enters
  /-- It waits for room in the queue for the task that ends the generation. -/
  | queues (g : Nat) (again : Bool)
  /-- The task is in the queue and not counted yet. -/
  | counts (g : Nat) (again : Bool)
  /-- It waits for the end of the generation. -/
  | waits (g : Nat) (again : Bool)
  /-- It empties the queue and has dropped so many envelopes. -/
  | drains (g dropped : Nat)
  /-- It requests that the running script be aborted: the reason, then the flag. -/
  | stores (g : Nat)
  | flags (g : Nat)
  /-- It asks whose worker to wait for. -/
  | takes (g : Nat)
  /-- It waits for a worker to be gone. -/
  | joins (g worker : Nat)
  | ended (r : Except Failure Unit)
  deriving Inhabited

namespace Stopping

variable {J : Type}

/-- The reason for which a stop has scripts aborted. -/
def reason : String := "vm is shutting down"

/-- A stop by a job of the worker itself, which cannot end before its generation has. -/
def fromInside : Failure := .internal "cannot stop the VM from inside a job"

/-- What the thread may do next; nothing while it waits and when it is done. -/
def next (finished : Nat → Bool) (s : Scheduler J) : Stopping → List (Stopping × Scheduler J)
  | .enters =>
    if s.locked then []
    else if s.running then [(.queues s.generation false, s)]
    else [(.ended (.error .notRunning), s)]
  | .queues g again =>
    if s.hasRoom then
      let (e, s) := s.envelop g .stop
      [(.counts g again, s.enqueue e)]
    else []
  | .counts g again => [(.waits g again, s.countSubmitted)]
  | .waits g _ => if s.isOver g then [(.takes g, s)] else []
  | .drains g n =>
    match s.dequeue? with
    | some (_, s) => [(.drains g (n + 1), s)]
    | none => [(.stores g, s.countDiscarded n)]
  | .stores g => [(.flags g, s.changeInterrupt g (·.store reason))]
  | .flags g => [(.queues g true, s.changeInterrupt g (·.flag))]
  | .takes g =>
    if s.locked then []
    else match s.worker with
      | some w => [(.joins g w, { s with worker := none })]
      | none => [(.ended (.ok ()), s)]
  | .joins _ w => if finished w then [(.ended (.ok ()), s)] else []
  | .ended _ => []

/-- What the thread does when it has waited for too long. -/
def late (s : Scheduler J) : Stopping → Option (Stopping × Scheduler J)
  | .queues g again => some (.waits g again, s.note (.warning "Timed out queueing stop job"))
  | .waits g false =>
    some (.drains g 0, s.note (.warning
      "VM soft timeout expired, flushing remaining jobs without running them"
      [Scheduler.aboutGeneration g]))
  | .waits g true =>
    some (.ended (.error .shutdownTimeout), s.note (.failure "VM hard timeout expired, giving up"
      [Scheduler.aboutGeneration g]))
  | _ => none

/-- Whether the thread waits for no longer than a timeout, and whether that is the second one. -/
def timed? : Stopping → Option Bool
  | .queues _ again | .waits _ again => some again
  | _ => none

/-- The stop is over, and what came of it. -/
def outcome? : Stopping → Option (Except Failure Unit)
  | .ended r => some r
  | _ => none

end Stopping

end ScriptHost
