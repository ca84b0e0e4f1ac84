import Mathlib.Logic.Function.Basic
import ScriptHost.Scheduler.Lifecycle
import ScriptHost.Scheduler.Worker
/-!
All threads around one scheduler. Any number of threads take handles, start, stop and submit, and so
do the jobs of the workers; timers, followers and threads that jobs hand an envelope over to are threads
like any other. One action is one step of one thread, so a list of actions is an interleaving. What has
happened is kept in a history, newest first.
-/
namespace ScriptHost

/-- What happened in a step. -/
inductive Event (J : Type) where
  /-- A job was handed in through a handle of a generation. -/
  | submitted (handle : Nat) (e : Envelope J)
  /-- A stop of a generation put the envelope into the queue that is to end it. -/
  | ordered (g : Nat) (e : Envelope J)
  /-- A submission put its envelope into the queue. -/
  | queued (e : Envelope J)
  /-- A submission dropped its envelope. -/
  | refused (e : Envelope J)
  | opened (g : Nat)
  /-- The worker of a generation took an envelope out of the queue. -/
  | took (g : Nat) (e : Envelope J)
  /-- The worker of a generation began with the task of an envelope. -/
  | began (g : Nat) (e : Envelope J)
  /-- The signal of a generation was closed. -/
  | closed (g : Nat)
  /-- A start returned. `found` is the state in which it saw the lock free, `left` the one that it left. -/
  | started (r : Except Failure Unit) (found left : Scheduler J)
  /-- A stop of a generation took the handle of a worker to wait for. -/
  | joined (g worker : Nat)
  /-- A stop of a generation returned. -/
  | stopped (g : Nat) (r : Except Failure Unit)

section
variable {J : Type}

/-- What a step of a submission is recorded as. -/
def Submission.events : Submission J → Submission J → List (Event J)
  | .sends e, .sent | .tries e, .sent => [.queued e]
  | .looks _ e, .refused | .sends e, .refused => [.refused e]
  | _, _ => []

/-- What a step of a start is recorded as; `left` is the state after the step. -/
def Starting.events (found left : Scheduler J) : Starting J → Starting J → List (Event J)
  | .creates, .submits (.looks _ e) => [.submitted left.generation e, .opened left.generation]
  | .submits p, .submits q => p.events q
  | _, .ended r => [.started r found left]
  | _, _ => []

/-- The envelope that a start still holds. -/
def Starting.envelope? : Starting J → Option (Envelope J)
  | .submits p => p.envelope?
  | _ => none

/-- What a step of a stop is recorded as. -/
def Stopping.events (s : Scheduler J) : Stopping → Stopping → List (Event J)
  | .queues g _, .counts _ _ => [.ordered g (s.envelop g .stop).1]
  | .takes g, .joins _ w => [.joined g w]
  | .takes g, .ended r | .joins g _, .ended r | .waits g _, .ended r => [.stopped g r]
  | _, _ => []

/-- What a step of the worker of a generation is recorded as. -/
def Worker.events {R : Type} (g : Nat) : Worker J R → Worker J R → List (Event J)
  | .selects, .took e => [.took g e]
  | .clearsReason e, .leaves | .clearsReason e, .runs _ _ => [.began g e]
  | .closes, .ran _ => [.closed g]
  | _, _ => []

end

/-- A call of the scheduler that a thread is in. -/
inductive Call (J : Type) where
  /-- A start, with the state in which it saw the lock free. -/
  | start (p : Starting J) (found : Scheduler J)
  | stop (p : Stopping)
  | submit (p : Submission J)

namespace Call
variable {J : Type}

/-- The state in which a start sees the lock free. -/
def foundBy (s found : Scheduler J) : Starting J → Scheduler J
  | .enters => s
  | _ => found

/-- What a call may do next, with what that is recorded as; time may have run out for a stop that waits.
`made` is what comes of the engine if a start makes one. -/
def moves (finished : Nat → Bool) (made : Except Failure Unit) (first : J) (s : Scheduler J) :
    Call J → List (Call J × Scheduler J × List (Event J))
  | .start p found =>
    (p.next finished (fun _ => made) first s).map fun (q, t) =>
      (.start q (foundBy s found p), t, p.events (foundBy s found p) t q)
  | .stop p => (p.next finished s ++ (p.late s).toList).map fun (q, t) => (.stop q, t, p.events s q)
  | .submit p => (p.next s).map fun (q, t) => (.submit q, t, p.events q)

/-- The call is over. -/
def isOver : Call J → Bool
  | .start p _ => p.outcome?.isSome
  | .stop p => p.outcome?.isSome
  | .submit (.ended _) => true
  | .submit _ => false

/-- The envelope that a call still holds. -/
def envelope? : Call J → Option (Envelope J)
  | .start p _ => p.envelope?
  | .stop _ => none
  | .submit p => p.envelope?

end Call

namespace Worker
variable {J : Type}

/-- The envelope that a worker has taken and not begun with. -/
def inHand? {R : Type} : Worker J R → Option (Envelope J)
  | .took e | .clearsRequested e | .clearsFired e | .clearsReason e => some e
  | _ => none

/-- The call that the running job of a worker is in. -/
def call? : Worker J (Option (Call J)) → Option (Call J)
  | .runs _ c => c
  | _ => none

/-- The running job of a worker is in no call. -/
def isFree : Worker J (Option (Call J)) → Bool
  | .runs _ none => true
  | _ => false

/-- The call of the running job changes. -/
def withCall (c : Option (Call J)) : Worker J (Option (Call J)) → Worker J (Option (Call J))
  | .runs n _ => .runs n c
  | p => p

end Worker

/-- A thread that calls the scheduler: a thread of its own, or the worker of a generation by its job. -/
inductive Party where
  | thread (t : Nat)
  | worker (g : Nat)
  deriving DecidableEq

/-- A party that is a worker. -/
def Party.isWorker : Party → Bool
  | .thread _ => false
  | .worker _ => true

/-- A scheduler with its threads. -/
structure System (J : Type) where
  scheduler : Scheduler J
  /-- The call that every thread is in, if it is in one. -/
  threads : Nat → Option (Call J) := fun _ => none
  /-- The workers by generation; a running job may be in a call. -/
  workers : Nat → Worker J (Option (Call J)) := fun _ => .gone
  /-- The generations of the handles that were taken. -/
  handles : List Nat := []
  /-- Who is in the middle of a start, or of the end of a generation. -/
  holder : Option Party := none
  history : List (Event J) := []

/-- One step of one thread. -/
inductive Action (J : Type) where
  /-- Some thread takes a handle of the current generation. -/
  | takeHandle
  | start (who : Party)
  | stop (t : Nat)
  | submit (who : Party) (handle : Nat) (j : J)
  /-- A call goes on with one of the steps it may take. -/
  | go (who : Party) (made : Except Failure Unit) (choice : Nat)
  /-- A job hands its envelope over to a thread. -/
  | handOver (who : Party) (t : Nat)
  /-- There is no thread to hand the envelope of a job over to. -/
  | failToHandOver (who : Party)
  | return (who : Party)
  | work (g choice : Nat)
  /-- The running job of a worker comes to its end. -/
  | finish (g : Nat) (panicked : Bool)
  /-- Nothing is left waiting behind a task. -/
  | settle (g : Nat)
  | interrupt (reason : String)

namespace System
variable {J : Type}

/-- A scheduler that was never started, and no call under way. -/
def init (capacity : Nat) : System J := { scheduler := .new capacity }

/-- The worker of a generation is gone. -/
def isFinished (σ : System J) (g : Nat) : Bool := (σ.workers g).isGone

/-- The call that a party is in. -/
def call? (σ : System J) : Party → Option (Call J)
  | .thread t => σ.threads t
  | .worker g => (σ.workers g).call?

/-- A party can begin a call: a thread that is in none, or a worker whose running job is in none. -/
def isFree (σ : System J) : Party → Bool
  | .thread t => (σ.threads t).isNone
  | .worker g => (σ.workers g).isFree

/-- The call of a party changes. -/
def setCall (σ : System J) (c : Option (Call J)) : Party → System J
  | .thread t => { σ with threads := Function.update σ.threads t c }
  | .worker g => { σ with workers := Function.update σ.workers g ((σ.workers g).withCall c) }

/-- A party has brought the scheduler to a state: it may have taken the lock or left it, and a generation
that it has opened has a worker. -/
def arrive (σ : System J) (who : Party) (s : Scheduler J) (events : List (Event J)) : System J :=
  { σ with
    scheduler := s
    workers := if s.generation = σ.scheduler.generation then σ.workers
      else Function.update σ.workers s.generation .looks
    holder := if s.locked then (if σ.scheduler.locked then σ.holder else some who) else none
    history := events ++ σ.history }

/-- What comes of an action, if it can be taken. A job that stops the scheduler is refused at once, so it
has no action for that. -/
def act (first : J) (σ : System J) : Action J → Option (System J)
  | .takeHandle =>
    if σ.scheduler.locked then none
    else some { σ with handles := σ.scheduler.generation :: σ.handles }
  | .start who =>
    if σ.isFree who then some (σ.setCall (some (.start .enters σ.scheduler)) who) else none
  | .stop t => if σ.isFree (.thread t) then some (σ.setCall (some (.stop .enters)) (.thread t)) else none
  | .submit who handle j =>
    if σ.isFree who && σ.handles.contains handle then
      let (e, s) := σ.scheduler.envelop handle (.job j)
      some ((σ.setCall (some (.submit (.looks who.isWorker e))) who).arrive who s [.submitted handle e])
    else none
  | .go who made choice =>
    match σ.call? who with
    | none => none
    | some c =>
      match (c.moves σ.isFinished made first σ.scheduler)[choice]? with
      | none => none
      | some (c, s, events) => some ((σ.setCall (some c) who).arrive who s events)
  | .handOver who t =>
    match σ.call? who with
    | some (.submit (.handsOver e)) =>
      if σ.isFree (.thread t) then
        some ((σ.setCall none who).setCall (some (.submit (.sends e))) (.thread t))
      else none
    | _ => none
  | .failToHandOver who =>
    match σ.call? who with
    | some (.submit (.handsOver e)) =>
      some ((σ.setCall (some (.submit (.ended false))) who).arrive who (σ.scheduler.countDiscarded 1)
        [.refused e])
    | _ => none
  | .return who =>
    match σ.call? who with
    | some c => if c.isOver then some (σ.setCall none who) else none
    | none => none
  | .work g choice =>
    match ((σ.workers g).next g (fun _ => none) none σ.scheduler)[choice]? with
    | none => none
    | some (p, s) =>
      some ({ σ with workers := Function.update σ.workers g p }.arrive (.worker g) s
        ((σ.workers g).events g p))
  | .finish g panicked =>
    match σ.workers g with
    | .runs _ none => some { σ with workers := Function.update σ.workers g (.ran panicked) }
    | _ => none
  | .settle g =>
    match σ.workers g with
    | .settles _ => some { σ with workers := Function.update σ.workers g .looks }
    | _ => none
  | .interrupt reason =>
    if σ.scheduler.locked then none else some { σ with scheduler := σ.scheduler.interrupt reason }

/-- What comes of actions one after another. -/
def run (first : J) (σ : System J) : List (Action J) → Option (System J)
  | [] => some σ
  | a :: rest =>
    match σ.act first a with
    | some τ => τ.run first rest
    | none => none

/-- The states that some interleaving leads to, from a scheduler that was never started. -/
inductive Reachable (first : J) (capacity : Nat) : System J → Prop where
  | init : Reachable first capacity (init capacity)
  | act {σ τ : System J} (a : Action J) (reached : Reachable first capacity σ)
      (taken : σ.act first a = some τ) : Reachable first capacity τ

theorem Reachable.run {first : J} {capacity : Nat} {σ τ : System J} (reached : Reachable first capacity σ)
    (actions : List (Action J)) (taken : σ.run first actions = some τ) : Reachable first capacity τ := by
  induction actions generalizing σ with
  | nil =>
    cases taken
    exact reached
  | cons a rest ih =>
    simp only [System.run] at taken
    cases step : σ.act first a with
    | none => simp [step] at taken
    | some υ =>
      rw [step] at taken
      exact ih (.act a reached step) taken

end System

end ScriptHost
