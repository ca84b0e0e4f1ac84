import ScriptHost.Host.Evaluation
import ScriptHost.Scheduler.Submission
/-!
The follower of an evaluation. It waits for the script, has its value handed on to its promise, and
looks at the outcome again and again with growing delays between. In the end it has everything taken
away that was kept. It goes on as soon as the outcome is settled from elsewhere, and settles it
itself when the generation ends.
-/

namespace ScriptHost

/-- Where the follower of an evaluation stands. -/
inductive Poller (J : Type) where
  /-- It waits for the script or for a cancellation. -/
  | awaitsScript
  /-- It was cancelled; the script is cancelled too, and it waits for that. -/
  | awaitsCancelled
  /-- It submits a job to hand the value on, or to look, and pauses for a delay after that. -/
  | submits (serial : Nat) (p : Submission J) (value : String) (delay : Span)
  /-- It waits for the job to be done or dropped. -/
  | awaitsJob (serial : Nat) (value : String) (delay : Span)
  /-- It looks whether the outcome is settled. -/
  | turns (value : String) (delay : Span)
  | pauses (value : String) (delay : Span)
  /-- Its offer was taken and is not announced yet. There is something to be taken away after that only
  if there is a value. -/
  | announces (value : Option String)
  /-- It has everything taken away. -/
  | cleans (value : Option String)
  | submitsCleaning (p : Submission J)
  | gone
  deriving Inhabited

namespace Poller

variable {τ : Type}

/-- The state that a follower looks at and changes. -/
structure View (τ : Type) where
  scheduler : Scheduler (Job (Desk τ))
  desk : Desk τ

/-- Submit a job for the generation of an evaluation. -/
def View.submission (v : View τ) (i : Nat) (j : Job (Desk τ)) :
    Nat × Submission (Job (Desk τ)) × View τ :=
  let (e, s) := v.scheduler.envelop (v.desk.evaluation i).generation (.job j)
  (e.serial, .looks false e, { v with scheduler := s })

/-- Where the follower goes when the outcome is settled: it has everything taken away if there is a
value. -/
def settled {J : Type} : Option String → Poller J
  | none => .gone
  | some value => .cleans (some value)

/-- The follower of evaluation `i` offers a failure. -/
def View.offering (v : View τ) (i : Nat) (f : Failure) (value : Option String) :
    Poller (Job (Desk τ)) × View τ :=
  let (taken, desk) := v.desk.offerOutcome i (.error f)
  (if taken then .announces value else settled value, { v with desk })

/-- What the follower of evaluation `i` may do next; nothing while it waits. `underway` tells which
envelopes are neither done nor dropped, and `stateName` is the name of its state object. -/
def next (underway : Nat → Bool) (backoff : Backoff) (stateName : String) (i : Nat) (v : View τ) :
    Poller (Job (Desk τ)) → List (Poller (Job (Desk τ)) × View τ) := fun p =>
  let e := v.desk.evaluation i
  match p with
  | .awaitsScript =>
    if e.outcome.ready then
      [(.awaitsCancelled,
        { v with desk := v.desk.change i fun e => { e with script := e.script.cancel } })]
    else match e.script.wait? with
      | none => []
      | some (.error f) => [v.offering i f none]
      | some (.ok value) =>
        let (serial, p, v) := v.submission i (Evaluation.followJob i value stateName)
        [(.submits serial p value backoff.initial, v)]
  | .awaitsCancelled =>
    match e.script.wait? with
    | none => []
    | some r => [(.cleans r.toOption, v)]
  | .submits serial p value delay =>
    match p.outcome? with
    | some true => [(.awaitsJob serial value delay, v)]
    | some false => [(.turns value delay, v)]
    | none =>
      (p.next v.scheduler).map fun (p, s) => (.submits serial p value delay, { v with scheduler := s })
  | .awaitsJob serial value delay =>
    if !underway serial || e.outcome.ready || v.scheduler.isOver e.generation then
      [(.turns value delay, v)]
    else []
  | .turns value delay =>
    [(if e.outcome.ready then .cleans (some value) else .pauses value delay, v)]
  | .pauses value _ =>
    (if e.outcome.ready then [(.cleans (some value), v)] else []) ++
      (if v.scheduler.isOver e.generation then
        [v.offering i .cancelled (some value)]
      else [])
  | .announces value => [(settled value, { v with desk := v.desk.announceOutcome i })]
  | .cleans value =>
    let (_, p, v) := v.submission i (Evaluation.cleanJob stateName value)
    [(.submitsCleaning p, v)]
  | .submitsCleaning p =>
    match p.outcome? with
    | some _ => [(.gone, v)]
    | none => (p.next v.scheduler).map fun (p, s) => (.submitsCleaning p, { v with scheduler := s })
  | .gone => []

/-- What the follower does when its pause is over. -/
def late (backoff : Backoff) (stateName : String) (i : Nat) (v : View τ) :
    Poller (Job (Desk τ)) → Option (Poller (Job (Desk τ)) × View τ)
  | .pauses value delay =>
    let (serial, p, v) := v.submission i (Evaluation.lookJob i stateName)
    some (.submits serial p value ((backoff.next? delay).getD backoff.max), v)
  | _ => none

/-- How long the follower pauses, if it does. -/
def pause? {J : Type} : Poller J → Option Span
  | .pauses _ delay => some delay
  | _ => none

/-- The follower has nothing left to do. -/
def isGone {J : Type} : Poller J → Bool
  | .gone => true
  | _ => false

end Poller

end ScriptHost
