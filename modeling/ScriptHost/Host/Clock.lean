import ScriptHost.Host.Step
/-!
The order in which the threads of a host take their steps, and the passing of time. Threads that can
do something do it before time passes; then the clock moves to the next moment at which one of them
can. While a script runs for long, time passes by turns of the script, and after many of them as if
nothing ran.
-/

namespace ScriptHost.Host

variable {τ : Type}

/-- The watchers of all evaluations that are followed look. -/
def watchAll (h : Host τ) : Host τ :=
  { h with desk := h.threads.foldl (fun d t =>
      match t with
      | .follower i .. => d.watch i (h.scheduler.signal (d.evaluation i).generation)
      | _ => d) h.desk }

/-- A step of the first thread that can take one; `passed` holds the threads before, last one
first. -/
def stepFirst (h : Host τ) (passed : List (Thread τ)) : List (Thread τ) → Option (Host τ)
  | [] => none
  | t :: rest =>
    match h.stepThread t with
    | none => h.stepFirst (t :: passed) rest
    | some (t, h') =>
      -- What the step itself has started comes behind all others.
      let started := h'.threads.drop h.threads.length
      some { h' with threads := passed.reverseAux (t.toList ++ rest) ++ started }

/-- A step of the first worker that can take one. `asked`: scripts may go on. -/
def stepWorkers (h : Host τ) (asked : Bool) (passed : List (Station τ)) :
    List (Station τ) → Bool × Host τ
  | [] => (false, { h with stations := passed.reverse })
  | k :: rest =>
    if isAsking k != asked then h.stepWorkers asked (k :: passed) rest
    else
      match h.stepStation k with
      | (true, h, k) => (true, { h with stations := passed.reverseAux (k :: h.stations ++ rest) })
      | (false, h, k) => h.stepWorkers asked (k :: passed) rest

/-- A step of some worker. -/
def stepSome (h : Host τ) (asked : Bool) : Bool × Host τ :=
  let stations := h.stations
  { h with stations := [] }.stepWorkers asked [] stations

/-- The next moment at which something is due. -/
def nextDue (h : Host τ) (limit : Option Span) : Option Span :=
  let all := h.threads.filterMap Thread.due? ++ h.stations.filterMap Station.due? ++ limit.toList
  let later := all.filter fun due => !due.le h.now
  later.foldl (fun best due => some ((best.getD due).min due)) none

/-- How often scripts go on in a row before the clock moves as if they did not. -/
def patience : Nat := 200

/-- Something happens: a step of a thread, or time passes, no further than to a limit. Nothing can
happen when all threads wait for each other. -/
def advance (h : Host τ) (limit : Option Span) : Bool × Host τ :=
  let h := h.watchAll
  match h.stepFirst [] h.threads with
  | some h => (true, { h with rounds := 0 })
  | none =>
    match h.stepSome false with
    | (true, h) => (true, { h with rounds := 0 })
    | (false, h) =>
      let due := h.nextDue limit
      let tired := h.rounds ≥ patience && due.isSome
      let passTime (h : Host τ) : Bool × Host τ :=
        match due with
        | some due => (true, { h with now := due, rounds := 0 })
        | none => (false, h)
      if tired then passTime h
      else
        match h.stepSome true with
        | (true, h) => (true, h)
        | (false, h) => passTime h

/-- Let things happen until something holds, or up to a moment; whether it came to hold. -/
def waitFor (h : Host τ) (ready : Host τ → Bool) (limit : Option Span) : Nat → Bool × Host τ
  | 0 => (false, h)
  | n + 1 =>
    let h := h.watchAll
    if ready h then (true, h)
    else if limit.any (·.le h.now) then (false, h)
    else
      match h.advance limit with
      | (true, h) => h.waitFor ready limit n
      | (false, h) => (false, h)

/-- Let things happen for as long as it takes. -/
def until_ (h : Host τ) (ready : Host τ → Bool) : Bool × Host τ :=
  h.waitFor ready none Engine.endless

/-- Let things happen for some time. -/
def pass (h : Host τ) (d : Span) : Host τ :=
  (h.waitFor (fun _ => false) (some (h.now.plus d)) Engine.endless).2

end ScriptHost.Host
