import ScriptHost.Host.Basic
/-!
Single steps of the workers and the other threads of a host. A step says whether the thread could do
anything at all; a script that asks whether it may go on is told so unless a request to abort it was
made.
-/

namespace ScriptHost.Host

variable {τ : Type}

/-! ## Running jobs -/

/-- How far a job came by one step. -/
inductive Advance (τ : Type) where
  | goes (a : Activity τ)
  | waits (a : Activity τ)
  | ended (panicked : Bool)

/-- Time that passes while a script goes on from one question to the next. -/
def turn : Span := .micros 500

/-- Give a running job's computation the engine, up to its next pause. -/
def compute (h : Host τ) (m : Engine.Machine) (hooks : Option (List (Work τ)))
    (begin_ : Engine.World → Engine.Current (Work τ)) : Advance τ × Host τ × Engine.Machine :=
  match m with
  | ⟨w, parked, limit⟩ =>
    match Engine.runFor limit Engine.endless (begin_ (h.lend w)) parked with
    | .ended r w parked =>
      let h := h.takeBack w.outside
      let j : Work τ := match r with
        | .ok j => j
        | .error _ => .done
      (.goes ⟨.doing j, hooks⟩, h, ⟨returned w, parked, limit⟩)
    | .asks w parked next =>
      let h := h.takeBack w.outside
      (.goes ⟨.asking next, hooks⟩, h, ⟨returned w, parked, limit⟩)

/-- A job has come to its end: the next one of those that start the engine, or nothing. -/
def finish (hooks : Option (List (Work τ))) (panicked : Bool) : Advance τ :=
  match hooks with
  | none => .ended panicked
  | some [] => .ended false
  | some (j :: rest) => .goes ⟨.doing j, some rest⟩

/-- A job that starts the engine failed. -/
def noteHook (h : Host τ) (e : Failure) : Host τ :=
  h.note (.warning "Runtime init hook failed" [("error", .str e.message)])

/-- A job has broken off. -/
def notePanic (h : Host τ) (hooks : Option (List (Work τ))) (text : String) : Host τ :=
  match hooks with
  | none => h.note (.failure ("Job panicked: " ++ text))
  | some _ =>
    let text := "Worker panic: " ++ text
    (h.note (.failure text)).noteHook (.internal text)

/-- One step of a running job. -/
def stepActivity (h : Host τ) (m : Engine.Machine) (a : Activity τ) :
    Advance τ × Host τ × Engine.Machine :=
  match a with
  | ⟨.doing j, hooks⟩ =>
    match j with
    | .ended r =>
      let h := match r, hooks with
        | .error e, some _ => h.noteHook e
        | _, _ => h
      (finish hooks false, h, m)
    | .panicked text => (finish hooks true, h.notePanic hooks text, m)
    | .engine work => h.compute m hooks fun w => .outer (work w)
    | .share f =>
      let (desk, j) := f h.desk
      (.goes ⟨.doing j, hooks⟩, { h with desk }, m)
    | .await ready next =>
      if ready h.desk then (.goes ⟨.doing next, hooks⟩, h, m)
      else (.waits ⟨.doing (.await ready next), hooks⟩, h, m)
    | .sleep d next => (.goes ⟨.sleeping (h.now.plus d) next, hooks⟩, h, m)
    | .submit j next =>
      let (p, h) := h.beginSubmission true j
      (.goes ⟨.submitting p next, hooks⟩, h, m)
    | .start next => (.goes ⟨.starting .enters next, hooks⟩, h, m)
    | .stop next => (.goes ⟨.doing (next (.error Stopping.fromInside)), hooks⟩, h, m)
    | .interrupt reason next =>
      (.goes ⟨.doing next, hooks⟩, { h with scheduler := h.scheduler.interrupt reason }, m)
    | .addHook before hook next =>
      let all := if before then hook :: h.hooks else h.hooks ++ [hook]
      (.goes ⟨.doing next, hooks⟩, { h with hooks := all }, m)
    | .hooks => (finish (some h.hooks) false, h, m)
  | ⟨.asking next, hooks⟩ =>
    let g := m.world.outside.generation
    let (found, interrupt) := (h.scheduler.interruptOf g).fire
    let scheduler := h.scheduler.changeInterrupt g fun _ => interrupt
    { h with scheduler, now := h.now.plus turn, rounds := h.rounds + 1 }.compute m hooks
      fun w => next (!found) w
  | ⟨.sleeping due next, hooks⟩ =>
    if due.le h.now then (.goes ⟨.doing next, hooks⟩, h, m)
    else (.waits ⟨.sleeping due next, hooks⟩, h, m)
  | ⟨.submitting p next, hooks⟩ =>
    match p with
    | .handsOver e =>
      (.goes ⟨.doing (next true), hooks⟩, { h with threads := h.threads ++ [.helper (.sends e)] }, m)
    | .ended accepted => (.goes ⟨.doing (next accepted), hooks⟩, h, m)
    | p =>
      match p.next h.scheduler with
      | [] => (.waits ⟨.submitting p next, hooks⟩, h, m)
      | (p, s) :: _ => (.goes ⟨.submitting p next, hooks⟩, { h with scheduler := s }, m)
  | ⟨.starting p next, hooks⟩ =>
    match p.outcome? with
    | some r => (.goes ⟨.doing (next r), hooks⟩, h, m)
    | none =>
      match h.stepStart p with
      | none => (.waits ⟨.starting p next, hooks⟩, h, m)
      | some (p, h) => (.goes ⟨.starting p next, hooks⟩, h, m)

/-! ## Workers -/

/-- A job that begins; the memory it may take is counted from here on. -/
def beginJob (j : Work τ) : Activity τ := ⟨.doing j, none⟩

/-- What a worker does after every task. -/
def restJob : Activity τ := ⟨.doing (.compute (Engine.runWaiting Engine.endless) fun () => .done), none⟩

/-- An engine whose next job may take all memory that there is. -/
def forgetUse (m : Engine.Machine) : Engine.Machine :=
  match m with
  | ⟨w, parked, limit⟩ => ⟨{ w with used := 0 }, parked, limit⟩

/-- A script of this worker asks whether it may go on. -/
def isAsking (k : Station τ) : Bool :=
  match k.place with
  | .runs _ ⟨.asking _, _⟩ | .settles ⟨.asking _, _⟩ => true
  | _ => false

/-- One step of a worker; whether it could do anything. -/
def stepStation (h : Host τ) (k : Station τ) : Bool × Host τ × Station τ :=
  match k with
  | ⟨g, place, m⟩ =>
    match place with
    | .runs serial a =>
      match h.stepActivity m a with
      | (.goes a, h, m) => (true, h, ⟨g, .runs serial a, m⟩)
      | (.waits a, h, m) => (false, h, ⟨g, .runs serial a, m⟩)
      | (.ended panicked, h, m) => (true, h, ⟨g, .ran panicked, m⟩)
    | .settles a =>
      match h.stepActivity m a with
      | (.goes a, h, m) => (true, h, ⟨g, .settles a, m⟩)
      | (.waits a, h, m) => (false, h, ⟨g, .settles a, m⟩)
      | (.ended _, h, m) => (true, h, ⟨g, .looks, m⟩)
    | place =>
      match place.next g beginJob restJob h.scheduler with
      | [] => (false, h, ⟨g, place, m⟩)
      | (next, s) :: _ =>
        let m := match next with
          | .runs .. => forgetUse m
          | _ => m
        (true, { h with scheduler := s }, ⟨g, next, m⟩)

/-! ## Other threads -/

/-- A timer of a generation waits to fire. -/
def isActive (h : Host τ) (g id : Nat) : Bool :=
  h.stations.any fun k => k.generation == g && k.machine.world.outside.timers.isActive id

/-- The job of a timer. -/
def timerJob (t : Engine.Timer) : Work τ :=
  .compute (Engine.fireTimer t.id t.repeating) fun () => .done

/-- The delays between two looks at an outcome. -/
def backoff (h : Host τ) : Backoff := .ofSettings h.settings

/-- What a follower sees. -/
def view (h : Host τ) : Poller.View τ := ⟨h.scheduler, h.desk⟩

/-- The host after a follower's step, and the follower. -/
def withView (h : Host τ) (v : Poller.View τ) (i : Nat) (stateName : String)
    (p : Poller (Work τ)) : Option (Thread τ) × Host τ :=
  let h := { h with scheduler := v.scheduler, desk := v.desk }
  if p.isGone then (none, h)
  else
    let due := match p.pause? with
      | some delay => h.now.plus delay
      | none => h.now
    (some (.follower i stateName due p), h)

/-- One step of a thread: the thread as it goes on, if it does; nothing while it waits. -/
def stepThread (h : Host τ) : Thread τ → Option (Option (Thread τ) × Host τ)
  | .helper p =>
    match p.next h.scheduler with
    | [] => if p.outcome?.isSome then some (none, h) else none
    | (p, s) :: _ => some (some (.helper p), { h with scheduler := s })
  | .alarm g t due =>
    if h.scheduler.isOver g || !h.isActive g t.id then some (none, h)
    else if due.le h.now then
      let (e, s) := h.scheduler.envelop g (.job (timerJob t))
      some (some (.ringing g t (.looks false e)), { h with scheduler := s })
    else none
  | .ringing g t p =>
    match p.outcome? with
    | some accepted =>
      if accepted && t.repeating then some (some (.alarm g t (h.now.plus t.delay)), h)
      else some (none, h)
    | none =>
      match p.next h.scheduler with
      | [] => none
      | (p, s) :: _ => some (some (.ringing g t p), { h with scheduler := s })
  | .follower i stateName due p =>
    match p.next h.isUnderway h.backoff stateName i h.view with
    | (p, v) :: _ => some (h.withView v i stateName p)
    | [] =>
      if p.pause?.isSome && due.le h.now then
        match p.late h.backoff stateName i h.view with
        | some (p, v) => some (h.withView v i stateName p)
        | none => none
      else none

end ScriptHost.Host

namespace ScriptHost

variable {τ : Type}

/-- The time at which a thread can do something, if nothing else happens. -/
def Thread.due? : Thread τ → Option Span
  | .alarm _ _ due => some due
  | .follower _ _ due p => if p.pause?.isSome then some due else none
  | _ => none

/-- The time at which a worker can do something, if nothing else happens. -/
def Station.due? (k : Station τ) : Option Span :=
  match k.place with
  | .runs _ ⟨.sleeping due _, _⟩ => some due
  | _ => none

end ScriptHost
