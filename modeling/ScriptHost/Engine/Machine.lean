import ScriptHost.Engine.Invoke
import ScriptHost.Engine.Realm
/-!
The machine that answers the questions of computations. It keeps the calls that are under way on a
stack and the suspended bodies in a table, and stops where a script asks whether it may go on; whoever
runs the machine answers that.
-/

namespace ScriptHost.Engine

/-- How a computation goes on when its question is answered. -/
abbrev Answering (α : Type) := Reply → World → Tree α

/-- The calls that are under way, innermost first, below the computation that runs. -/
inductive Stack (α : Type) where
  | bottom (next : Answering α)
  /-- A call; `owner`: the suspended body that it runs, if it runs one. -/
  | frame (next : Answering Value) (owner : Option Nat) (rest : Stack α)

/-- What runs: the outermost computation, or one that it called. -/
inductive Current (α : Type) where
  | outer (t : Tree α)
  /-- `owner`: the suspended body that runs, if one does. -/
  | inner (t : Tree Value) (owner : Option Nat) (stack : Stack α)

/-- The suspended bodies: how each goes on. -/
abbrev Parked := Std.HashMap Nat (Answering Value)

/-- How far a run came. -/
inductive Run (α : Type) where
  | ended (r : Except Thrown α) (w : World) (parked : Parked)
  /-- A script asks whether it may go on. -/
  | asks (w : World) (parked : Parked) (next : Bool → World → Current α)

/-- Calls that may be under way at once when nothing else is said. -/
def deepestCall : Nat := 2000

/-- Bytes of stack that a call is taken to need. -/
def callSize : Nat := 512

/-- The error that there are too many calls under way. -/
def overflow (w : World) : Reply × World :=
  let (e, w) := w.makeError .range "Maximum call stack size exceeded"
  (.thrown (.value e), w)

/-- A question of the computation that runs: what runs next, or the question whether to go on. -/
inductive Step (α : Type) where
  | goes (c : Current α) (parked : Parked)
  | asks (w : World) (parked : Parked) (next : Bool → World → Current α)

/-- One call more. -/
def World.enter (w : World) : World := { w with frames := w.frames + 1 }

/-- One call less. -/
def World.leave (w : World) : World := { w with frames := w.frames - 1 }

/-- Scopes are kept by something that goes on later. -/
def World.keeps (w : World) : World := { w with captures := w.captures + 1 }

/-- Say where a suspended body is. -/
def World.setProgress (w : World) (id : Nat) (p : Progress) : World := w.setObj id (·.withProgress p)

/-- The reply that goes on with a suspended body. -/
def replyFor (mode : Resume) (v : Value) : Reply :=
  match mode with
  | .next => .ok v
  | .throw_ => .thrown (.value v)
  | .return_ => .thrown (.leave v)

/-- Answer a question; `again` goes on with who asked, `below` is the stack of what is called. -/
def answer {α : Type} (limit : Nat) (q : Request) (w : World) (again : Reply → World → Current α)
    (below : Stack α) (parked : Parked) : Step α :=
  match q with
  | .poll => .asks w parked fun goesOn w => again (if goesOn then .ok .undefined else .thrown .abort) w
  | .suspend _ v => .goes (again (.ok v) w) parked
  | .call f this args =>
    if w.frames ≥ limit then
      let (r, w) := overflow w
      .goes (again r w) parked
    else
      .goes (.inner ((do
        tick
        callValue f this args) w.enter) none below) parked
  | .construct f args newTarget =>
    if w.frames ≥ limit then
      let (r, w) := overflow w
      .goes (again r w) parked
    else
      .goes (.inner ((do
        tick
        constructValue f args newTarget) w.enter) none below) parked
  | .resume id mode v =>
    if w.frames ≥ limit then
      let (r, w) := overflow w
      .goes (again r w) parked
    else
      let w := w.enter.keeps.setProgress id .running
      match parked[id]? with
      | some next => .goes (.inner (next (replyFor mode v) w) (some id) below) (parked.erase id)
      | none =>
        match ((w.obj id).coroutine?) with
        | some co => .goes (.inner (runCoroutine co w) (some id) below) parked
        | none => .goes (again (.ok .undefined) w.leave) parked

/-- The end of a call, for who called. -/
def conclude (owner : Option Nat) (r : Except Thrown Value) (w : World) : Reply × World :=
  let w := match owner with
    | some id => w.leave.setProgress id .finished
    | none => w.leave
  match r, owner with
  | .ok v, _ => (.ok v, w)
  | .error (.leave v), some _ => (.ok v, w)
  | .error t, _ => (.thrown t, w)

/-- Give a reply to the innermost call of a stack. -/
def replyTo {α : Type} (stack : Stack α) (r : Reply) (w : World) : Current α :=
  match stack with
  | .bottom next => .outer (next r w)
  | .frame next owner rest => .inner (next r w) owner rest

/-- The world that a computation has come to. -/
def Tree.world {α : Type} : Tree α → World
  | .ok _ w | .thrown _ w | .ask _ w _ => w

/-- The world that what runs has come to. -/
def Current.world {α : Type} : Current α → World
  | .outer t => t.world
  | .inner t _ _ => t.world

/-- Run until everything is done or a script asks whether it may go on. -/
def runFor {α : Type} (limit : Nat) : Nat → Current α → Parked → Run α
  | 0, c, parked => .asks c.world parked fun _ _ => c
  | n + 1, c, parked =>
    let step : Step α ⊕ (Except Thrown α × World) := match c with
      | .outer (.ok a w) => .inr (.ok a, w)
      | .outer (.thrown t w) => .inr (.error t, w)
      | .outer (.ask q w next) =>
        .inl (answer limit q w (fun r w => .outer (next r w)) (.bottom next) parked)
      | .inner (.ok v w) owner stack =>
        let (r, w) := conclude owner (.ok v) w
        .inl (.goes (replyTo stack r w) parked)
      | .inner (.thrown t w) owner stack =>
        let (r, w) := conclude owner (.error t) w
        .inl (.goes (replyTo stack r w) parked)
      | .inner (.ask (.suspend waits v) w next) (some id) stack =>
        let w := w.leave.keeps.setProgress id .parked
        .inl (.goes (replyTo stack (.suspended waits v) w) (parked.insert id next))
      | .inner (.ask q w next) owner stack =>
        .inl (answer limit q w (fun r w => .inner (next r w) owner stack) (.frame next owner stack)
          parked)
    match step with
    | .inl (.goes c parked) => runFor limit n c parked
    | .inl (.asks w parked next) => .asks w parked next
    | .inr (r, w) => .ended r w parked

/-- An engine between two runs. -/
structure Machine where
  world : World
  parked : Parked
  /-- Calls that may be under way at once. -/
  limit : Nat
  deriving Inhabited

namespace Machine

/-- Bytes of memory that a new engine takes. -/
def leastMemory : Nat := 150000

/-- An engine cannot be made within a limit on memory; no limit is 0. -/
def refusal? (memoryLimit : Option Nat) : Option Failure :=
  match memoryLimit with
  | some limit =>
    if limit ≠ 0 && limit < leastMemory then
      some (.engine "Allocation failed while creating object")
    else none
  | none => none

/-- An engine in the world that every engine starts with. -/
def fresh (outside : Outside) (memoryLimit stackLimit : Option Nat) : Machine :=
  { world := { Realm.fresh with outside, memoryLimit }
    parked := ∅
    limit := match stackLimit with
      | some bytes => if bytes = 0 then deepestCall else bytes / callSize
      | none => deepestCall }

/-- Run a computation. -/
def start {α : Type} (m : Machine) (work : M α) : Run α :=
  runFor m.limit endless (.outer (work m.world)) m.parked

end Machine

end ScriptHost.Engine
