import ScriptHost.Engine.World
/-!
Computations of the engine. A computation is a tree: it ends with a value or something thrown, or it
asks a question, whose answer it goes on with. Calls are questions, so a computation is never deeper
than the text of one function, and whoever answers keeps the stack. Every node carries the world as it
is then.

`Engine.M` is the monad of computations; `bind_assoc` and the unit laws hold of trees by induction.
-/

namespace ScriptHost.Engine

/-- What a computation ends with instead of a value. -/
inductive Thrown where
  | value (v : Value)
  /-- The script is aborted; no handler of it runs. -/
  | abort
  /-- A generator is asked to return; only final blocks run. -/
  | leave (v : Value)
  deriving Inhabited

/-- A question. -/
inductive Request where
  | call (f this : Value) (args : Array Value)
  | construct (f : Value) (args : Array Value) (newTarget : Value)
  /-- Go on with a suspended body. -/
  | resume (id : Nat) (mode : Resume) (v : Value)
  /-- Suspend the body that is running: to hand out a value, or to wait for one. -/
  | suspend (waits : Bool) (v : Value)
  /-- May the script go on? -/
  | poll
  deriving Inhabited

/-- An answer. -/
inductive Reply where
  | ok (v : Value)
  | thrown (t : Thrown)
  /-- The body was suspended again. -/
  | suspended (waits : Bool) (v : Value)
  deriving Inhabited

/-- A computation that has come as far as its first question. -/
inductive Tree (α : Type) where
  | ok (a : α) (w : World)
  | thrown (t : Thrown) (w : World)
  | ask (q : Request) (w : World) (next : Reply → World → Tree α)

namespace Tree

/-- Go on with the value of a computation. -/
def bind {α β : Type} (t : Tree α) (f : α → World → Tree β) : Tree β :=
  match t with
  | .ok a w => f a w
  | .thrown e w => .thrown e w
  | .ask q w next => .ask q w fun r w => (next r w).bind f

/-- Go on with the value of a computation or with what it threw. -/
def settle {α β : Type} (t : Tree α) (f : Except Thrown α → World → Tree β) : Tree β :=
  match t with
  | .ok a w => f (.ok a) w
  | .thrown e w => f (.error e) w
  | .ask q w next => .ask q w fun r w => (next r w).settle f

theorem bind_assoc {α β γ : Type} (t : Tree α) (f : α → World → Tree β) (g : β → World → Tree γ) :
    (t.bind f).bind g = t.bind fun a w => (f a w).bind g := by
  induction t with
  | ok a w => rfl
  | thrown e w => rfl
  | ask q w next ih => simp only [bind, ih]

theorem bind_ok {α : Type} (t : Tree α) : t.bind Tree.ok = t := by
  induction t with
  | ok a w => rfl
  | thrown e w => rfl
  | ask q w next ih => simp only [bind, ih]

end Tree

/-- A computation. -/
def M (α : Type) : Type := World → Tree α

namespace M

/-- The computation that has a value. -/
@[inline] def pure {α : Type} (a : α) : M α := fun w => .ok a w

/-- One computation after another. -/
@[inline] def bind {α β : Type} (m : M α) (f : α → M β) : M β := fun w =>
  match m w with
  | .ok a w => f a w
  | .thrown e w => .thrown e w
  | .ask q w next => .ask q w fun r w => (next r w).bind f

instance : Monad M where
  pure := M.pure
  bind := M.bind

instance {α : Type} [Inhabited α] : Inhabited (M α) := ⟨M.pure default⟩

end M

/-- The world as it is. -/
@[inline] def world : M World := fun w => .ok w w

/-- Look something up in the world. -/
@[inline] def look {α : Type} (f : World → α) : M α := fun w => .ok (f w) w

/-- Change the world. -/
@[inline] def change (f : World → World) : M Unit := fun w => .ok () (f w)

/-- Change the world and find something out by it. -/
@[inline] def update {α : Type} (f : World → α × World) : M α := fun w =>
  match f w with
  | (a, w) => .ok a w

/-- End with something thrown. -/
@[inline] def raise {α : Type} (t : Thrown) : M α := fun w => .thrown t w

/-- End with a thrown value. -/
@[inline] def throwValue {α : Type} (v : Value) : M α := fun w => .thrown (.value v) w

/-- A computation's value or what it threw. -/
def outcome {α : Type} (m : M α) : M (Except Thrown α) := fun w =>
  (m w).settle fun r w => .ok r w

/-- Give an outcome back. -/
def release {α : Type} : Except Thrown α → M α
  | .ok a => pure a
  | .error t => raise t

/-- Ask a question that has a value for an answer. -/
def askValue (q : Request) : M Value := fun w =>
  .ask q w fun r w =>
    match r with
    | .ok v => .ok v w
    | .thrown t => .thrown t w
    | .suspended _ v => .ok v w

/-- Call a function. -/
def call (f this : Value) (args : Array Value) : M Value := askValue (.call f this args)

/-- Call a function by `new`. -/
def construct (f : Value) (args : Array Value) (newTarget : Value) : M Value :=
  askValue (.construct f args newTarget)

/-- How far a suspended body came when it was gone on with. -/
inductive Resumed where
  | finished (v : Value)
  | yields (v : Value)
  | waits (v : Value)
  deriving Inhabited

/-- Go on with a suspended body. -/
def resume (id : Nat) (mode : Resume) (v : Value) : M Resumed := fun w =>
  .ask (.resume id mode v) w fun r w =>
    match r with
    | .ok v => .ok (.finished v) w
    | .thrown t => .thrown t w
    | .suspended true v => .ok (.waits v) w
    | .suspended false v => .ok (.yields v) w

/-- Suspend the body that is running. -/
def suspend (waits : Bool) (v : Value) : M Value := askValue (.suspend waits v)

/-- One round of a loop. -/
def tick : M Unit := fun w =>
  if w.ticks = 0 then
    .ask .poll { w with ticks := pollInterval } fun r w =>
      match r with
      | .thrown t => .thrown t w
      | _ => .ok () w
  else .ok () { w with ticks := w.ticks - 1 }

/-- Rounds of anything: more than any run can make. -/
def endless : Nat := 0x1000000000000000

end ScriptHost.Engine
