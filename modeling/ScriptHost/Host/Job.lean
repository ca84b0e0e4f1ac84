import ScriptHost.Engine.Machine
/-!
Jobs. A job is a tree of what it does on the worker: computations of the engine, and requests to the
host in between. Jobs share a state `σ` with each other and with their submitters.
-/

namespace ScriptHost

/-- What a job does. -/
inductive Job (σ : Type) : Type where
  /-- The job is done; what came of it counts for jobs that start an engine. -/
  | ended (r : Except Failure Unit)
  /-- The job breaks off. -/
  | panicked (text : String)
  /-- A computation of the engine, which says how the job goes on. -/
  | engine (m : Engine.World → Engine.Tree (Job σ))
  /-- Look at what jobs share, and change it. -/
  | share (f : σ → σ × Job σ)
  /-- Wait until what jobs share is as it should be. -/
  | await (ready : σ → Bool) (next : Job σ)
  | sleep (d : Span) (next : Job σ)
  /-- Submit a job; whether it was accepted. -/
  | submit (job : Job σ) (next : Bool → Job σ)
  | start (next : Except Failure Unit → Job σ)
  | stop (next : Except Failure Unit → Job σ)
  /-- Request that the running script be aborted. -/
  | interrupt (reason : String) (next : Job σ)
  /-- Add a job that starts every later engine, behind the others or before them. -/
  | addHook (before : Bool) (hook : Job σ) (next : Job σ)
  /-- End with the jobs that start an engine, one after another. -/
  | hooks

namespace Job

variable {σ : Type}

/-- Nothing is left to do. -/
def done : Job σ := .ended (.ok ())

instance : Inhabited (Job σ) := ⟨done⟩

/-- Compute with the engine and go on with the value. -/
def compute {α : Type} (m : Engine.M α) (next : α → Job σ) : Job σ :=
  .engine fun w => (m w).bind fun a w => .ok (next a) w

/-- Change what jobs share and go on. -/
def put (f : σ → σ) (next : Job σ) : Job σ := .share fun s => (f s, next)

end Job

end ScriptHost
