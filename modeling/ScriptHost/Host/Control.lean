import ScriptHost.Host.Clock
import ScriptHost.Script.Check
/-!
What the owner of a host can do: start and stop it, hand in jobs and programs, and wait for what comes
of them. The owner is a thread of its own; where it has to wait, the other threads go on meanwhile.
-/

namespace ScriptHost.Host

variable {τ : Type}

/-! ## Starting and stopping -/

/-- Go on with a start to its end. -/
def driveStart (h : Host τ) (p : Starting (Work τ)) : Nat → Except Failure Unit × Host τ
  | 0 => (.error .shutdownTimeout, h)
  | n + 1 =>
    match p.outcome? with
    | some r => (r, h)
    | none =>
      match h.stepStart p with
      | some (p, h) => h.driveStart p n
      | none => (h.advance none).2.driveStart p n

/-- Start a new generation, unless the host runs. -/
def startFresh (h : Host τ) : Except Failure Unit × Host τ := h.driveStart .enters Engine.endless

/-- Start the host; nothing happens if it runs. -/
def start (h : Host τ) : Except Failure Unit × Host τ :=
  match h.startFresh with
  | (.error .alreadyRunning, h) => (.ok (), h)
  | r => r

/-- Go on with a stop to its end. `deadline`: how long the step that it waits in may take. -/
def driveStop (h : Host τ) (p : Stopping) (deadline : Span) : Nat → Except Failure Unit × Host τ
  | 0 => (.error .shutdownTimeout, h)
  | n + 1 =>
    let goOn (h : Host τ) (p : Stopping) : Except Failure Unit × Host τ :=
      let timeout := match p.timed? with
        | some false => h.settings.softTimeout
        | _ => h.settings.hardTimeout
      h.driveStop p (h.now.plus timeout) n
    match p.outcome? with
    | some r => (r, h)
    | none =>
      match p.next h.isFinished h.scheduler with
      | (p, s) :: _ => goOn { h with scheduler := s } p
      | [] =>
        if p.timed?.isSome && deadline.le h.now then
          match p.late h.scheduler with
          | some (p, s) => goOn { h with scheduler := s } p
          | none => (.error .shutdownTimeout, h)
        else
          match h.advance (if p.timed?.isSome then some deadline else none) with
          | (true, h) => h.driveStop p deadline n
          | (false, h) => (.error .shutdownTimeout, h)

/-- Stop the generation, if the host runs. -/
def stopRunning (h : Host τ) : Except Failure Unit × Host τ := h.driveStop .enters h.now Engine.endless

/-- Stop the host; nothing happens if it does not run. -/
def stop (h : Host τ) : Except Failure Unit × Host τ :=
  match h.stopRunning with
  | (.error .notRunning, h) => (.ok (), h)
  | r => r

/-- The host runs. -/
def isRunning (h : Host τ) : Bool := h.scheduler.running

/-- The form a host has in records. -/
def describe (h : Host τ) : String :=
  "Vm \x7b running: " ++ toString h.isRunning ++ ", registry: " ++ h.registry.describe ++ " \x7d"

/-! ## Jobs -/

/-- Go on with a submission to its end; whether the job was accepted. -/
def driveSubmission (h : Host τ) (p : Submission (Work τ)) : Nat → Bool × Host τ
  | 0 => (false, h)
  | n + 1 =>
    match p.outcome? with
    | some accepted => (accepted, h)
    | none =>
      match p.next h.scheduler with
      | (p, s) :: _ => { h with scheduler := s }.driveSubmission p n
      | [] =>
        match h.advance none with
        | (true, h) => h.driveSubmission p n
        | (false, h) => (false, h)

/-- Hand in a job for a generation; whether it was accepted. -/
def submit (h : Host τ) (generation : Nat) (j : Work τ) : Bool × Host τ :=
  let (e, s) := h.scheduler.envelop generation (.job j)
  { h with scheduler := s }.driveSubmission (.looks false e) Engine.endless

/-- Hand in a job for the current generation; whether it was accepted. -/
def run (h : Host τ) (j : Work τ) : Bool × Host τ :=
  let (p, h) := h.beginSubmission false j
  h.driveSubmission p Engine.endless

/-- Request that the running script be aborted. -/
def interrupt (h : Host τ) (reason : String) : Host τ :=
  { h with scheduler := h.scheduler.interrupt reason }

/-- Add a job that starts every later engine, behind the others or before them. -/
def addHook (h : Host τ) (before : Bool) (hook : Work τ) : Host τ :=
  { h with hooks := if before then hook :: h.hooks else h.hooks ++ [hook] }

/-! ## Programs -/

/-- Compile a text, with the transform of the registry for one that is refused. -/
def compile (h : Host τ) (name source : String) : Except Failure Program × Host τ :=
  match Program.compile Script.check h.registry.serial name source h.registry.transform with
  | .ok p => (.ok p, { h with registry := { h.registry with serial := h.registry.serial + 1 } })
  | .error e => (.error e, h)

/-- A further evaluation. -/
def addEvaluation (h : Host τ) (e : Evaluation) : Nat × Host τ :=
  (h.desk.evaluations.size, { h with desk := { h.desk with evaluations := h.desk.evaluations.push e } })

/-- Evaluate a program: the number of its evaluation. -/
def runProgram (h : Host τ) (p : Program) : Nat × Host τ :=
  let g := h.scheduler.generation
  let (i, h) := h.addEvaluation (.submitted g (h.scheduler.signal g))
  let (valueName, desk) := h.desk.freshName Desk.valueStart
  let (stateName, desk) := desk.freshName Desk.stateStart
  let (_, h) := { h with desk }.submit g (Evaluation.scriptJob i p valueName)
  (i, { h with threads := h.threads ++ [.follower i stateName h.now .awaitsScript] })

/-- Compile and evaluate a text. -/
def runScript (h : Host τ) (name source : String) : Nat × Host τ :=
  match h.compile name source with
  | (.ok p, h) => h.runProgram p
  | (.error e, h) => h.addEvaluation (.failed e)

/-- The name of a text that has no name. -/
def anonymous : String := "<eval>"

/-- An evaluation by its number. -/
def evaluation (h : Host τ) (i : Nat) : Evaluation := h.desk.evaluation i

/-- Wait for the outcome of an evaluation. -/
def outcomeOf (h : Host τ) (i : Nat) : Except Failure Json × Host τ :=
  let (_, h) := h.until_ fun h => (h.evaluation i).outcome.ready
  (((h.evaluation i).outcome.wait?).getD (.error .shutdownTimeout), h)

/-- Give an evaluation up. -/
def cancel (h : Host τ) (i : Nat) : Host τ :=
  { h with desk := h.desk.change i fun e => { e with outcome := e.outcome.cancel } }

/-! ## Modules -/

/-- Register a module. -/
def setModule (h : Host τ) (m : Module) : Host τ := { h with registry := h.registry.setModule m }

/-- Use another transform, or none. -/
def setTransform (h : Host τ) (t : Option Transform) : Host τ :=
  { h with registry := { h.registry with transform := t } }

/-! ## Records -/

/-- The lines of the console so far, which are forgotten. -/
def takeConsole (h : Host τ) : List ConsoleLine × Host τ := (h.console.reverse, { h with console := [] })

/-- The lines of the log so far, which are forgotten. -/
def takeLog (h : Host τ) : List LogLine × Host τ :=
  (h.scheduler.log.reverse, { h with scheduler := { h.scheduler with log := [] } })

end ScriptHost.Host
