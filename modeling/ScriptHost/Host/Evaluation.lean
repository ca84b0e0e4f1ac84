import ScriptHost.Completion
import ScriptHost.Engine.Host.Globals
import ScriptHost.Host.Job
/-!
Evaluations. An evaluation runs a program and follows its value through the settlement of its promise.
It has two completions: the one of the script, bound to the generation, and the outcome, which only
the follower and a cancellation settle. The value never leaves the engine while it is pending: it is
kept under names that nobody else uses.
-/

namespace ScriptHost

/-- A program under way. -/
structure Evaluation where
  /-- The generation that it was submitted to. -/
  generation : Nat
  /-- The script, whose value is the name that keeps it. -/
  script : Completion String
  outcome : Completion Json
  deriving Inhabited

namespace Evaluation

/-- An evaluation that failed before there was anything to run. -/
def failed (e : Failure) : Evaluation :=
  ⟨0, { (Completion.fresh.resolve (.error e)).2 with watcher := .gone },
    { (Completion.fresh.resolve (.error e)).2 with watcher := .gone }⟩

/-- An evaluation submitted to a generation. -/
def submitted (generation : Nat) (signal : Signal) : Evaluation :=
  ⟨generation, .bound signal, .fresh⟩

/-- The form an evaluation has in records. -/
def describe (e : Evaluation) : String :=
  "AsyncResult \x7b outcome: " ++ e.outcome.describe ++ " \x7d"

end Evaluation

/-- What all jobs of a host share: the evaluations, and a state of the embedder's choice. -/
structure Desk (τ : Type) where
  evaluations : Array Evaluation := #[]
  /-- The number of names that were given out. -/
  names : Nat := 0
  own : τ
  deriving Inhabited

namespace Desk

variable {τ : Type}

/-- The number of characters by which names that nobody else uses differ. -/
def nameLength : Nat := 20

/-- The beginning of the names that keep values. -/
def valueStart : String := "__squall_value_"

/-- The beginning of the names that keep state objects. -/
def stateStart : String := "__squall_await_"

/-- A name that was not given out before. -/
def freshName (d : Desk τ) (start : String) : String × Desk τ :=
  let digits := Nat.toDigits 10 d.names
  let padding := List.replicate (nameLength - digits.length) '0'
  (start ++ String.ofList (padding ++ digits), { d with names := d.names + 1 })

/-- An evaluation by its number. -/
def evaluation (d : Desk τ) (i : Nat) : Evaluation := (d.evaluations[i]?).getD default

/-- Change an evaluation. -/
def change (d : Desk τ) (i : Nat) (f : Evaluation → Evaluation) : Desk τ :=
  { d with evaluations := d.evaluations.modify i f }

/-- Offer what came of the script; whether that was taken. -/
def offerScript (d : Desk τ) (i : Nat) (r : Except Failure String) : Bool × Desk τ :=
  let (taken, c) := (d.evaluation i).script.offer r
  (taken, d.change i ({ · with script := c }))

/-- Announce what came of the script. -/
def announceScript (d : Desk τ) (i : Nat) : Desk τ :=
  d.change i fun e => { e with script := e.script.announce }

/-- Offer an outcome; whether it was taken. -/
def offerOutcome (d : Desk τ) (i : Nat) (r : Except Failure Json) : Bool × Desk τ :=
  let (taken, c) := (d.evaluation i).outcome.offer r
  (taken, d.change i ({ · with outcome := c }))

/-- Announce the outcome. -/
def announceOutcome (d : Desk τ) (i : Nat) : Desk τ :=
  d.change i fun e => { e with outcome := e.outcome.announce }

/-- The watchers of an evaluation look, given the signal of its generation. -/
def watch (d : Desk τ) (i : Nat) (signal : Signal) : Desk τ :=
  d.change i fun e =>
    { e with script := e.script.watch signal, outcome := e.outcome.watch ⟨false⟩ }

end Desk

namespace Evaluation

variable {τ : Type}

/-- Offer what came of a program; its value is not kept any longer if nobody waits for it. -/
def offeringScript (i : Nat) (valueName : String) (r : Except Failure Unit) : Job (Desk τ) :=
  .share fun d =>
    let (taken, d) := d.offerScript i (r.map fun () => valueName)
    let rest : Job (Desk τ) := match taken, r with
      | true, _ => .put (·.announceScript i) .done
      | false, .ok () => .compute (Engine.dropGlobal valueName) fun () => .done
      | false, .error _ => .done
    (d, rest)

/-- Run the program of an evaluation and keep its value. -/
def scriptJob (i : Nat) (p : Program) (valueName : String) : Job (Desk τ) :=
  .compute (Engine.evaluateInto valueName p) (offeringScript i valueName)

/-- Offer the outcome that a look at the state object gave, if any. -/
def offering (i : Nat) (r : Option (Except Failure Json)) : Job (Desk τ) :=
  match r with
  | some r =>
    .share fun d =>
      let (taken, d) := d.offerOutcome i r
      (d, if taken then .put (·.announceOutcome i) .done else .done)
  | none => .done

/-- Hand the value on to its promise and look at the outcome once. -/
def followJob (i : Nat) (valueName stateName : String) : Job (Desk τ) :=
  .compute (Engine.followAt valueName stateName) (offering i)

/-- Look at the outcome. -/
def lookJob (i : Nat) (stateName : String) : Job (Desk τ) :=
  .compute (Engine.outcomeAt stateName) (offering i)

/-- Take away what was kept. -/
def cleanJob (stateName : String) (valueName : Option String) : Job (Desk τ) :=
  .compute (Engine.dropKept stateName valueName) fun () => .done

end Evaluation

end ScriptHost
