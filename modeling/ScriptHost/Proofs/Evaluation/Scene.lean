import ScriptHost.Host.Basic
import ScriptHost.Proofs.Evaluation.Settling
import ScriptHost.Proofs.Scheduler.System
/-!
The threads around evaluations, on top of those around the scheduler. Every evaluation is followed by a thread
of its own once its program was handed in; each completion has a watcher; jobs offer what came of scripts and
the outcomes of evaluations, and callers make completions of their own, which anybody may offer to. An offer
that was taken is announced by another step. What jobs compute is left open: a job that runs may offer anything
to any completion, at any time.
-/
namespace ScriptHost

/-- A completion that can be offered to: what came of the script of an evaluation, its outcome, or one that a
    caller made. -/
inductive Spot where
  | script (i : Nat)
  | outcome (i : Nat)
  | other (k : Nat)
  deriving DecidableEq

/-- A scheduler with its threads, the evaluations, and the threads around these. -/
structure Scene (τ α : Type) where
  system : System (Work τ)
  desk : Desk τ
  /-- The completions that callers made, with the generations that they are bound to. -/
  others : Array (Nat × Completion α) := #[]
  /-- The followers of the evaluations, with the names of their state objects. -/
  followers : Nat → Option (String × Poller (Work τ)) := fun _ => none
  /-- The parties whose offers were taken and are not announced yet. -/
  debts : List (Party × Spot) := []

/-- One step of one thread. -/
inductive Move (τ α : Type) where
  | system (a : Action (Work τ))
  /-- A caller makes a completion that is bound to the generation of a handle. -/
  | create (handle : Nat)
  /-- A caller makes an evaluation; it hands the program in by a submission of its own. -/
  | evaluate (handle : Nat)
  /-- The caller has handed the program in, and the follower starts. -/
  | follow (i : Nat) (stateName : String)
  | cancel (i : Nat)
  | cancelOther (k : Nat)
  | watchScript (i choice : Nat)
  | watchOutcome (i choice : Nat)
  | watchOther (k choice : Nat)
  /-- The follower of an evaluation goes on with one of the steps it may take. -/
  | poll (i choice : Nat)
  /-- The pause of a follower is over. -/
  | pollLate (i : Nat)
  /-- The job of a worker offers what came of a script. -/
  | offerScript (g i : Nat) (r : Except Failure String)
  /-- The job of a worker offers an outcome. -/
  | offerOutcome (g i : Nat) (r : Except Failure Json)
  | offerOther (who : Party) (k : Nat) (r : Except Failure α)
  | announce (who : Party) (spot : Spot)

/-- An envelope is in the queue or in the hands of a worker. -/
def System.isUnderway {J : Type} (σ : System J) (serial : Nat) : Bool :=
  σ.scheduler.holds serial ||
    (List.range (σ.scheduler.generation+1)).any fun g => (σ.workers g).serial? == some serial

namespace Scene
variable {τ α : Type}

/-- A scheduler that was never started, and nothing to follow. -/
def init (capacity : Nat) (own : τ) : Scene τ α := { system := .init capacity, desk := { own } }

/-- The signal of a generation. -/
def signal (s : Scene τ α) (g : Nat) : Signal := s.system.scheduler.signal g

/-- What a follower sees. -/
def view (s : Scene τ α) : Poller.View τ := ⟨s.system.scheduler,s.desk⟩

/-- A party can do something else than announce what it has offered. -/
def isFree (s : Scene τ α) (who : Party) : Bool := s.system.isFree who && !s.debts.any (·.1 = who)

/-- A party owes an announcement if its offer was taken. -/
def owe (s : Scene τ α) (taken : Bool) (who : Party) (spot : Spot) : Scene τ α :=
  { s with debts := if taken then (who,spot) :: s.debts else s.debts }

/-- The follower of an evaluation has taken a step. -/
def arrive (s : Scene τ α) (i : Nat) (stateName : String) (p : Poller (Work τ)) (v : Poller.View τ) : Scene τ α :=
  { s with
    system := { s.system with scheduler := v.scheduler }
    desk := v.desk
    followers := Function.update s.followers i (some (stateName,p)) }

/-- The outcome of an announcement. -/
def announced (s : Scene τ α) : Spot → Scene τ α
  | .script i => { s with desk := s.desk.announceScript i }
  | .outcome i => { s with desk := s.desk.announceOutcome i }
  | .other k => { s with others := s.others.modify k fun (g,c) => (g,c.announce) }

/-- What comes of a move, if it can be taken. -/
def act (first : Work τ) (backoff : Backoff) (s : Scene τ α) : Move τ α → Option (Scene τ α)
  | .system a => (s.system.act first a).map fun system => { s with system }
  | .create handle =>
    if s.system.handles.contains handle then
      some { s with others := s.others.push (handle,.bound (s.signal handle)) }
    else none
  | .evaluate handle =>
    if s.system.handles.contains handle then
      some { s with desk := { s.desk with
        evaluations := s.desk.evaluations.push (.submitted handle (s.signal handle)) } }
    else none
  | .follow i stateName =>
    if i < s.desk.evaluations.size && (s.followers i).isNone then
      some { s with followers := Function.update s.followers i (some (stateName,.awaitsScript)) }
    else none
  | .cancel i => s.desk.evaluations[i]?.map fun e =>
      { s with desk := s.desk.change i ({ · with outcome := e.outcome.cancel }) }
  | .cancelOther k => s.others[k]?.map fun (g,c) => { s with others := s.others.modify k fun _ => (g,c.cancel) }
  | .watchScript i choice =>
    s.desk.evaluations[i]?.bind fun e => (e.script.watchNext (s.signal e.generation))[choice]?.map fun c =>
      { s with desk := s.desk.change i ({ · with script := c }) }
  | .watchOutcome i choice =>
    s.desk.evaluations[i]?.bind fun e => (e.outcome.watchNext ⟨false⟩)[choice]?.map fun c =>
      { s with desk := s.desk.change i ({ · with outcome := c }) }
  | .watchOther k choice =>
    s.others[k]?.bind fun (g,c) => (c.watchNext (s.signal g))[choice]?.map fun c =>
      { s with others := s.others.modify k fun _ => (g,c) }
  | .poll i choice =>
    (s.followers i).bind fun (stateName,p) =>
      (p.next s.system.isUnderway backoff stateName i s.view)[choice]?.map fun (q,v) => s.arrive i stateName q v
  | .pollLate i =>
    (s.followers i).bind fun (stateName,p) =>
      (p.late backoff stateName i s.view).map fun (q,v) => s.arrive i stateName q v
  | .offerScript g i r =>
    if s.isFree (.worker g) && i < s.desk.evaluations.size then
      let (taken,desk) := s.desk.offerScript i r
      some ({ s with desk }.owe taken (.worker g) (.script i))
    else none
  | .offerOutcome g i r =>
    if s.isFree (.worker g) && i < s.desk.evaluations.size then
      let (taken,desk) := s.desk.offerOutcome i r
      some ({ s with desk }.owe taken (.worker g) (.outcome i))
    else none
  | .offerOther who k r =>
    if s.isFree who then
      s.others[k]?.map fun (g,c) =>
        let (taken,c) := c.offer r
        { s with others := s.others.modify k fun _ => (g,c) }.owe taken who (.other k)
    else none
  | .announce who spot =>
    if s.debts.contains (who,spot) then some ({ s with debts := s.debts.erase (who,spot) }.announced spot)
    else none

/-- The scenes that some interleaving leads to, from a scheduler that was never started. -/
inductive Reachable (first : Work τ) (backoff : Backoff) (capacity : Nat) (own : τ) : Scene τ α → Prop where
  | init : Reachable first backoff capacity own (init capacity own)
  | act {s t : Scene τ α} (m : Move τ α) (reached : Reachable first backoff capacity own s)
    (taken : s.act first backoff m = some t) : Reachable first backoff capacity own t

/-- What comes of moves one after another. -/
def run (first : Work τ) (backoff : Backoff) (s : Scene τ α) : List (Move τ α) → Option (Scene τ α)
  | [] => some s
  | m :: rest =>
    match s.act first backoff m with
    | some t => t.run first backoff rest
    | none => none

theorem Reachable.run {first : Work τ} {backoff : Backoff} {capacity : Nat} {own : τ} {s t : Scene τ α}
    (reached : Reachable first backoff capacity own s) (moves : List (Move τ α))
    (taken : s.run first backoff moves = some t) : Reachable first backoff capacity own t := by
  induction moves generalizing s with
  | nil =>
    cases taken
    exact reached
  | cons m rest ih =>
    simp only [Scene.run] at taken
    cases step : s.act first backoff m with
    | none => simp [step] at taken
    | some u =>
      rw [step] at taken
      exact ih (.act m reached step) taken

end Scene

end ScriptHost
