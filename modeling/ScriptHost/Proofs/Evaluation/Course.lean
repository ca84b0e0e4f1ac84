import ScriptHost.Proofs.Engine.Bookkeeping
import ScriptHost.Proofs.Evaluation.Scene
import ScriptHost.Proofs.Scheduler.Delivery
/-!
The course of one evaluation among everything else. The scheduler and its threads do what they like; the
evaluation has a follower, which is one of these threads, and what the follower and its caller hand in are errands,
which the worker of the generation runs. An errand goes on by computations of the engine, whose questions may be
answered in any way and with any world, and by what it shares with other jobs. All other jobs may do anything to
the engine at any time, and anything to the desk but to this evaluation, which they may cancel.
-/
namespace ScriptHost
open Engine (World Answer Thrown)
variable {τ : Type}

instance {J : Type} (a : Action J) (who : Party) : Decidable (a.Concerns who) :=
  match a with
  | .start other | .submit other _ _ | .go other _ _ | .failToHandOver other | .return other =>
    inferInstanceAs (Decidable (who = other))
  | .stop t => inferInstanceAs (Decidable (who = .thread t))
  | .handOver other t => inferInstanceAs (Decidable (who = other ∨ who = .thread t))
  | .takeHandle | .work _ _ | .finish _ _ | .settle _ | .interrupt _ => inferInstanceAs (Decidable False)

namespace Job
variable {σ : Type}

/-- Nothing is left to do. -/
def isEnded : Job σ → Bool
  | .ended _ => true
  | _ => false

theorem isEnded_iff {j : Job σ} : j.isEnded = true ↔ ∃ r, j = .ended r := by
  cases j <;> simp [isEnded]

end Job

/-- What does not change about an evaluation. -/
structure Plan where
  number : Nat
  generation : Nat
  program : Program
  /-- The name that keeps its value. -/
  valueName : String
  /-- The name that keeps its state object. -/
  stateName : String
  /-- The thread that follows it. -/
  thread : Nat

/-- A job on behalf of an evaluation. -/
inductive Errand where
  /-- To run the program. -/
  | script
  /-- To hand the kept value on. -/
  | follow (valueName : String)
  | look
  | clean (valueName : Option String)
  deriving DecidableEq

/-- The job that an errand is. -/
def Errand.job (c : Plan) : Errand → Work τ
  | .script => Evaluation.scriptJob c.number c.program c.valueName
  | .follow valueName => Evaluation.followJob c.number valueName c.stateName
  | .look => Evaluation.lookJob c.number c.stateName
  | .clean valueName => Evaluation.cleanJob c.stateName valueName

/-- How far an errand is. -/
structure Doing (τ : Type) where
  errand : Errand
  /-- What is left to do. -/
  rest : Work τ
  /-- It has come to the end of its first computation. -/
  started : Bool := false

/-- An errand that was handed in. -/
def Errand.doing (c : Plan) (errand : Errand) : Doing τ := ⟨errand,errand.job c,false⟩

namespace Poller
variable {J : Type}

/-- The submission that a follower is in. -/
def submission? : Poller J → Option (Submission J)
  | .submits _ p _ _ | .submitsCleaning p => some p
  | _ => none

/-- The errand that a step of a follower hands in. -/
def errand? : Poller J → Poller J → Option Errand
  | .awaitsScript, .submits _ _ value _ => some (.follow value)
  | .pauses _ _, .submits _ _ _ _ => some .look
  | .cleans value, .submitsCleaning _ => some (.clean value)
  | _, _ => none

/-- What a step of a follower is to the scheduler. -/
def action? (c : Plan) (choice : Nat) (p q : Poller (Work τ)) : Option (Action (Work τ)) :=
  match p.errand? q with
  | some errand => some (.submit (.thread c.thread) c.generation (errand.job c))
  | none =>
    match p.submission?, q.submission? with
    | none, _ => none
    | some _, some _ => some (.go (.thread c.thread) (.ok ()) choice)
    | some _, none => some (.return (.thread c.thread))

end Poller

/-- The state of everything that matters to an evaluation. -/
structure Course (τ : Type) where
  system : System (Work τ)
  journal : Journal (Work τ)
  ledger : Ledger (Work τ)
  desk : Desk τ
  /-- The world of the engine of the evaluation's generation. -/
  world : World
  follower : Option (Poller (Work τ)) := none
  /-- The errands that were handed in, by the serial numbers of their envelopes. -/
  errands : Nat → Option (Doing τ)

/-- One step of one thread. -/
inductive Turn (τ : Type) where
  /-- A step of the scheduler's threads other than the follower. -/
  | system (a : Action (Work τ))
  /-- The errand that runs comes to the end of a computation, with answers to its questions. -/
  | compute (answers : List Answer) (r : Except Thrown (Work τ)) (last : World)
  /-- The errand that runs looks at the desk and changes it. -/
  | share
  /-- Other jobs do something to the engine and to the desk. -/
  | elsewhere (world : World) (desk : Desk τ)
  | cancel
  | watchScript (choice : Nat)
  | watchOutcome (choice : Nat)
  /-- The follower starts. -/
  | follow
  /-- The follower goes on with one of the steps it may take. -/
  | poll (choice : Nat)
  /-- The pause of the follower is over. -/
  | late

namespace Course

/-- The errand that the worker runs, with its serial number. -/
def running? (c : Plan) (p : Course τ) : Option (Nat × Doing τ) :=
  (p.system.workers c.generation).running?.bind fun n => (p.errands n).map (n,·)

/-- What a follower sees. -/
def view (p : Course τ) : Poller.View τ := ⟨p.system.scheduler,p.desk⟩

/-- The scheduler's threads take a step. -/
def take (first : Work τ) (p : Course τ) (a : Action (Work τ)) : Option (Course τ) :=
  (p.system.act first a).map fun σ =>
    { p with system := σ, journal := p.journal.after p.system σ a, ledger := p.ledger.after p.system a }

/-- An errand goes on. -/
def goOn (p : Course τ) (n : Nat) (d : Doing τ) : Course τ := { p with errands := Function.update p.errands n (some d) }

/-- The evaluation changes. -/
def change (c : Plan) (p : Course τ) (f : Evaluation → Evaluation) : Course τ :=
  { p with desk := p.desk.change c.number f }

/-- The follower has taken a step. -/
def arrive (c : Plan) (first : Work τ) (p : Course τ) (choice : Nat) (f q : Poller (Work τ)) (v : Poller.View τ) :
    Option (Course τ) :=
  let moved : Course τ := { p with desk := v.desk, follower := some q }
  let noted := match f.errand? q with
    | some errand => moved.goOn p.system.scheduler.serial (errand.doing c)
    | none => moved
  match f.action? c choice q with
  | some a => noted.take first a
  | none => some noted

/-- What comes of a turn, if it can be taken. -/
def act (c : Plan) (first : Work τ) (backoff : Backoff) (p : Course τ) : Turn τ → Option (Course τ)
  | .system a => p.take first a
  | .compute _ r last =>
    match p.running? c with
    | some (n,d) =>
      match d.rest with
      | .engine _ =>
        some ({ p with world := last }.goOn n { d with rest := r.toOption.getD .done, started := true })
      | _ => none
    | none => none
  | .share =>
    match p.running? c with
    | some (n,d) =>
      match d.rest with
      | .share f => some ({ p with desk := (f p.desk).1 }.goOn n { d with rest := (f p.desk).2 })
      | _ => none
    | none => none
  | .elsewhere world desk => some { p with world, desk }
  | .cancel => some (p.change c fun e => { e with outcome := e.outcome.cancel })
  | .watchScript choice =>
    ((p.desk.evaluation c.number).script.watchNext (p.system.scheduler.signal c.generation))[choice]?.map fun script =>
      p.change c ({ · with script })
  | .watchOutcome choice =>
    ((p.desk.evaluation c.number).outcome.watchNext ⟨false⟩)[choice]?.map fun outcome =>
      p.change c ({ · with outcome })
  | .follow => if p.follower.isNone then some { p with follower := some .awaitsScript } else none
  | .poll choice =>
    p.follower.bind fun f =>
      (f.next p.system.isUnderway backoff c.stateName c.number p.view)[choice]?.bind fun (q,v) =>
        p.arrive c first choice f q v
  | .late =>
    p.follower.bind fun f =>
      (f.late backoff c.stateName c.number p.view).bind fun (q,v) => p.arrive c first 0 f q v

/-- What can happen. An errand that runs ends when nothing is left of it, its computations end as their answers
    have it, and nobody else does anything to the evaluation or on behalf of its follower. -/
def Possible (c : Plan) (p : Course τ) : Turn τ → Prop
  | .system a => ¬a.Concerns (.thread c.thread) ∧
      ∀ panicked n d, a = .finish c.generation panicked → p.running? c = some (n,d) →
        panicked = false ∧ ∃ r, d.rest = .ended r
  | .compute answers r last => ∀ n d m, p.running? c = some (n,d) → d.rest = .engine m → (m p.world).Ends answers r last
  | .elsewhere _ desk => desk.evaluations[c.number]? = p.desk.evaluations[c.number]?
  | _ => True

/-- The courses that some interleaving of turns leads to once the program is handed in; `polite` tells which turns
    are taken. -/
inductive Reachable (c : Plan) (first : Work τ) (backoff : Backoff) (capacity : Nat)
    (polite : Course τ → Turn τ → Prop) : Course τ → Prop where
  | handIn {j : Journal (Work τ)} {l : Ledger (Work τ)} {σ υ : System (Work τ)} {who : Party} {desk : Desk τ}
      {world : World} {signal : Signal} (audited : Audited first capacity j l σ)
      (free : σ.call? (.thread c.thread) = none) (apart : who ≠ .thread c.thread)
      (taken : σ.act first (.submit who c.generation (Errand.script.job c)) = some υ)
      (made : desk.evaluations[c.number]? = some (.submitted c.generation signal))
      (names : c.valueName ≠ c.stateName) (keeps : world.KeepsAll [c.valueName,c.stateName])
      (value : world.kept? c.valueName = none) (state : world.kept? c.stateName = none) :
    Reachable c first backoff capacity polite
      { system := υ
        journal := j.after σ υ (.submit who c.generation (Errand.script.job c))
        ledger := l.after σ (.submit who c.generation (Errand.script.job c))
        desk, world
        errands := Function.update (fun _ => none) σ.scheduler.serial (some (Errand.script.doing c)) }
  | act {p q : Course τ} (t : Turn τ) (reached : Reachable c first backoff capacity polite p)
      (possible : p.Possible c t) (tact : polite p t) (taken : p.act c first backoff t = some q) :
    Reachable c first backoff capacity polite q

/-! ### Runs -/

/-- The program is handed in once these actions were taken on a scheduler that was never started. -/
def enter (c : Plan) (first : Work τ) (capacity : Nat) (actions : List (Action (Work τ))) (who : Party) (desk : Desk τ)
    (world : World) : Option (Course τ) :=
  ((System.init capacity).audit first {} {} actions).bind fun (j,l,σ) =>
    if (σ.call? (.thread c.thread)).isNone && who ≠ .thread c.thread then
      (σ.act first (.submit who c.generation (Errand.script.job c))).map fun υ => {
        system := υ
        journal := j.after σ υ (.submit who c.generation (Errand.script.job c))
        ledger := l.after σ (.submit who c.generation (Errand.script.job c))
        desk, world
        errands := Function.update (fun _ => none) σ.scheduler.serial (some (Errand.script.doing c)) }
    else none

/-- A turn that computes nothing and comes from nowhere else can happen. -/
def allows (c : Plan) (p : Course τ) : Turn τ → Bool
  | .system a =>
    !decide (a.Concerns (.thread c.thread)) &&
      match a with
      | .finish g panicked =>
        g ≠ c.generation ||
          match p.running? c with
          | some (_,d) => !panicked && d.rest.isEnded
          | none => true
      | _ => true
  | .compute _ _ _ | .elsewhere _ _ => false
  | _ => true

/-- The worker runs an errand that has computed nothing yet. -/
def isAt (c : Plan) (p : Course τ) (x : Errand) : Bool :=
  (p.running? c).any fun (_,d) => d.errand = x && !d.started

/-- What comes of turns one after another, if all of them can happen. -/
def run (c : Plan) (first : Work τ) (backoff : Backoff) (p : Course τ) : List (Turn τ) → Option (Course τ)
  | [] => some p
  | t :: rest => if p.allows c t then (p.act c first backoff t).bind (·.run c first backoff rest) else none

/-- What comes of a computation and of turns after it. -/
def leg (c : Plan) (first : Work τ) (backoff : Backoff) (p : Course τ) (answers : List Answer) (r : Except Thrown (Work τ))
    (last : World) (turns : List (Turn τ)) : Option (Course τ) :=
  (p.act c first backoff (.compute answers r last)).bind (·.run c first backoff turns)

section
variable {c : Plan} {first : Work τ} {backoff : Backoff} {capacity : Nat} {polite : Course τ → Turn τ → Prop}
  {p q : Course τ} {t : Turn τ}

theorem audited_of_enter {actions : List (Action (Work τ))} {who : Party} {desk : Desk τ} {world : World}
    (entered : enter c first capacity actions who desk world = some p) : ∃ j l σ υ, Audited first capacity j l σ ∧
      σ.call? (.thread c.thread) = none ∧ who ≠ .thread c.thread ∧
      σ.act first (.submit who c.generation (Errand.script.job c)) = some υ ∧
      p = { system := υ
            journal := j.after σ υ (.submit who c.generation (Errand.script.job c))
            ledger := l.after σ (.submit who c.generation (Errand.script.job c))
            desk, world
            errands := Function.update (fun _ => none) σ.scheduler.serial (some (Errand.script.doing c)) } := by
  obtain ⟨⟨j,l,σ⟩,ran,entered⟩ := Option.bind_eq_some_iff.mp entered
  simp only at entered
  split at entered
  · next free =>
    obtain ⟨υ,taken,rfl⟩ := Option.map_eq_some_iff.mp entered
    simp only [Bool.and_eq_true,Option.isNone_iff_eq_none,decide_eq_true_eq] at free
    have audited : Audited first capacity j l σ :=
      System.audit_induction (P := Audited first capacity) actions .init
        (fun j l σ τ a member before taken => .act a before taken) ran
    exact ⟨j,l,σ,υ,audited,free.1,free.2,taken,rfl⟩
  · cases entered

theorem reachable_enter {actions : List (Action (Work τ))} {who : Party} {desk : Desk τ} {world : World} {signal : Signal}
    (made : desk.evaluations[c.number]? = some (.submitted c.generation signal)) (names : c.valueName ≠ c.stateName)
    (keeps : world.KeepsAll [c.valueName,c.stateName]) (value : world.kept? c.valueName = none)
    (state : world.kept? c.stateName = none) (entered : enter c first capacity actions who desk world = some p) :
    Reachable c first backoff capacity polite p := by
  obtain ⟨j,l,σ,υ,audited,free,apart,taken,rfl⟩ := audited_of_enter entered
  exact .handIn audited free apart taken made names keeps value state

theorem possible_of_allows (allowed : p.allows c t = true) : p.Possible c t := by
  cases t with
  | system a =>
    simp only [allows,Bool.and_eq_true,Bool.not_eq_true',decide_eq_false_iff_not] at allowed
    refine ⟨allowed.1,?_⟩
    rintro panicked n d rfl running
    simpa [running,Job.isEnded_iff] using allowed.2
  | compute answers r last | elsewhere world desk => cases allowed
  | _ => trivial

theorem Reachable.mono {polite' : Course τ → Turn τ → Prop} (reached : Reachable c first backoff capacity polite p)
    (weaker : ∀ p t, polite p t → polite' p t) : Reachable c first backoff capacity polite' p := by
  induction reached with
  | handIn audited free apart taken made names keeps value state =>
    exact .handIn audited free apart taken made names keeps value state
  | act t reached possible tact taken ih => exact .act t ih possible (weaker _ t tact) taken

/-- The engine stays as it is unless something is computed. -/
theorem world_act (allowed : p.allows c t = true) (taken : p.act c first backoff t = some q) : q.world = p.world := by
  have take : ∀ {p' : Course τ} {a}, p'.take first a = some q → q.world = p'.world := by
    rintro p' a taken
    obtain ⟨σ,-,rfl⟩ := Option.map_eq_some_iff.mp taken
    rfl
  have arrive : ∀ {choice f f' v}, p.arrive c first choice f f' v = some q → q.world = p.world := by
    intro choice f f' v taken
    cases errand : f.errand? f' <;> cases action : f.action? c choice f' <;>
      simp only [Course.arrive,errand,action] at taken
    · cases taken
      rfl
    · exact (take taken).trans rfl
    · cases taken
      rfl
    · exact (take taken).trans rfl
  cases t with
  | system a => exact take taken
  | compute answers r last | elsewhere world desk => cases allowed
  | share =>
    simp only [act] at taken
    split at taken
    · split at taken <;> cases taken
      rfl
    · cases taken
  | cancel =>
    cases taken
    rfl
  | watchScript choice | watchOutcome choice =>
    obtain ⟨_,-,rfl⟩ := Option.map_eq_some_iff.mp taken
    rfl
  | follow =>
    simp only [act] at taken
    split at taken <;> cases taken
    rfl
  | poll choice =>
    obtain ⟨f,-,taken⟩ := Option.bind_eq_some_iff.mp taken
    obtain ⟨⟨f',v⟩,-,taken⟩ := Option.bind_eq_some_iff.mp taken
    exact arrive taken
  | late =>
    obtain ⟨f,-,taken⟩ := Option.bind_eq_some_iff.mp taken
    obtain ⟨⟨f',v⟩,-,taken⟩ := Option.bind_eq_some_iff.mp taken
    exact arrive taken

theorem world_run {turns : List (Turn τ)} (ran : p.run c first backoff turns = some q) : q.world = p.world := by
  induction turns generalizing p with
  | nil =>
    cases ran
    rfl
  | cons t rest ih =>
    simp only [Course.run] at ran
    split at ran
    · next allowed =>
      obtain ⟨p',taken,ran⟩ := Option.bind_eq_some_iff.mp ran
      exact (ih ran).trans (world_act allowed taken)
    · cases ran

theorem Reachable.run (reached : Reachable c first backoff capacity polite p) (turns : List (Turn τ))
    (polite_of : ∀ p t, Course.allows c p t = true → polite p t) (ran : p.run c first backoff turns = some q) :
    Reachable c first backoff capacity polite q := by
  induction turns generalizing p with
  | nil =>
    cases ran
    exact reached
  | cons t rest ih =>
    simp only [Course.run] at ran
    split at ran
    · next allowed =>
      obtain ⟨p',taken,ran⟩ := Option.bind_eq_some_iff.mp ran
      exact ih (.act t reached (possible_of_allows allowed) (polite_of p t allowed) taken) ran
    · cases ran

end

end Course

end ScriptHost
