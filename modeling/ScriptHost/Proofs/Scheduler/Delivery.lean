import ScriptHost.Proofs.Scheduler.Beginning
/-!
Nothing that was accepted gets lost. A job that finds the queue full hands its envelope over to a thread, and
its submission has been accepted from then on; everyone else is told only once the envelope is in the queue or
has been dropped. While no stop is under way a generation stays open and nothing is taken out of the queue but
by its own worker. So once the queue is empty and nobody holds an envelope, every job of the generation that was
accepted has run to its end, and it has done so once.
-/
namespace ScriptHost
variable {J : Type}

/-! ### What callers are told -/

/-- What a run looks like to those who call the scheduler. Both lists are newest first. -/
structure Ledger (J : Type) where
  /-- What a party has handed in and has got no answer for yet. -/
  pending : Party → Option (Envelope J) := fun _ => none
  /-- The submissions that have returned, and whether the job was accepted. -/
  returned : List (Envelope J × Bool) := []
  /-- The jobs that have come to their end, by the workers that ran them and their serial numbers. -/
  executed : List (Nat × Nat) := []

/-- The submission of a party returns. -/
def Ledger.answer (l : Ledger J) (who : Party) (accepted : Bool) : Ledger J :=
  { l with
    pending := Function.update l.pending who none
    returned := ((l.pending who).map (·,accepted)).toList ++ l.returned }

/-- The number of the job that a worker runs. -/
def Worker.running? {R : Type} : Worker J R → Option Nat
  | .runs n _ => some n
  | _ => none

/-- The ledger after an action on a system. -/
def Ledger.after (l : Ledger J) (σ : System J) : Action J → Ledger J
  | .submit who handle x =>
    { l with pending := Function.update l.pending who (some (σ.scheduler.envelop handle (.job x)).1) }
  | .handOver who _ => l.answer who true
  | .return who =>
    match σ.call? who with
    | some (.submit (.ended accepted)) => l.answer who accepted
    | _ => l
  | .finish g _ => { l with executed := ((σ.workers g).running?.map (g,·)).toList ++ l.executed }
  | _ => l

theorem Ledger.after_return (l : Ledger J) {σ : System J} {who : Party} {c : Call J} (called : σ.call? who = some c)
    (past : c.isOver = true) :
    (∃ accepted, c = .submit (.ended accepted) ∧ l.after σ (.return who) = l.answer who accepted) ∨
      (∀ p, c ≠ .submit p) ∧ l.after σ (.return who) = l := by
  cases c with
  | start p found => exact .inr ⟨nofun,by simp [after,called]⟩
  | stop p => exact .inr ⟨nofun,by simp [after,called]⟩
  | submit p =>
    cases p with
    | ended accepted => exact .inl ⟨accepted,rfl,by simp [after,called]⟩
    | _ => cases past

/-- The systems that some interleaving leads to, with the journal and the ledger of that interleaving. -/
inductive Audited (first : J) (capacity : Nat) : Journal J → Ledger J → System J → Prop
  | init : Audited first capacity {} {} (.init capacity)
  | act {j : Journal J} {l : Ledger J} {σ τ : System J} (a : Action J) (before : Audited first capacity j l σ)
      (taken : σ.act first a = some τ) : Audited first capacity (j.after σ τ a) (l.after σ a) τ

theorem Audited.journaled {first : J} {capacity : Nat} {j : Journal J} {l : Ledger J} {σ : System J}
    (audited : Audited first capacity j l σ) : Journaled first capacity j σ := by
  induction audited with
  | init => exact .init
  | act a before taken ih => exact .act a ih taken

/-! ### Whom a step concerns -/

/-- The parties whose calls an action may change. -/
def Action.Concerns (a : Action J) (who : Party) : Prop :=
  match a with
  | .start other | .submit other _ _ | .go other _ _ | .failToHandOver other | .return other => who = other
  | .stop t => who = .thread t
  | .handOver other t => who = other ∨ who = .thread t
  | .takeHandle | .work _ _ | .finish _ _ | .settle _ | .interrupt _ => False

namespace System
variable {first : J} {σ τ : System J} {a : Action J}

/-- A step leaves the calls of all others alone. -/
theorem call_step (sound : Sound σ) (step : Step first σ a τ) {who : Party} (other : ¬a.Concerns who) :
    τ.call? who = σ.call? who := by
  cases step with
  | takeHandle free | interrupt free => cases who <;> rfl
  | start free | stop free | «return» called past => exact call_setCall_other σ _ other
  | submit free taken =>
    rw [call_arrive_eq ((sound.calm _).setCall sound _ (.inr free)),call_setCall_other σ _ other]
  | go called step =>
    rw [call_arrive_eq ((sound.calm _).setCall sound _ (.inl ⟨_,called⟩)),call_setCall_other σ _ other]
  | failToHandOver called =>
    rw [call_arrive_eq ((sound.calm _).setCall sound _ (.inl ⟨_,called⟩)),call_setCall_other σ _ other]
  | @handOver party t e called free =>
    rw [call_setCall_other _ _ fun same => other (.inr same),call_setCall_other σ _ fun same => other (.inl same)]
  | @work g choice p t step =>
    have calm : Calm { σ with workers := Function.update σ.workers g p } t.generation :=
      fun opens => absurd step.generation opens
    rw [call_arrive_eq calm,call_place step.quiet step.call]
  | finish place | settle place => exact call_place (by rw [place]; rfl) rfl who

end System

/-! ### Answers and envelopes -/

/-- What the place of a submission tells about the envelope that was handed in. -/
def Submission.Backs (history : List (Event J)) (e : Envelope J) : Submission J → Prop
  | .looks _ f | .sends f | .tries f | .handsOver f => f = e
  | .sent | .ended true => e ∈ entered history
  | .refused | .ended false => True

theorem entered_append {e : Envelope J} {history : List (Event J)} (events : List (Event J))
    (member : e ∈ entered history) : e ∈ entered (events ++ history) := by
  rw [entered,List.filterMap_append]
  exact List.mem_append_right _ member

theorem Submission.Backs.mono {p : Submission J} {history : List (Event J)} {e : Envelope J}
    (backs : p.Backs history e) (events : List (Event J)) : p.Backs (events ++ history) e := by
  cases p with
  | sent => exact entered_append events backs
  | ended accepted =>
    cases accepted with
    | true => exact entered_append events backs
    | false => trivial
  | _ => exact backs

theorem Submission.Step.backs {s t : Scheduler J} {p q : Submission J} {history : List (Event J)} {e : Envelope J}
    (step : p.Step s q t) (backs : p.Backs history e) : q.Backs (p.events q ++ history) e := by
  cases step with
  | late past | abandon past | countRefused => trivial
  | @look inside f live => cases inside <;> exact backs
  | send room | put room =>
    cases backs
    exact List.mem_cons_self
  | full none | countSent => exact backs

/-- What callers are told agrees with where the envelopes are. -/
structure Answered (l : Ledger J) (σ : System J) : Prop where
  pending : ∀ who e, l.pending who = some e → ∃ p, σ.call? who = some (.submit p) ∧ p.Backs σ.history e
  /-- What was accepted is in the queue or has been there, is with a thread that waits for room in the queue, or
      was too late for its generation. -/
  accepted : ∀ e, (e,true) ∈ l.returned → e ∈ entered σ.history ∨
    (∃ t, σ.call? (.thread t) = some (.submit (.sends e))) ∨
    e.generation ≤ σ.scheduler.generation ∧ σ.scheduler.isOver e.generation = true

namespace Answered
variable {first : J} {j : Journal J} {l : Ledger J} {σ τ : System J} {a : Action J}

theorem pending_of_free (answered : Answered l σ) {who : Party} (free : σ.isFree who = true) : l.pending who = none := by
  cases waits : l.pending who with
  | none => rfl
  | some e =>
    obtain ⟨p,called,-⟩ := answered.pending who e waits
    cases called.symm.trans (System.call_of_free free)

theorem pending_step (answered : Answered l σ) (sound : σ.Sound) (step : System.Step first σ a τ) {who : Party}
    {e : Envelope J} (waits : (l.after σ a).pending who = some e) :
    ∃ p, τ.call? who = some (.submit p) ∧ p.Backs τ.history e := by
  have still : l.pending who = some e → ¬a.Concerns who → ∃ p, τ.call? who = some (.submit p) ∧ p.Backs τ.history e := by
    intro waits other
    obtain ⟨p,called,backs⟩ := answered.pending who e waits
    obtain ⟨events,same⟩ := System.history_step step
    exact ⟨p,(System.call_step sound step other).trans called,same ▸ backs.mono events⟩
  cases step with
  | takeHandle free | work step | finish place | settle place | interrupt free => exact still waits id
  | start free | stop free =>
    refine still waits ?_
    rintro rfl
    cases waits.symm.trans (answered.pending_of_free free)
  | submit free taken =>
    rcases holds_of_update waits with ⟨rfl,own⟩ | ⟨other,waits⟩
    · cases own
      exact ⟨_,System.call_goOn sound _ (.inr free) _ _,rfl⟩
    · exact still waits other
  | @go party made choice c d t events called step =>
    by_cases own : who = party
    · subst own
      obtain ⟨p,called',backs⟩ := answered.pending who e waits
      cases called.symm.trans called'
      cases step with
      | submit step =>
        refine ⟨_,System.call_goOn sound _ (.inl ⟨_,called⟩) _ _,?_⟩
        show Submission.Backs (_ ++ (σ.setCall _ who).history) e _
        rw [System.history_setCall]
        exact step.backs backs
    · exact still waits own
  | @handOver party t f called free =>
    obtain ⟨apart,waits⟩ := holds_of_drop waits
    refine still waits ?_
    rintro (same | rfl)
    · exact apart same
    · cases waits.symm.trans (answered.pending_of_free free)
  | @failToHandOver party f called =>
    by_cases own : who = party
    · subst own
      exact ⟨_,System.call_goOn sound _ (.inl ⟨_,called⟩) _ _,trivial⟩
    · exact still waits own
  | @«return» party c called past =>
    rcases l.after_return called past with ⟨b,rfl,same⟩ | ⟨other,same⟩
    · rw [same] at waits
      obtain ⟨apart,waits⟩ := holds_of_drop waits
      exact still waits apart
    · rw [same] at waits
      refine still waits ?_
      rintro rfl
      obtain ⟨p,called',-⟩ := answered.pending who e waits
      exact other p (Option.some.inj (called.symm.trans called'))

/-- A thread that waits with an envelope goes on waiting, gets it into the queue, or is too late. -/
theorem waits_step (sound : σ.Sound) (step : System.Step first σ a τ) {t : Nat} {e : Envelope J}
    (waits : σ.call? (.thread t) = some (.submit (.sends e))) :
    τ.call? (.thread t) = some (.submit (.sends e)) ∨ e ∈ entered τ.history ∨
      σ.scheduler.isOver e.generation = true := by
  by_cases concerned : a.Concerns (.thread t)
  · cases step with
    | takeHandle free | work step | finish place | settle place | interrupt free => exact concerned.elim
    | start free | stop free | submit free taken =>
      cases concerned
      cases waits.symm.trans (System.call_of_free free)
    | go called step =>
      cases concerned
      cases waits.symm.trans called
      cases step with
      | submit step =>
        cases step with
        | abandon past => exact .inr (.inr past)
        | send room => exact .inr (.inl List.mem_cons_self)
    | handOver called free =>
      rcases concerned with rfl | same
      · cases waits.symm.trans called
      · cases same
        cases waits.symm.trans (System.call_of_free free)
    | failToHandOver called =>
      cases concerned
      cases waits.symm.trans called
    | «return» called past =>
      cases concerned
      cases waits.symm.trans called
      cases past
  · exact .inl ((System.call_step sound step concerned).trans waits)

theorem mem_answer {who : Party} {accepted : Bool} {e : Envelope J}
    (told : (e,true) ∈ (l.answer who accepted).returned) :
    l.pending who = some e ∧ accepted = true ∨ (e,true) ∈ l.returned := by
  rcases List.mem_append.mp told with new | old
  · simp only [Option.mem_toList,Option.map_eq_some_iff,Prod.mk.injEq] at new
    obtain ⟨f,waits,rfl,rfl⟩ := new
    exact .inl ⟨waits,rfl⟩
  · exact .inr old

/-- What a step tells a caller is true: the envelope is in the queue, or a thread has got it. -/
theorem mem_returned (answered : Answered l σ) (step : System.Step first σ a τ) {e : Envelope J}
    (told : (e,true) ∈ (l.after σ a).returned) :
    (e,true) ∈ l.returned ∨ e ∈ entered σ.history ∨ ∃ t, τ.call? (.thread t) = some (.submit (.sends e)) := by
  cases step with
  | handOver called free =>
    rcases mem_answer told with ⟨waits,-⟩ | old
    · obtain ⟨p,called',backs⟩ := answered.pending _ e waits
      cases called.symm.trans called'
      cases backs
      exact .inr (.inr ⟨_,Function.update_self ..⟩)
    · exact .inl old
  | «return» called past =>
    rcases l.after_return called past with ⟨b,rfl,same⟩ | ⟨-,same⟩
    · rw [same] at told
      rcases mem_answer told with ⟨waits,rfl⟩ | old
      · obtain ⟨p,called',backs⟩ := answered.pending _ e waits
        cases called.symm.trans called'
        exact .inr (.inl backs)
      · exact .inl old
    · exact .inl (same ▸ told)
  | _ => exact .inl told

theorem step (answered : Answered l σ) (before : System.Orderly σ) (after : System.Orderly τ) (sound : σ.Sound)
    (sound' : τ.Sound) (dated : Dated σ.outlook (σ.traffic j)) (step : System.Step first σ a τ) :
    Answered (l.after σ a) τ := by
  refine ⟨fun who e waits => answered.pending_step sound step waits,fun e told => ?_⟩
  have enters : e ∈ entered σ.history → e ∈ entered τ.history := by
    intro member
    obtain ⟨events,same⟩ := System.history_step step
    exact same ▸ entered_append events member
  have ends : e.generation ≤ σ.scheduler.generation → σ.scheduler.isOver e.generation = true →
      e.generation ≤ τ.scheduler.generation ∧ τ.scheduler.isOver e.generation = true :=
    fun le past => ⟨Nat.le_trans le (System.generation_step before after step),
      System.ended_step before after sound' step le past⟩
  rcases answered.mem_returned step told with old | member | waits
  · rcases answered.accepted e old with member | ⟨t,waits⟩ | ⟨le,past⟩
    · exact .inl (enters member)
    · rcases waits_step sound step waits with still | member | past
      · exact .inr (.inl ⟨t,still⟩)
      · exact .inl member
      · have le : e.generation ≤ σ.scheduler.generation :=
          dated.held (.thread t) e (congrArg (Option.bind · Call.envelope?) waits)
        exact .inr (.inr (ends le past))
    · exact .inr (.inr (ends le past))
  · exact .inl (enters member)
  · exact .inr (.inl waits)

end Answered

/-! ### Jobs that come to their end -/

/-- The numbers of the jobs among some envelopes. -/
def jobsOf (envelopes : List (Envelope J)) : List Nat :=
  envelopes.filterMap fun e =>
    match e.task with
    | .stop => none
    | .job _ => some e.serial

/-- The numbers of the jobs that the worker of a generation has run to their end. -/
def executedBy (g : Nat) (executed : List (Nat × Nat)) : List Nat :=
  executed.filterMap fun x => if x.1 = g then some x.2 else none

/-- A worker runs the last job that it has begun with, or has run it to its end. -/
def Finishes (l : Ledger J) (σ : System J) : Prop :=
  ∀ g, jobsOf (begun g σ.history) = (σ.workers g).running?.toList ++ executedBy g l.executed

section
variable {first : J} {l : Ledger J} {σ τ : System J} {a : Action J}

theorem Submission.events_begun (g : Nat) (p q : Submission J) : begun g (p.events q) = [] := by
  unfold events
  split <;> rfl

theorem Call.Step.begun {finished : Nat → Bool} {s t : Scheduler J} {c d : Call J} {events : List (Event J)}
    (step : Call.Step finished first s c d t events) (g : Nat) : ScriptHost.begun g events = [] := by
  cases step with
  | @start p q found t step =>
    cases step with
    | submit step => exact Submission.events_begun g _ _
    | _ => rfl
  | stop step => cases step <;> rfl
  | submit step => exact Submission.events_begun g _ _

theorem System.running_setCall (σ : System J) (c : Option (Call J)) (who : Party) (g : Nat) :
    ((σ.setCall c who).workers g).running? = (σ.workers g).running? := by
  cases who with
  | thread t => rfl
  | worker h =>
    by_cases same : g = h
    · subst same
      simp only [setCall,Function.update_self]
      cases σ.workers g <;> rfl
    · simp only [setCall,Function.update_of_ne same]

theorem System.running_arrive {σ : System J} {s : Scheduler J}
    (idle : s.generation ≠ σ.scheduler.generation → (σ.workers s.generation).running? = none) (who : Party)
    (events : List (Event J)) (g : Nat) :
    ((σ.arrive who s events).workers g).running? = (σ.workers g).running? := by
  unfold arrive
  split
  · rfl
  · next opens =>
    by_cases new : g = s.generation
    · subst new
      simpa [Worker.running?] using (idle opens).symm
    · simp [Function.update_of_ne new]

theorem System.Sound.idle (sound : σ.Sound) {g : Nat} (other : g ≠ σ.scheduler.generation) :
    (σ.workers g).running? = none := by
  cases place : σ.workers g with
  | runs n c => exact absurd (sound.newest (.inl ⟨n,c,place⟩)) other
  | _ => rfl

/-- A party that begins a call or goes on in one leaves the jobs alone. -/
theorem Finishes.goOn (finishes : Finishes l σ) (sound : σ.Sound) {who : Party} {c : Call J} {s : Scheduler J}
    {events : List (Event J)} (none : ∀ g, begun g events = []) :
    Finishes l ((σ.setCall (some c) who).arrive who s events) := by
  intro g
  have history : ((σ.setCall (some c) who).arrive who s events).history = events ++ σ.history :=
    congrArg (events ++ ·) (System.history_setCall σ _ who)
  have idle : s.generation ≠ (σ.setCall (some c) who).scheduler.generation →
      ((σ.setCall (some c) who).workers s.generation).running? = Option.none := by
    rw [System.scheduler_setCall,System.running_setCall]
    exact sound.idle
  have same : begun g (events ++ σ.history) = begun g σ.history := by
    have split : begun g (events ++ σ.history) = begun g events ++ begun g σ.history := List.filterMap_append
    rw [split,none,List.nil_append]
  rw [System.running_arrive idle,System.running_setCall,history,same]
  exact finishes g

theorem Finishes.setCall (finishes : Finishes l σ) (c : Option (Call J)) (who : Party) : Finishes l (σ.setCall c who) := by
  intro g
  rw [System.history_setCall,System.running_setCall]
  exact finishes g

theorem Worker.Step.jobs {R : Type} {g : Nat} {run : J → R} {rest : R} {s t : Scheduler J} {p q : Worker J R}
    (step : p.Step g run rest s q t) (h : Nat) : p.running? = none ∧
    jobsOf (begun h (p.events g q)) = if h = g then q.running?.toList else [] := by
  cases step with
  | @beginJob e j task =>
    refine ⟨rfl,?_⟩
    by_cases own : h = g
    · simp [begun,Event.begun?,events,own,jobsOf,task,running?]
    · simp [begun,Event.begun?,events,own,Ne.symm own,jobsOf]
  | @beginStop e task =>
    refine ⟨rfl,?_⟩
    by_cases own : h = g
    · simp [begun,Event.begun?,events,own,jobsOf,task,running?]
    · simp [begun,Event.begun?,events,own,Ne.symm own,jobsOf]
  | _ => exact ⟨rfl,by simp [begun,Event.begun?,events,jobsOf,running?]⟩

theorem Finishes.step (finishes : Finishes l σ) (sound : σ.Sound) (step : System.Step first σ a τ) :
    Finishes (l.after σ a) τ := by
  cases step with
  | takeHandle free | interrupt free => exact finishes
  | start free | stop free => exact finishes.setCall _ _
  | submit free taken => exact (finishes.goOn sound fun g => rfl)
  | go called step => exact finishes.goOn sound fun g => step.begun g
  | failToHandOver called => exact finishes.goOn sound fun g => rfl
  | handOver called free => exact (finishes.setCall _ _).setCall _ _
  | «return» called past =>
    rcases l.after_return called past with ⟨b,rfl,same⟩ | ⟨-,same⟩
    · rw [same]
      exact finishes.setCall _ _
    · rw [same]
      exact finishes.setCall _ _
  | @work g choice p t step =>
    intro h
    have idle : t.generation ≠ σ.scheduler.generation →
        (Function.update σ.workers g p t.generation).running? = none := fun opens => absurd step.generation opens
    obtain ⟨before,after⟩ := step.jobs h
    have split : jobsOf (begun h ((σ.workers g).events g p ++ σ.history)) =
        jobsOf (begun h ((σ.workers g).events g p)) ++ jobsOf (begun h σ.history) := by
      simp only [jobsOf,begun,List.filterMap_append]
    rw [System.running_arrive idle]
    refine split.trans ?_
    rw [after,finishes h]
    show _ = (Function.update σ.workers g p h).running?.toList ++ executedBy h l.executed
    by_cases own : h = g
    · subst own
      rw [if_pos rfl,before,Function.update_self]
      rfl
    · rw [if_neg own,Function.update_of_ne own]
      rfl
  | @finish g n panicked place =>
    intro h
    have jobs := finishes h
    by_cases own : h = g
    · subst own
      simp only [Ledger.after,Function.update_self,place,Worker.running?,executedBy] at jobs ⊢
      simpa using jobs
    · simp only [Ledger.after,Function.update_of_ne own,place,Worker.running?,executedBy] at jobs ⊢
      simpa [Ne.symm own] using jobs
  | @settle g r place =>
    intro h
    have jobs := finishes h
    show _ = (Function.update σ.workers g .looks h).running?.toList ++ executedBy h l.executed
    by_cases own : h = g
    · subst own
      rw [Function.update_self]
      rw [place] at jobs
      exact jobs
    · rw [Function.update_of_ne own]
      exact jobs

end

/-! ### Generations without stops -/

namespace System
variable {first : J} {σ τ : System J} {a : Action J}

theorem withCall_call (p : Worker J (Option (Call J))) : p.withCall p.call? = p := by
  cases p <;> rfl

theorem workers_setCall (σ : System J) (c : Option (Call J)) (who : Party) (g : Nat) :
    ∃ d, (σ.setCall c who).workers g = (σ.workers g).withCall d := by
  cases who with
  | thread t => exact ⟨_,(withCall_call _).symm⟩
  | worker h =>
    by_cases same : g = h
    · subst same
      exact ⟨c,Function.update_self ..⟩
    · exact ⟨_,(Function.update_of_ne same _ _).trans (withCall_call _).symm⟩

theorem workers_arrive (σ : System J) (who : Party) (s : Scheduler J) (events : List (Event J)) (g : Nat) :
    (σ.arrive who s events).workers g = σ.workers g ∨ (σ.arrive who s events).workers g = .looks := by
  unfold arrive
  split
  · exact .inl rfl
  · by_cases new : g = s.generation
    · subst new
      exact .inr (Function.update_self ..)
    · exact .inl (Function.update_of_ne new _ _)

/-- A worker is where it was, is about to look for the end of its generation, or has gone on by itself. -/
theorem worker_step (step : Step first σ a τ) (g : Nat) :
    (∃ c, τ.workers g = (σ.workers g).withCall c) ∨ τ.workers g = .looks ∨ (∃ b, τ.workers g = .ran b) ∨
      ∃ p t, Worker.Step g (fun _ => none) none σ.scheduler (σ.workers g) p t ∧ τ.workers g = p ∧
        τ.history = (σ.workers g).events g p ++ σ.history := by
  have same : ∃ c, σ.workers g = (σ.workers g).withCall c := ⟨_,(withCall_call _).symm⟩
  have goesOn : ∀ (c : Option (Call J)) (who : Party) (s : Scheduler J) (events : List (Event J)),
      (∃ d, ((σ.setCall c who).arrive who s events).workers g = (σ.workers g).withCall d) ∨
        ((σ.setCall c who).arrive who s events).workers g = .looks := by
    intro c who s events
    obtain ⟨d,stays⟩ := workers_setCall σ c who g
    exact (workers_arrive (σ.setCall c who) who s events g).imp_left fun equal => ⟨d,equal.trans stays⟩
  cases step with
  | takeHandle free | interrupt free => exact .inl same
  | start free | stop free | «return» called past => exact .inl (workers_setCall σ _ _ g)
  | submit free taken | go called step | failToHandOver called => exact (goesOn _ _ _ _).imp_right .inl
  | @handOver who t e called free => exact .inl (workers_setCall σ none who g)
  | @work h choice p t step =>
    have landed : ∀ h', ({ σ with workers := Function.update σ.workers h p }.arrive (.worker h) t
        ((σ.workers h).events h p)).workers h' = Function.update σ.workers h p h' := by
      intro h'
      simp [arrive,step.generation]
    rw [landed]
    by_cases own : g = h
    · subst own
      exact .inr (.inr (.inr ⟨p,t,step,Function.update_self ..,rfl⟩))
    · exact .inl (Function.update_of_ne own p σ.workers ▸ same)
  | @finish h n b place =>
    by_cases own : g = h
    · subst own
      exact .inr (.inr (.inl ⟨b,Function.update_self ..⟩))
    · exact .inl ⟨_,(Function.update_of_ne own _ _).trans same.choose_spec⟩
  | @settle h r place =>
    by_cases own : g = h
    · subst own
      exact .inr (.inl (Function.update_self ..))
    · exact .inl ⟨_,(Function.update_of_ne own _ _).trans same.choose_spec⟩

end System

/-- A worker is about to end its generation. -/
def Worker.isEnding {R : Type} : Worker J R → Bool
  | .leaves | .closes => true
  | _ => false

theorem Worker.isEnding_withCall (p : Worker J (Option (Call J))) (c : Option (Call J)) :
    (p.withCall c).isEnding = p.isEnding := by
  cases p <;> rfl

theorem Worker.Step.ending {R : Type} {g : Nat} {run : J → R} {rest : R} {s t : Scheduler J} {p q : Worker J R}
    (step : p.Step g run rest s q t) (ending : q.isEnding = true) :
    p.isEnding = true ∨ ∃ e, e.task = .stop ∧ .began g e ∈ p.events g q := by
  cases step with
  | @beginStop e task => exact .inr ⟨e,task,List.mem_cons_self⟩
  | leave free => exact .inl rfl
  | _ => cases ending

namespace System
variable {first : J} {capacity : Nat} {j : Journal J} {l : Ledger J} {σ τ : System J} {a : Action J}

/-- A worker ends its generation only because it has begun with a stop of it. -/
theorem began_of_ending (reached : Reachable first capacity σ) {g : Nat} (ending : (σ.workers g).isEnding = true) :
    ∃ e, e.task = .stop ∧ .began g e ∈ σ.history := by
  induction reached generalizing g with
  | init => cases ending
  | @act σ τ a reached taken ih =>
    have step := step_of_act taken
    obtain ⟨events,same⟩ := history_step step
    have keeps : (σ.workers g).isEnding = true → ∃ e, e.task = .stop ∧ .began g e ∈ τ.history := by
      intro before
      obtain ⟨e,task,began⟩ := ih before
      exact ⟨e,task,same ▸ List.mem_append_right events began⟩
    rcases worker_step step g with ⟨c,place⟩ | place | ⟨b,place⟩ | ⟨p,t,step,place,history⟩
    · rw [place,Worker.isEnding_withCall] at ending
      exact keeps ending
    · rw [place] at ending
      cases ending
    · rw [place] at ending
      cases ending
    · rw [place] at ending
      rcases step.ending ending with before | ⟨e,task,began⟩
      · exact keeps before
      · exact ⟨e,task,history ▸ List.mem_append_left _ began⟩

/-- What an event is the record of. -/
theorem event_step (step : Step first σ a τ) {event : Event J} (member : event ∈ τ.history) :
    event ∈ σ.history ∨ (∃ handle e, event = .submitted handle e) ∨ (∃ e, event = .refused e) ∨
      (∃ who c d t events, σ.call? who = some c ∧ Call.Step σ.isFinished first σ.scheduler c d t events ∧
        event ∈ events) ∨
      ∃ g p t, Worker.Step g (fun _ => none) none σ.scheduler (σ.workers g) p t ∧
        event ∈ (σ.workers g).events g p := by
  have old : ∀ {events : List (Event J)} {c : Option (Call J)} {who : Party},
      event ∈ events ++ (σ.setCall c who).history → event ∈ events ∨ event ∈ σ.history := by
    intro events c who member
    rw [history_setCall] at member
    exact List.mem_append.mp member
  cases step with
  | takeHandle free | finish place | settle place | interrupt free => exact .inl member
  | start free | stop free | «return» called past => 
    rw [history_setCall] at member
    exact .inl member
  | submit free taken =>
    rcases old member with new | before
    · exact .inr (.inl ⟨_,_,List.mem_singleton.mp new⟩)
    · exact .inl before
  | go called step =>
    rcases old member with new | before
    · exact .inr (.inr (.inr (.inl ⟨_,_,_,_,_,called,step,new⟩)))
    · exact .inl before
  | @handOver who t e called free =>
    rw [history_setCall,history_setCall] at member
    exact .inl member
  | failToHandOver called =>
    rcases old member with new | before
    · exact .inr (.inr (.inl ⟨_,List.mem_singleton.mp new⟩))
    · exact .inl before
  | work step =>
    rcases List.mem_append.mp member with new | before
    · exact .inr (.inr (.inr (.inr ⟨_,_,_,step,new⟩)))
    · exact .inl before

end System

theorem Submission.mem_events {p q : Submission J} {event : Event J} (member : event ∈ p.events q) :
    (∃ e, event = .queued e) ∨ ∃ e, event = .refused e := by
  unfold events at member
  split at member
  · exact .inl ⟨_,List.mem_singleton.mp member⟩
  · exact .inl ⟨_,List.mem_singleton.mp member⟩
  · exact .inr ⟨_,List.mem_singleton.mp member⟩
  · exact .inr ⟨_,List.mem_singleton.mp member⟩
  · cases member

theorem Worker.mem_events {R : Type} {g : Nat} {p q : Worker J R} {event : Event J} (member : event ∈ p.events g q) :
    (∃ e, event = .took g e) ∨ (∃ e, event = .began g e) ∨ event = .closed g ∧ p = .closes := by
  unfold events at member
  split at member
  · exact .inl ⟨_,List.mem_singleton.mp member⟩
  · exact .inr (.inl ⟨_,List.mem_singleton.mp member⟩)
  · exact .inr (.inl ⟨_,List.mem_singleton.mp member⟩)
  · exact .inr (.inr ⟨List.mem_singleton.mp member,rfl⟩)
  · cases member

section
variable {finished : Nat → Bool} {first : J} {s t : Scheduler J} {c d : Call J} {events : List (Event J)} {g : Nat}

/-- No call closes a generation. -/
theorem Call.Step.not_closed (step : Call.Step finished first s c d t events) : .closed g ∉ events := by
  intro member
  have plain : ∀ p q : Submission J, .closed g ∉ p.events q := by
    intro p q member
    rcases Submission.mem_events member with ⟨e,same⟩ | ⟨e,same⟩ <;> cases same
  cases step with
  | start step =>
    cases step with
    | submit step => exact plain _ _ member
    | _ => simp [Starting.events] at member
  | stop step => cases step <;> simp [Stopping.events] at member
  | submit step => exact plain _ _ member

/-- Only a stop that is under way puts a stop into the queue. -/
theorem Call.Step.stops {e : Envelope J} (step : Call.Step finished first s c d t events)
    (member : .ordered g e ∈ events) : ∃ p, c = .stop p ∧ p.outcome?.isSome = false := by
  have plain : ∀ p q : Submission J, .ordered g e ∉ p.events q := by
    intro p q member
    rcases Submission.mem_events member with ⟨f,same⟩ | ⟨f,same⟩ <;> cases same
  cases step with
  | start step =>
    cases step with
    | submit step => exact absurd member (plain _ _)
    | _ => simp [Starting.events] at member
  | stop step =>
    cases step with
    | queue room => exact ⟨_,rfl,rfl⟩
    | _ => simp [Stopping.events] at member
  | submit step => exact absurd member (plain _ _)

end

namespace System
variable {first : J} {capacity : Nat} {j : Journal J} {l : Ledger J} {σ τ : System J} {a : Action J}

theorem closed_step (step : Step first σ a τ) {g : Nat} (closed : .closed g ∈ τ.history) :
    .closed g ∈ σ.history ∨ σ.workers g = .closes := by
  rcases event_step step closed with old | ⟨_,_,same⟩ | ⟨_,same⟩ | ⟨who,c,d,t,events,-,step,new⟩ | ⟨h,p,t,step,new⟩
  · exact .inl old
  · cases same
  · cases same
  · exact absurd new step.not_closed
  · rcases Worker.mem_events new with ⟨e,same⟩ | ⟨e,same⟩ | ⟨same,place⟩
    · cases same
    · cases same
    · cases same
      exact .inr place

/-- No stop is under way. -/
def Unstopped (σ : System J) : Prop := ∀ who p, σ.call? who = some (.stop p) → p.outcome?.isSome = true

theorem ordered_step (calm : σ.Unstopped) (step : Step first σ a τ) {g : Nat} {e : Envelope J}
    (ordered : .ordered g e ∈ τ.history) : .ordered g e ∈ σ.history := by
  rcases event_step step ordered with old | ⟨_,_,same⟩ | ⟨_,same⟩ | ⟨who,c,d,t,events,called,step,new⟩ | ⟨h,p,t,step,new⟩
  · exact old
  · cases same
  · cases same
  · obtain ⟨p,rfl,goes⟩ := step.stops new
    cases goes.symm.trans (calm who p called)
  · rcases Worker.mem_events new with ⟨f,same⟩ | ⟨f,same⟩ | ⟨same,-⟩ <;> cases same

/-- Only a stop that is under way takes something out of the queue that is not for it. -/
theorem drained_step (sound : σ.Sound) (calm : σ.Unstopped) (step : Step first σ a τ) {g : Nat} {e : Envelope J}
    (drained : (.drained g,e) ∈ (j.after σ τ a).left) : (.drained g,e) ∈ j.left := by
  cases step with
  | @go who made choice c d t events called step =>
    rw [after_go j called (call_goOn sound d (.inl ⟨c,called⟩) t events)] at drained
    rcases List.mem_append.mp drained with new | old
    · cases step with
      | start step => cases step <;> simp [Call.exit?] at new
      | submit step => simp [Call.exit?] at new
      | stop step =>
        have finished := calm who _ called
        cases step <;> cases finished
    · exact old
  | work step =>
    rcases List.mem_append.mp drained with new | old
    · unfold Worker.exit? at new
      split at new <;> simp at new
    · exact old
  | _ => exact drained

end System

/-- A call opens a generation only as a start that has made an engine. -/
theorem Call.Step.opens {finished : Nat → Bool} {first : J} {s t : Scheduler J} {c d : Call J} {events : List (Event J)}
    (step : Call.Step finished first s c d t events) (more : t.generation ≠ s.generation) :
    ∃ found, c = .start .creates found ∧ d = .start (.submits (.looks false (Starting.firstEnvelope first s))) found ∧
      events = [.submitted t.generation (Starting.firstEnvelope first s),.opened t.generation] := by
  cases step with
  | @start p q found t step =>
    cases step with
    | create => exact ⟨found,rfl,rfl,rfl⟩
    | enter free idle => exact absurd (Starting.control_detach s finished).2.1 more
    | drain taken => exact absurd (Scheduler.queue_dequeue taken).2.2 more
    | submit step => exact absurd (congrArg Control.generation step.control) more
    | _ => exact absurd rfl more
  | stop step =>
    cases step with
    | drain taken => exact absurd (Scheduler.queue_dequeue taken).2.2 more
    | _ => exact absurd rfl more
  | submit step => exact absurd (congrArg Control.generation step.control) more

namespace System
variable {first : J} {capacity : Nat} {j : Journal J} {l : Ledger J} {σ τ : System J} {a : Action J}

/-- A step opens a generation only as that of a start, which goes on to hand in the first envelope. -/
theorem opens_step (sound : σ.Sound) (step : Step first σ a τ)
    (more : τ.scheduler.generation ≠ σ.scheduler.generation) :
    (j.after σ τ a).left = j.left ∧ (∀ g e, .ordered g e ∈ τ.history → .ordered g e ∈ σ.history) ∧
      ∃ who p found, τ.call? who = some (.start (.submits p) found) := by
  cases step with
  | takeHandle free | finish place | settle place => exact absurd rfl more
  | interrupt free => exact absurd (congrArg Control.generation (Scheduler.control_interrupt _ _)) more
  | start free | stop free | «return» called past =>
    rw [scheduler_setCall] at more
    exact absurd rfl more
  | handOver called free =>
    rw [scheduler_setCall,scheduler_setCall] at more
    exact absurd rfl more
  | submit free taken | failToHandOver called => exact absurd rfl more
  | work step => exact absurd step.generation more
  | @go who made choice c d t events called step =>
    obtain ⟨found,rfl,rfl,rfl⟩ := step.opens more
    have goes := call_goOn sound (.start (.submits (.looks false (Starting.firstEnvelope first σ.scheduler))) found)
      (.inl ⟨_,called⟩) t [.submitted t.generation (Starting.firstEnvelope first σ.scheduler),.opened t.generation]
    refine ⟨?_,fun g e ordered => ?_,who,_,found,goes⟩
    · rw [after_go j called goes]
      rfl
    · rcases List.mem_append.mp ordered with new | old
      · simp at new
      · exact history_setCall σ _ who ▸ old

end System

/-- The systems that some interleaving leads to in which a generation has been opened and no stop has been under
    way since. -/
inductive Undisturbed (first : J) (capacity g : Nat) : Journal J → Ledger J → System J → Prop
  | opened {j : Journal J} {l : Ledger J} {σ τ : System J} (a : Action J) (before : Audited first capacity j l σ)
      (taken : σ.act first a = some τ) (older : σ.scheduler.generation < g) (newest : τ.scheduler.generation = g)
      (calm : τ.Unstopped) : Undisturbed first capacity g (j.after σ τ a) (l.after σ a) τ
  | act {j : Journal J} {l : Ledger J} {σ τ : System J} (a : Action J) (before : Undisturbed first capacity g j l σ)
      (taken : σ.act first a = some τ) (calm : τ.Unstopped) :
      Undisturbed first capacity g (j.after σ τ a) (l.after σ a) τ

/-- A generation that no stop has touched. -/
structure Untouched (g : Nat) (j : Journal J) (σ : System J) : Prop where
  live : σ.scheduler.isOver g = false
  unordered : ∀ e, .ordered g e ∉ σ.history
  undrained : ∀ h e, (.drained h,e) ∈ j.left → e.generation ≠ g

namespace Undisturbed
variable {first : J} {capacity g : Nat} {j : Journal J} {l : Ledger J} {σ τ : System J} {a : Action J}

theorem audited (undisturbed : Undisturbed first capacity g j l σ) : Audited first capacity j l σ := by
  induction undisturbed with
  | opened a before taken older newest calm => exact .act a before taken
  | act a before taken calm ih => exact .act a ih taken

theorem calm (undisturbed : Undisturbed first capacity g j l σ) : σ.Unstopped := by
  cases undisturbed with
  | opened a before taken older newest calm => exact calm
  | act a before taken calm => exact calm

theorem untouched (undisturbed : Undisturbed first capacity g j l σ) : Untouched g j σ := by
  induction undisturbed with
  | @opened j l σ τ a before taken older newest calm =>
    have step := System.step_of_act taken
    have sound := System.sound_of_reachable before.journaled.reachable
    have dated := before.journaled.begins.dated
    have ordered := before.journaled.ordered
    have lawful := (System.orderly_of_reachable before.journaled.reachable).recorded.lawful
    obtain ⟨left,kept,who,p,found,called⟩ := System.opens_step (j := j) sound step (by omega)
    refine ⟨?_,fun e told => ?_,fun h e drained own => ?_⟩
    · have fits := (System.sound_step sound step).calls who _ called
      exact newest ▸ fits.2.2.1
    · obtain ⟨-,-,-,own,-⟩ := lawful.of_mem (kept g e told)
      have le := dated.entered e (List.mem_filterMap.mpr ⟨_,kept g e told,rfl⟩)
      have le : e.generation ≤ σ.scheduler.generation := le
      omega
    · rw [left] at drained
      have member : e ∈ (σ.traffic j).entered := by
        rw [ordered.flows.line]
        exact List.mem_append_right _ (List.mem_map.mpr ⟨_,drained,rfl⟩)
      have le : e.generation ≤ σ.scheduler.generation := dated.entered e member
      omega
  | @act j l σ τ a before taken calm untouched =>
    obtain ⟨live,unordered,undrained⟩ := untouched
    have step := System.step_of_act taken
    have reached := before.audited.journaled.reachable
    have sound := System.sound_of_reachable reached
    have orderly := System.orderly_of_reachable reached
    have after := System.orderly_of_reachable (.act a reached taken)
    refine ⟨?_,fun e told => unordered e (System.ordered_step before.calm step told),
      fun h e drained => undrained h e (System.drained_step sound before.calm step drained)⟩
    by_contra past
    have past : τ.scheduler.isOver g = true := by simpa using past
    have newest : g = σ.scheduler.generation := sound.steady.newest g live
    have proper : 1 ≤ g := by
      by_contra none
      have zero : g = 0 := by omega
      cases (zero ▸ live).symm.trans sound.steady.first
    have le := System.generation_step orderly after step
    have closed : .closed g ∈ τ.history := (after.recorded.closed g).mpr ⟨proper,newest ▸ le,past⟩
    -- Its worker has closed it, and so has begun with a stop that nobody has put into the queue.
    rcases System.closed_step step closed with old | place
    · exact orderly.recorded.not_closed live old
    · obtain ⟨e,task,began⟩ := System.began_of_ending reached (g := g) (by rw [place]; rfl)
      obtain ⟨later,earlier,same,own,-,sent⟩ := orderly.recorded.lawful.of_mem began
      have told : .ordered g e ∈ earlier := by simpa [Sent,task,own] using sent
      exact unordered e (same ▸ List.mem_append_right _ (List.mem_cons_of_mem _ told))

end Undisturbed

/-! ### Jobs do not wait -/

/-- Where the call of a running job can be: it never waits for room in the queue, and a start finds the generation
    of the worker running. -/
def Call.IsInside : Call J → Prop
  | .submit (.looks inside _) => inside = true
  | .submit (.sends _) | .stop _ => False
  | .submit _ | .start .enters _ | .start (.ended _) _ => True
  | .start _ _ => False

/-- The call waits for room in the queue. -/
def Call.waitsForRoom : Call J → Bool
  | .submit (.sends _) | .start (.submits (.sends _)) _ | .stop (.queues _ _) => true
  | _ => false

theorem Call.IsInside.waitsForRoom {c : Call J} (inside : c.IsInside) : c.waitsForRoom = false := by
  cases c with
  | start p found => cases p <;> first | rfl | cases inside
  | stop p => cases inside
  | submit p => cases p <;> first | rfl | cases inside

theorem Call.Step.isInside {finished : Nat → Bool} {first : J} {s t : Scheduler J} {c d : Call J}
    {events : List (Event J)} (step : Call.Step finished first s c d t events) (inside : c.IsInside)
    (runs : s.locked = false → s.running = true) : d.IsInside := by
  cases step with
  | start step =>
    cases step with
    | refuse free runs => trivial
    | enter free idle => cases (runs free).symm.trans idle
    | _ => cases inside
  | stop step => cases inside
  | submit step =>
    cases step with
    | @look job e live =>
      cases inside
      trivial
    | abandon past | send room => cases inside
    | _ => trivial

namespace System
variable {first : J} {capacity : Nat} {σ τ : System J} {a : Action J}

theorem isInside_step (sound : σ.Sound) (step : Step first σ a τ)
    (inside : ∀ w c, σ.call? (.worker w) = some c → c.IsInside) {w : Nat} {d : Call J}
    (called : τ.call? (.worker w) = some d) : d.IsInside := by
  by_cases concerned : a.Concerns (.worker w)
  · cases step with
    | takeHandle free | work step | finish place | settle place | interrupt free => exact concerned.elim
    | start free =>
      cases concerned
      cases call_setCall_self called
      trivial
    | stop free => cases concerned
    | submit free taken =>
      cases concerned
      cases call_setCall_self (call_arrive called)
      rfl
    | @go who made choice c d t events called' step =>
      cases concerned
      cases call_setCall_self (call_arrive called)
      refine step.isInside (inside w c called') fun free => ?_
      -- The generation of a running job is open, so it is the newest one and running.
      obtain ⟨n,d,place⟩ := runs_of_call (.inl ⟨c,called'⟩)
      have live : σ.scheduler.isOver w = false := (place ▸ sound.workers w : Worker.Fits σ.situation w (.runs n d))
      have newest : w = σ.scheduler.generation := sound.steady.newest w live
      rw [newest] at live
      exact (sound.steady.free free).1.mpr live
    | handOver called' free =>
      rcases concerned with rfl | same
      · rw [call_setCall_other _ _ (by nofun)] at called
        cases call_setCall_self called
      · cases same
    | failToHandOver called' =>
      cases concerned
      cases call_setCall_self (call_arrive called)
      trivial
    | «return» called' past =>
      cases concerned
      cases call_setCall_self called
  · exact inside w d ((call_step sound step concerned).symm.trans called)

theorem isInside_of_reachable (reached : Reachable first capacity σ) {w : Nat} {c : Call J}
    (called : σ.call? (.worker w) = some c) : c.IsInside := by
  induction reached generalizing w c with
  | init => cases called
  | act a reached taken ih =>
    exact isInside_step (sound_of_reachable reached) (step_of_act taken) (fun w c => ih) called

/-- There are always threads that are in no call. -/
theorem exists_free (reached : Reachable first capacity σ) : ∃ n, ∀ t, n ≤ t → σ.isFree (.thread t) = true := by
  induction reached with
  | init => exact ⟨0,fun t le => rfl⟩
  | @act σ τ a reached taken ih =>
    obtain ⟨n,free⟩ := ih
    obtain ⟨m,apart⟩ : ∃ m, ∀ t, m ≤ t → ¬a.Concerns (.thread t) := by
      cases a with
      | start who | submit who | go who | failToHandOver who | «return» who =>
        cases who with
        | thread u =>
          refine ⟨u+1,fun t le same => ?_⟩
          cases same
          omega
        | worker g => exact ⟨0,fun t le same => by cases same⟩
      | stop u =>
        refine ⟨u+1,fun t le same => ?_⟩
        cases same
        omega
      | handOver who u =>
        cases who with
        | thread v =>
          refine ⟨max u v+1,fun t le same => ?_⟩
          rcases same with same | same <;> cases same <;> omega
        | worker g =>
          refine ⟨u+1,fun t le same => ?_⟩
          rcases same with same | same <;> cases same
          omega
      | _ => exact ⟨0,fun t le same => same⟩
    refine ⟨max n m,fun t le => ?_⟩
    have same : τ.threads t = σ.threads t :=
      call_step (sound_of_reachable reached) (step_of_act taken) (apart t (by omega))
    exact (congrArg Option.isNone same).trans (free t (by omega))

/-- A job that submits can always go on. -/
theorem submission_goes_on (reached : Reachable first capacity σ) {w : Nat} {p : Submission J}
    (called : σ.call? (.worker w) = some (.submit p)) :
    ∃ a, a.Concerns (.worker w) ∧ (σ.act first a).isSome = true := by
  have goes : (p.next σ.scheduler)[0]?.isSome = true → ∃ a, a.Concerns (.worker w) ∧ (σ.act first a).isSome = true := by
    intro some
    obtain ⟨⟨q,t⟩,chosen⟩ := Option.isSome_iff_exists.mp some
    refine ⟨.go (.worker w) (.ok ()) 0,rfl,?_⟩
    simp [act,called,Call.moves,chosen]
  have inside := isInside_of_reachable reached called
  cases p with
  | looks job e =>
    refine goes ?_
    simp only [Submission.next]
    split <;> rfl
  | sends e => exact inside.elim
  | tries e =>
    refine goes ?_
    simp only [Submission.next]
    split <;> rfl
  | sent => exact goes rfl
  | refused => exact goes rfl
  | handsOver e =>
    obtain ⟨t,free⟩ := exists_free reached
    exact ⟨.handOver (.worker w) t,.inl rfl,by simp [act,called,free t (Nat.le_refl t)]⟩
  | ended accepted => exact ⟨.return (.worker w),rfl,by simp [act,called,Call.isOver]⟩

end System

/-! ### Deliveries -/

namespace Audited
variable {first : J} {capacity : Nat} {j : Journal J} {l : Ledger J} {σ : System J}

theorem answered (audited : Audited first capacity j l σ) : Answered l σ := by
  induction audited with
  | init => exact ⟨nofun,nofun⟩
  | act a before taken ih =>
    have reached := before.journaled.reachable
    have after := System.Reachable.act a reached taken
    exact ih.step (System.orderly_of_reachable reached) (System.orderly_of_reachable after)
      (System.sound_of_reachable reached) (System.sound_of_reachable after) before.journaled.begins.dated
      (System.step_of_act taken)

theorem finishes (audited : Audited first capacity j l σ) : Finishes l σ := by
  induction audited with
  | init => exact fun g => rfl
  | act a before taken ih =>
    exact ih.step (System.sound_of_reachable before.journaled.reachable) (System.step_of_act taken)

theorem mem_executedBy {g n : Nat} {executed : List (Nat × Nat)} : n ∈ executedBy g executed ↔ (g,n) ∈ executed := by
  simp only [executedBy,List.mem_filterMap,Prod.exists,Option.ite_none_right_eq_some,Option.some.injEq]
  constructor
  · rintro ⟨h,m,member,rfl,rfl⟩
    exact member
  · exact fun member => ⟨g,n,member,rfl,rfl⟩

theorem mem_jobsOf {n : Nat} {envelopes : List (Envelope J)} :
    n ∈ jobsOf envelopes ↔ ∃ e ∈ envelopes, (∃ x, e.task = .job x) ∧ e.serial = n := by
  simp only [jobsOf,List.mem_filterMap]
  refine exists_congr fun e => and_congr_right fun member => ?_
  cases e.task <;> simp

theorem jobsOf_sublist (envelopes : List (Envelope J)) : (jobsOf envelopes).Sublist (envelopes.map Envelope.serial) := by
  induction envelopes with
  | nil => exact .slnil
  | cons e rest ih =>
    cases task : e.task with
    | stop => simpa [jobsOf,task] using ih.cons e.serial
    | job x => simpa [jobsOf,task] using ih.cons_cons e.serial

/-- No job is run to its end twice. -/
theorem executed_nodup (audited : Audited first capacity j l σ) : (l.executed.map Prod.snd).Nodup := by
  induction audited with
  | init => exact .nil
  | @act j l σ τ a before taken ih =>
    cases System.step_of_act taken with
    | @finish g n panicked place =>
      have finishes := before.finishes
      have runs := finishes g
      rw [place] at runs
      have began : n ∈ jobsOf (begun g σ.history) := by
        rw [runs]
        exact List.mem_cons_self
      have nodup : (jobsOf (begun g σ.history)).Nodup := (before.journaled.begun_nodup g).sublist (jobsOf_sublist _)
      rw [runs] at nodup
      have fresh : n ∉ l.executed.map Prod.snd := by
        intro again
        obtain ⟨⟨h,m⟩,member,same⟩ := List.mem_map.mp again
        have same : m = n := same
        have ran : n ∈ executedBy h l.executed := mem_executedBy.mpr (same ▸ member)
        have also : n ∈ jobsOf (begun h σ.history) := by
          rw [finishes h]
          exact List.mem_append_right _ ran
        obtain ⟨e,begunByG,-,serial⟩ := mem_jobsOf.mp began
        obtain ⟨f,begunByH,-,serial'⟩ := mem_jobsOf.mp also
        have own : g = h := before.journaled.begun_alone begunByG begunByH (serial.trans serial'.symm)
        exact (List.nodup_cons.mp nodup).1 (own ▸ ran)
      have after : l.after σ (.finish g panicked) = { l with executed := (g,n) :: l.executed } := by
        simp [Ledger.after,place,Worker.running?]
      rw [after]
      exact List.nodup_cons.mpr ⟨fresh,ih⟩
    | «return» called past =>
      rcases l.after_return called past with ⟨b,-,same⟩ | ⟨-,same⟩
      · rw [same]
        exact ih
      · rw [same]
        exact ih
    | _ => exact ih

end Audited

/-- What callers can rely on while no stop is under way. -/
structure Delivered (first : J) (g : Nat) (l : Ledger J) (σ : System J) : Prop where
  /-- No job waits for room in the queue, and one that submits can always go on. -/
  unblocked : ∀ w c, σ.call? (.worker w) = some c → c.waitsForRoom = false
  goesOn : ∀ w p, σ.call? (.worker w) = some (.submit p) →
    ∃ a, a.Concerns (.worker w) ∧ (σ.act first a).isSome = true
  /-- No job is run twice. -/
  atMostOnce : (l.executed.map Prod.snd).Nodup
  /-- Once the queue is empty, the worker has nothing to do and nobody holds an envelope, every job that was
      accepted for the generation has been run to its end just once. -/
  once : σ.scheduler.queue = [] → (σ.workers g).serial? = none →
    (∀ who c, σ.call? who = some c → c.envelope? = none) →
    ∀ e, (e,true) ∈ l.returned → e.generation = g → (l.executed.map Prod.snd).count e.serial = 1

namespace Undisturbed
variable {first : J} {capacity g : Nat} {j : Journal J} {l : Ledger J} {σ : System J}

/-- What has entered the queue of a generation that no stop has touched is still there or has been begun with. -/
theorem begun_of_entered (undisturbed : Undisturbed first capacity g j l σ) (empty : σ.scheduler.queue = [])
    (hands : (σ.workers g).inHand? = none) {e : Envelope J} (member : e ∈ entered σ.history) (own : e.generation = g) :
    e ∈ begun g σ.history := by
  have journaled := undisturbed.audited.journaled
  have untouched := undisturbed.untouched
  rcases journaled.begins.begun_of_entered journaled.ordered (own.symm ▸ untouched.live) member
    (fun h drained => untouched.undrained h e drained own) with waits | holds | began
  · have waits : e ∈ σ.scheduler.queue := waits
    rw [empty] at waits
    cases waits
  · have holds : (σ.workers e.generation).inHand? = some e := holds
    rw [own,hands] at holds
    cases holds
  · exact own ▸ began

theorem delivered (undisturbed : Undisturbed first capacity g j l σ) : Delivered first g l σ := by
  have audited := undisturbed.audited
  have reached := audited.journaled.reachable
  have untouched := undisturbed.untouched
  refine ⟨fun w c called => (System.isInside_of_reachable reached called).waitsForRoom,
    fun w p => System.submission_goes_on reached,audited.executed_nodup,fun empty idle free e told own => ?_⟩
  have member : e ∈ entered σ.history := by
    rcases audited.answered.accepted e told with member | ⟨t,waits⟩ | ⟨-,past⟩
    · exact member
    · cases free _ _ waits
    · rw [own] at past
      cases past.symm.trans untouched.live
  have hands : (σ.workers g).inHand? = none := by
    cases place : σ.workers g <;> first | rfl | simp [place,Worker.serial?] at idle
  have rests : (σ.workers g).running? = none := by
    cases place : σ.workers g <;> first | rfl | simp [place,Worker.serial?] at idle
  have began := undisturbed.begun_of_entered empty hands member own
  obtain ⟨x,task⟩ : ∃ x, e.task = .job x := by
    cases task : e.task with
    | job x => exact ⟨x,rfl⟩
    | stop =>
      obtain ⟨later,earlier,same,-,-,sent⟩ :=
        (System.orderly_of_reachable reached).recorded.lawful.of_mem (mem_begun.mp began)
      have told : .ordered g e ∈ earlier := by simpa [Sent,task,own] using sent
      exact absurd (same ▸ List.mem_append_right _ (List.mem_cons_of_mem _ told)) (untouched.unordered e)
  have done : e.serial ∈ executedBy g l.executed := by
    have job : e.serial ∈ jobsOf (begun g σ.history) := Audited.mem_jobsOf.mpr ⟨e,began,⟨x,task⟩,rfl⟩
    rw [audited.finishes g,rests] at job
    exact job
  exact List.count_eq_one_of_mem audited.executed_nodup
    (List.mem_map.mpr ⟨_,Audited.mem_executedBy.mp done,rfl⟩)

end Undisturbed

/-! ### Runs -/

/-- An action that does not begin a stop. -/
def Action.isCalm : Action J → Bool
  | .stop _ => false
  | _ => true

namespace System
variable {first : J} {capacity g : Nat} {j k : Journal J} {l m : Ledger J} {σ τ : System J} {a : Action J}

/-- No stop is under way after an action that does not begin one. -/
theorem unstopped_step (calm : σ.Unstopped) (sound : σ.Sound) (step : Step first σ a τ) (other : ∀ t, a ≠ .stop t) :
    τ.Unstopped := by
  intro who p called
  by_cases concerned : a.Concerns who
  · cases step with
    | takeHandle free | work step | finish place | settle place | interrupt free => exact concerned.elim
    | start free =>
      cases concerned
      cases call_setCall_self called
    | stop free => exact absurd rfl (other _)
    | submit free taken | failToHandOver called' =>
      cases concerned
      cases call_setCall_self (call_arrive called)
    | @go who made choice c d t events called' step =>
      cases concerned
      cases call_setCall_self (call_arrive called)
      cases step with
      | stop step =>
        have finished := calm who _ called'
        cases step <;> cases finished
    | @handOver party t e called' free =>
      by_cases own : who = .thread t
      · subst own
        cases call_setCall_self called
      · rw [call_setCall_other _ _ own] at called
        cases concerned.resolve_right own
        cases call_setCall_self called
    | «return» called' past =>
      cases concerned
      cases call_setCall_self called
  · exact calm who p ((call_step sound step concerned).symm.trans called)

/-- What comes of actions one after another, with the journal and the ledger. -/
def audit (first : J) (j : Journal J) (l : Ledger J) (σ : System J) :
    List (Action J) → Option (Journal J × Ledger J × System J)
  | [] => some (j,l,σ)
  | a :: rest =>
    match σ.act first a with
    | some τ => τ.audit first (j.after σ τ a) (l.after σ a) rest
    | none => none

/-- What holds at the beginning and is kept by every action holds at the end. -/
theorem audit_induction {P : Journal J → Ledger J → System J → Prop} (actions : List (Action J)) (start : P j l σ)
    (keeps : ∀ j l σ τ, ∀ a ∈ actions, P j l σ → σ.act first a = some τ → P (j.after σ τ a) (l.after σ a) τ)
    (taken : σ.audit first j l actions = some (k,m,τ)) : P k m τ := by
  induction actions generalizing j l σ with
  | nil =>
    cases taken
    exact start
  | cons a rest ih =>
    simp only [audit] at taken
    split at taken
    · next step =>
      refine ih (keeps j l σ _ a List.mem_cons_self start step) (fun j l σ τ b member => ?_) taken
      exact keeps j l σ τ b (List.mem_cons_of_mem a member)
    · cases taken

end System

namespace Undisturbed
variable {first : J} {capacity g : Nat} {j k : Journal J} {l m : Ledger J} {σ τ : System J}

/-- Nobody stops the scheduler from its beginning until a generation is opened. -/
theorem of_audit (before : List (Action J)) (calm : ∀ a ∈ before, a.isCalm = true)
    (taken : (System.init capacity).audit first {} {} before = some (j,l,σ)) {a : Action J} (next : a.isCalm = true)
    (opens : σ.act first a = some τ) (older : σ.scheduler.generation < g) (newest : τ.scheduler.generation = g) :
    Undisturbed first capacity g (j.after σ τ a) (l.after σ a) τ := by
  have other : ∀ {b : Action J}, b.isCalm = true → ∀ t, b ≠ .stop t := by
    rintro b calm t rfl
    cases calm
  obtain ⟨audited,unstopped⟩ : Audited first capacity j l σ ∧ σ.Unstopped := by
    refine System.audit_induction (P := fun j l σ => Audited first capacity j l σ ∧ σ.Unstopped) before
      ⟨.init,fun who p called => ?_⟩ (fun j l σ τ b member ⟨audited,unstopped⟩ taken => ⟨.act b audited taken,?_⟩) taken
    · cases who <;> cases called
    · exact System.unstopped_step unstopped (System.sound_of_reachable audited.journaled.reachable)
        (System.step_of_act taken) (other (calm b member))
  exact .opened a audited opens older newest (System.unstopped_step unstopped
    (System.sound_of_reachable audited.journaled.reachable) (System.step_of_act opens) (other next))

theorem audit (undisturbed : Undisturbed first capacity g j l σ) (actions : List (Action J))
    (calm : ∀ a ∈ actions, a.isCalm = true) (taken : σ.audit first j l actions = some (k,m,τ)) :
    Undisturbed first capacity g k m τ := by
  refine System.audit_induction (P := Undisturbed first capacity g) actions undisturbed
    (fun j l σ τ a member before taken => .act a before taken ?_) taken
  refine System.unstopped_step before.calm (System.sound_of_reachable before.audited.journaled.reachable)
    (System.step_of_act taken) ?_
  rintro t rfl
  cases calm _ member

/-- A thread starts the scheduler, whose queue holds one envelope, and makes an engine. -/
def founding : List (Action Nat) := .start (.thread 0) :: List.replicate 2 (.go (.thread 0) (.ok ()) 0)

/-- The first job submits two more. The second one of them finds the queue full and goes to a thread, and the first
    one of them panics. -/
def overflowing : List (Action Nat) :=
  List.flatten [
    List.replicate 5 (.go (.thread 0) (.ok ()) 0),[.return (.thread 0),.takeHandle],List.replicate 6 (.work 1 0),
    [.submit (.worker 1) 1 7],List.replicate 3 (.go (.worker 1) (.ok ()) 0),[.return (.worker 1)],
    [.submit (.worker 1) 1 8],List.replicate 2 (.go (.worker 1) (.ok ()) 0),
    [.handOver (.worker 1) 1,.finish 1 false,.work 1 0,.settle 1],List.replicate 6 (.work 1 0),
    List.replicate 2 (.go (.thread 1) (.ok ()) 0),[.return (.thread 1),.finish 1 true,.work 1 0,.settle 1],
    List.replicate 6 (.work 1 0),[.finish 1 false,.work 1 0,.settle 1]]

/-- What comes of it. -/
def overflowed : Option (Journal Nat × Ledger Nat × System Nat) := do
  let (j,l,σ) ← (System.init 1).audit 0 {} {} founding
  let τ ← σ.act 0 (.go (.thread 0) (.ok ()) 0)
  τ.audit 0 (j.after σ τ (.go (.thread 0) (.ok ()) 0)) (l.after σ (.go (.thread 0) (.ok ()) 0)) overflowing

theorem undisturbed_overflowed : ∃ j l σ, overflowed = some (j,l,σ) ∧ Undisturbed 0 1 1 j l σ := by
  have facts : ((System.init 1).audit 0 {} {} founding).map (fun (_,_,σ) =>
      (σ.scheduler.generation,(σ.act 0 (.go (.thread 0) (.ok ()) 0)).map (·.scheduler.generation))) =
    some (0,some 1) := rfl
  obtain ⟨⟨j,l,σ⟩,founded,values⟩ := Option.map_eq_some_iff.mp facts
  simp only [Prod.mk.injEq,Option.map_eq_some_iff] at values
  obtain ⟨none,τ,opens,one⟩ := values
  obtain ⟨⟨k,m,υ⟩,ran⟩ : ∃ x, overflowed = some x := Option.isSome_iff_exists.mp rfl
  have rest := ran
  simp only [overflowed,founded,opens,bind,Option.bind] at rest
  have opened := of_audit (g := 1) founding (by decide) founded (by rfl) opens (by omega) one
  exact ⟨k,m,υ,ran,opened.audit overflowing (by decide) rest⟩

theorem delivered_after_overflow : ∃ j l σ, overflowed = some (j,l,σ) ∧ σ.scheduler.queue = [] ∧
    (σ.workers 1).serial? = none ∧ (∀ who, σ.call? who = none) ∧
    l.returned = [(⟨2,1,.job 8⟩,true),(⟨1,1,.job 7⟩,true)] ∧ Undisturbed 0 1 1 j l σ ∧ Delivered 0 1 l σ := by
  have facts : overflowed.map (fun (_,l,σ) => (σ.scheduler.queue,(σ.workers 1).serial?,l.returned,
      σ.call? (.thread 0),σ.call? (.thread 1),σ.call? (.worker 0),σ.call? (.worker 1))) =
    some ([],none,[(⟨2,1,.job 8⟩,true),(⟨1,1,.job 7⟩,true)],none,none,none,none) := rfl
  have others : ∀ n, overflowed.map (fun (_,_,σ) => (σ.call? (.thread (n+2)),σ.call? (.worker (n+2)))) =
    some (none,none) := fun n => rfl
  obtain ⟨j,l,σ,ran,undisturbed⟩ := undisturbed_overflowed
  simp only [ran,Option.map_some,Option.some.injEq,Prod.mk.injEq] at facts others
  obtain ⟨queue,serial,returned,thread0,thread1,worker0,worker1⟩ := facts
  refine ⟨j,l,σ,ran,queue,serial,fun who => ?_,returned,undisturbed,undisturbed.delivered⟩
  match who with
  | .thread 0 => exact thread0
  | .thread 1 => exact thread1
  | .thread (n+2) => exact (others n).1
  | .worker 0 => exact worker0
  | .worker 1 => exact worker1
  | .worker (n+2) => exact (others n).2

end Undisturbed

end ScriptHost
