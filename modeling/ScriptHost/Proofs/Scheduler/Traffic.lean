import ScriptHost.Proofs.Scheduler.History
/-!
The ways of envelopes. An envelope is held by the party that hands it in, waits in the queue, is in the hands
of a worker, and is begun with or dropped. `Traffic` is where all envelopes are and have been, and
`Traffic.Step` what one step of a thread may change about that, with what the thread can count on when it takes
the step. Every action is such a step (`traffic_step`), so what is said about the order of envelopes is
proved by cases on these few steps.
-/
namespace ScriptHost
variable {J : Type}

/-! ### What is remembered of a run -/

/-- How an envelope left the queue. -/
inductive Exit where
  /-- The worker of a generation took it. -/
  | taken (g : Nat)
  /-- A start emptied the queue. -/
  | cleared
  /-- A stop of a generation emptied the queue. -/
  | drained (g : Nat)
  deriving DecidableEq

/-- What the history of a system does not tell. All lists are newest first. -/
structure Journal (J : Type) where
  /-- The envelopes that parties have handed in through handles. -/
  calls : List (Party × Envelope J) := []
  /-- The envelopes that starts have made. -/
  firsts : List (Envelope J) := []
  /-- The envelopes for which a job found the queue full. -/
  full : List (Envelope J) := []
  /-- The envelopes that have left the queue. -/
  left : List (Exit × Envelope J) := []

/-- The envelopes that a party has handed in, out of all that were handed in. -/
def calledBy (who : Party) (calls : List (Party × Envelope J)) : List (Envelope J) :=
  calls.filterMap fun call => if call.1 = who then some call.2 else none

/-- The envelopes that the worker of a generation has taken, out of all that have left the queue. -/
def takenBy (g : Nat) (left : List (Exit × Envelope J)) : List (Envelope J) :=
  left.filterMap fun exit => if exit.1 = .taken g then some exit.2 else none

/-- The envelope that a step of a call takes out of the queue. -/
def Call.exit? (s : Scheduler J) : Call J → Call J → Option (Exit × Envelope J)
  | .start (.drains _) _, .start (.drains _) _ => s.queue.head?.map (.cleared,·)
  | .stop (.drains g _), .stop (.drains _ _) => s.queue.head?.map (.drained g,·)
  | _, _ => none

/-- The envelope that a step of a start makes. -/
def Call.first? : Call J → Call J → Option (Envelope J)
  | .start .creates _, .start p _ => p.envelope?
  | _, _ => none

/-- The envelope for which a step of a submission finds the queue full. -/
def Submission.overflow? : Submission J → Submission J → Option (Envelope J)
  | .tries e, .handsOver _ => some e
  | _, _ => none

/-- The envelope for which a step of a call finds the queue full. -/
def Call.overflow? : Call J → Call J → Option (Envelope J)
  | .submit p, .submit q | .start (.submits p) _, .start (.submits q) _ => p.overflow? q
  | _, _ => none

/-- The envelope that a step of the worker of a generation takes out of the queue. -/
def Worker.exit? {R : Type} (g : Nat) : Worker J R → Worker J R → Option (Exit × Envelope J)
  | .selects, .took e => some (.taken g,e)
  | _, _ => none

/-- The journal after an action that leads from one system to another one. -/
def Journal.after (j : Journal J) (σ τ : System J) : Action J → Journal J
  | .submit who handle x => { j with calls := (who,(σ.scheduler.envelop handle (.job x)).1) :: j.calls }
  | .go who _ _ =>
    match σ.call? who, τ.call? who with
    | some c, some d =>
      { j with
        firsts := (c.first? d).toList ++ j.firsts
        full := (c.overflow? d).toList ++ j.full
        left := (c.exit? σ.scheduler d).toList ++ j.left }
    | _, _ => j
  | .work g _ => { j with left := ((σ.workers g).exit? g (τ.workers g)).toList ++ j.left }
  | _ => j

/-- The systems that some interleaving leads to, with the journal of that interleaving. -/
inductive Journaled (first : J) (capacity : Nat) : Journal J → System J → Prop where
  | init : Journaled first capacity {} (.init capacity)
  | act {j : Journal J} {σ τ : System J} (a : Action J) (before : Journaled first capacity j σ)
      (taken : σ.act first a = some τ) : Journaled first capacity (j.after σ τ a) τ

/-- The envelope that an event puts into the queue. -/
def Event.entered? : Event J → Option (Envelope J)
  | .queued e | .ordered _ e => some e
  | _ => none

/-- The envelope that the worker of a generation begins with in an event. -/
def Event.begun? (g : Nat) : Event J → Option (Envelope J)
  | .began h e => if h = g then some e else none
  | _ => none

/-- The envelopes that were put into the queue, newest first. -/
def entered (history : List (Event J)) : List (Envelope J) := history.filterMap Event.entered?

/-- The envelopes that the worker of a generation has begun with, newest first. -/
def begun (g : Nat) (history : List (Event J)) : List (Envelope J) := history.filterMap (Event.begun? g)

theorem mem_begun {g : Nat} {history : List (Event J)} {e : Envelope J} :
    e ∈ begun g history ↔ .began g e ∈ history := by
  unfold begun
  rw [List.mem_filterMap]
  constructor
  · rintro ⟨event,member,same⟩
    cases event with
    | began h f =>
      simp only [Event.begun?] at same
      split at same
      · next own =>
        cases same
        exact own ▸ member
      · cases same
    | _ => cases same
  · intro member
    exact ⟨_,member,by simp [Event.begun?]⟩

/-! ### Where envelopes are -/

/-- Where all envelopes are and have been. The lists other than the queue are newest first. -/
@[ext] structure Traffic (J : Type) where
  /-- The newest generation. -/
  generation : Nat
  /-- The serial number of the next envelope. -/
  serial : Nat
  /-- What parties hold that have not handed it in yet. -/
  held : Party → Option (Envelope J)
  queue : List (Envelope J)
  /-- What workers have taken and not begun with. -/
  hand : Nat → Option (Envelope J)
  calls : List (Party × Envelope J)
  firsts : List (Envelope J)
  full : List (Envelope J)
  left : List (Exit × Envelope J)
  entered : List (Envelope J)
  begun : Nat → List (Envelope J)

/-- What a thread can count on when it takes a step. -/
structure Outlook where
  ended : Nat → Bool
  /-- There is a handle or a stop of a generation. -/
  known : Nat → Prop
  /-- Who has the lock. -/
  holder : Option Party

/-- The traffic with what a scheduler shows of it. -/
def Traffic.showing (m : Traffic J) (s : Scheduler J) : Traffic J :=
  { m with generation := s.generation, serial := s.serial, queue := s.queue }

/-- What one step of a thread may change. -/
inductive Traffic.Step (first : J) (x : Outlook) (m : Traffic J) : Traffic J → Prop where
  | still : Step first x m m
  /-- A party is about to hand in a new envelope. -/
  | submit (who : Party) (e : Envelope J) (free : m.held who = none) (new : e.serial = m.serial)
      (told : x.known e.generation) :
    Step first x m { m with
      serial := m.serial+1, held := Function.update m.held who (some e), calls := (who,e) :: m.calls }
  /-- A start opens a generation and is about to hand in the first envelope. -/
  | open (who : Party) (e : Envelope J) (free : m.held who = none) (new : e.serial = m.serial)
      (next : e.generation = m.generation+1) (task : e.task = .job first) (locks : x.holder = some who) :
    Step first x m { m with
      generation := e.generation, serial := m.serial+1, held := Function.update m.held who (some e)
      firsts := e :: m.firsts }
  /-- A party drops what it holds, if it holds anything. -/
  | drop (who : Party)
      (lost : ∀ e, m.held who = some e → x.ended e.generation = true ∨ ∃ other, (other,e) ∈ m.calls) :
    Step first x m { m with held := Function.update m.held who none }
  | enter (who : Party) (e : Envelope J) (holds : m.held who = some e) :
    Step first x m { m with
      held := Function.update m.held who none, queue := m.queue ++ [e], entered := e :: m.entered }
  /-- A stop puts a new envelope into the queue. -/
  | order (e : Envelope J) (new : e.serial = m.serial) (told : x.known e.generation) :
    Step first x m { m with serial := m.serial+1, queue := m.queue ++ [e], entered := e :: m.entered }
  /-- A job finds the queue full. -/
  | overflow (g : Nat) (e : Envelope J) (holds : m.held (.worker g) = some e) :
    Step first x m { m with full := e :: m.full }
  | handOver (g t : Nat) (e : Envelope J) (holds : m.held (.worker g) = some e) (full : e ∈ m.full)
      (called : ∃ other, (other,e) ∈ m.calls) (free : m.held (.thread t) = none) :
    Step first x m { m with
      held := Function.update (Function.update m.held (.worker g) none) (.thread t) (some e) }
  | clear (e : Envelope J) (rest : List (Envelope J)) (queue : m.queue = e :: rest) (past : ∀ g, x.ended g = true) :
    Step first x m { m with queue := rest, left := (.cleared,e) :: m.left }
  | drain (g : Nat) (e : Envelope J) (rest : List (Envelope J)) (queue : m.queue = e :: rest) :
    Step first x m { m with queue := rest, left := (.drained g,e) :: m.left }
  | take (g : Nat) (e : Envelope J) (rest : List (Envelope J)) (queue : m.queue = e :: rest)
      (free : m.hand g = none) (live : x.ended g = false) :
    Step first x m { m with
      queue := rest, hand := Function.update m.hand g (some e), left := (.taken g,e) :: m.left }
  | discard (g : Nat) (e : Envelope J) (hand : m.hand g = some e) (stale : e.generation ≠ g) :
    Step first x m { m with hand := Function.update m.hand g none }
  | begin (g : Nat) (e : Envelope J) (hand : m.hand g = some e) (own : e.generation = g) :
    Step first x m { m with
      hand := Function.update m.hand g none, begun := Function.update m.begun g (e :: m.begun g) }

/-- The generation that a stop is of, once it has one. -/
def Stopping.target? : Stopping → Option Nat
  | .queues g _ | .counts g _ | .waits g _ | .drains g _ | .stores g | .flags g | .takes g | .joins g _ => some g
  | .enters | .ended _ => none

/-- The submission is one of a running job, which does not wait for the queue. -/
def Submission.isInside : Submission J → Bool
  | .looks inside _ => inside
  | .tries _ | .handsOver _ => true
  | .sends _ | .sent | .refused | .ended _ => false

/-- What a call holds is on record: a party handed it in, or a start made it for the generation that it has
    opened. Only jobs submit without waiting, and what they hand over has found the queue full. -/
def Call.InPlace (who : Party) (j : Journal J) : Call J → Prop
  | .submit p => (p.isInside = true → who.isWorker = true) ∧ (∀ e, p = .handsOver e → e ∈ j.full) ∧
      ∀ e, p.envelope? = some e → ∃ other, (other,e) ∈ j.calls
  | .start (.submits p) found => p.isInside = false ∧
      ∀ e, p.envelope? = some e → e.generation = found.generation+1
  | .start _ _ | .stop _ => True

namespace System

/-- Where all envelopes of a system are and have been. -/
def traffic (j : Journal J) (σ : System J) : Traffic J where
  generation := σ.scheduler.generation
  serial := σ.scheduler.serial
  held who := (σ.call? who).bind Call.envelope?
  queue := σ.scheduler.queue
  hand g := (σ.workers g).inHand?
  calls := j.calls
  firsts := j.firsts
  full := j.full
  left := j.left
  entered := entered σ.history
  begun g := begun g σ.history

/-- There is a handle or a stop of a generation. -/
def Knows (σ : System J) (g : Nat) : Prop :=
  g ∈ σ.handles ∨ ∃ who p, σ.call? who = some (.stop p) ∧ p.target? = some g

/-- What every thread of a system can count on. -/
def outlook (σ : System J) : Outlook := ⟨σ.scheduler.isOver,σ.Knows,σ.holder⟩

/-- All calls of a system are where they can be. -/
def InPlace (j : Journal J) (σ : System J) : Prop :=
  ∀ who c, σ.call? who = some c → c.InPlace who j

/-! ### Parties and workers from step to step -/

section
variable {σ : System J}

/-- A worker that runs a job or has an envelope in its hands is that of the newest generation. -/
theorem Sound.newest (sound : Sound σ) {g : Nat}
    (busy : (∃ n c, σ.workers g = .runs n c) ∨ ∃ e, (σ.workers g).inHand? = some e) :
    g = σ.scheduler.generation := by
  have fits := sound.workers g
  cases place : σ.workers g with
  | runs n c =>
    rw [place] at fits
    exact sound.steady.newest g fits
  | took e =>
    rw [place] at fits
    exact sound.steady.newest g fits
  | clearsRequested e | clearsFired e | clearsReason e =>
    rw [place] at fits
    exact sound.steady.newest g fits.1
  | _ => simp [place,Worker.inHand?] at busy

/-- A generation is the newest one, or its worker has nothing to do with envelopes. -/
def Calm (σ : System J) (g : Nat) : Prop :=
  g ≠ σ.scheduler.generation → (σ.workers g).call? = none ∧ (σ.workers g).inHand? = none

theorem Sound.calm (sound : Sound σ) (g : Nat) : Calm σ g := by
  intro other
  constructor
  · cases place : σ.workers g with
    | runs n c => exact absurd (sound.newest (.inl ⟨n,c,place⟩)) other
    | _ => rfl
  · cases hand : (σ.workers g).inHand? with
    | none => rfl
    | some e => exact absurd (sound.newest (.inr ⟨e,hand⟩)) other

/-- A party that is in a call, or can begin one, is in the call that it begins or goes on with. -/
theorem call_setCall (σ : System J) {who : Party} (c : Option (Call J))
    (calls : (∃ c, σ.call? who = some c) ∨ σ.isFree who) : (σ.setCall c who).call? who = c := by
  cases who with
  | thread t => simp [call?,setCall]
  | worker g =>
    obtain ⟨n,d,place⟩ := runs_of_call calls
    simp [call?,setCall,place,Worker.withCall,Worker.call?]

theorem Calm.setCall {g : Nat} (calm : Calm σ g) (sound : Sound σ) (c : Option (Call J)) {who : Party}
    (calls : (∃ c, σ.call? who = some c) ∨ σ.isFree who) : Calm (σ.setCall c who) g := by
  intro other
  rw [scheduler_setCall] at other
  rw [inHand_setCall]
  refine ⟨?_,(calm other).2⟩
  cases who with
  | thread t => exact (calm other).1
  | worker h =>
    obtain ⟨n,d,place⟩ := runs_of_call calls
    have apart : g ≠ h := fun same => other (same ▸ sound.newest (.inl ⟨n,d,place⟩))
    simpa only [System.setCall,Function.update_of_ne apart] using (calm other).1

theorem traffic_setCall (j : Journal J) (σ : System J) {who : Party} (c : Option (Call J))
    (calls : (∃ c, σ.call? who = some c) ∨ σ.isFree who) : (σ.setCall c who).traffic j =
      { σ.traffic j with held := Function.update (σ.traffic j).held who (c.bind Call.envelope?) } := by
  have held : ((σ.setCall c who).traffic j).held =
      Function.update (σ.traffic j).held who (c.bind Call.envelope?) := by
    funext other
    by_cases own : other = who
    · subst own
      rw [Function.update_self]
      exact congrArg (Option.bind · Call.envelope?) (call_setCall σ c calls)
    · rw [Function.update_of_ne own]
      exact congrArg (Option.bind · Call.envelope?) (call_setCall_other σ c own)
  have hand : ((σ.setCall c who).traffic j).hand = (σ.traffic j).hand := by
    funext g
    exact inHand_setCall σ c who g
  ext1
  case held => exact held
  case hand => exact hand
  all_goals
    cases who
    · rfl
    · rfl

/-- A generation that opens gets a worker that has nothing to do with envelopes yet. -/
theorem call_arrive_eq {s : Scheduler J} (calm : Calm σ s.generation) (who other : Party) (events : List (Event J)) :
    (σ.arrive who s events).call? other = σ.call? other := by
  cases other with
  | thread t => rfl
  | worker g =>
    unfold arrive
    split
    · rfl
    · next opens =>
      by_cases new : g = s.generation
      · subst new
        simpa [call?,Worker.call?] using (calm opens).1.symm
      · simp [call?,Function.update_of_ne new]

theorem inHand_arrive_eq {s : Scheduler J} (calm : Calm σ s.generation) (who : Party) (events : List (Event J)) (g : Nat) :
    ((σ.arrive who s events).workers g).inHand? = (σ.workers g).inHand? := by
  unfold arrive
  split
  · rfl
  · next opens =>
    by_cases new : g = s.generation
    · subst new
      simpa [Worker.inHand?] using (calm opens).2.symm
    · simp [Function.update_of_ne new]

theorem traffic_arrive (j : Journal J) {s : Scheduler J} (calm : Calm σ s.generation) (who : Party)
    (events : List (Event J)) :
    (σ.arrive who s events).traffic j =
      { (σ.traffic j).showing s with
        entered := entered events ++ entered σ.history
        begun := fun g => begun g events ++ begun g σ.history } := by
  ext1
  case held =>
    funext other
    exact congrArg (Option.bind · Call.envelope?) (call_arrive_eq calm who other events)
  case hand =>
    funext g
    exact inHand_arrive_eq calm who events g
  case entered => exact List.filterMap_append
  case begun =>
    funext g
    exact List.filterMap_append
  all_goals rfl

/-- A party goes on in a call, or begins one. -/
theorem traffic_goOn (sound : Sound σ) (j : Journal J) {who : Party} (c : Call J)
    (calls : (∃ c, σ.call? who = some c) ∨ σ.isFree who) (s : Scheduler J) (events : List (Event J)) :
    ((σ.setCall (some c) who).arrive who s events).traffic j =
      { (σ.traffic j).showing s with
        held := Function.update (σ.traffic j).held who c.envelope?
        entered := entered events ++ entered σ.history
        begun := fun g => begun g events ++ begun g σ.history } := by
  rw [traffic_arrive j ((sound.calm _).setCall sound _ calls),traffic_setCall j σ _ calls,history_setCall]
  rfl

theorem call_goOn (sound : Sound σ) {who : Party} (c : Call J)
    (calls : (∃ c, σ.call? who = some c) ∨ σ.isFree who) (s : Scheduler J) (events : List (Event J)) :
    ((σ.setCall (some c) who).arrive who s events).call? who = some c := by
  rw [call_arrive_eq ((sound.calm _).setCall sound _ calls),call_setCall σ _ calls]

end
end System

/-! ### What steps change -/

theorem Scheduler.queue_dequeue {s t : Scheduler J} {e : Envelope J} (taken : s.dequeue? = some (e,t)) :
    s.queue = e :: t.queue ∧ t.serial = s.serial ∧ t.generation = s.generation := by
  unfold dequeue? at taken
  split at taken
  · cases taken
  · next head rest queue =>
    cases taken
    exact ⟨queue,rfl,rfl⟩

section
variable {s t : Scheduler J} {first : J} {x : Outlook} {m : Traffic J} {who : Party}

theorem Traffic.showing_dequeue {e : Envelope J} (same : m.showing s = m) (taken : s.dequeue? = some (e,t)) :
    m.showing t = { m with queue := t.queue } ∧ m.queue = e :: t.queue := by
  obtain ⟨queue,serial,generation⟩ := Scheduler.queue_dequeue taken
  constructor
  · calc
      m.showing t = { m.showing s with queue := t.queue } := by simp only [showing,serial,generation]
      _ = { m with queue := t.queue } := by rw [same]
  · exact (congrArg Traffic.queue same).symm.trans queue

theorem Submission.Step.inside {p q : Submission J} (step : p.Step s q t) (inside : q.isInside = true) :
    p.isInside = true := by
  cases step with
  | @look job e live =>
    cases job with
    | true => rfl
    | false => cases inside
  | full full => rfl
  | _ => cases inside

theorem Submission.Step.waits {p q : Submission J} {full : List (Envelope J)} (step : p.Step s q t) {e : Envelope J}
    (waits : q = .handsOver e) : e ∈ (p.overflow? q).toList ++ full := by
  cases step with
  | @look job e live => cases job <;> cases waits
  | full none =>
    cases waits
    exact List.mem_cons_self
  | _ => cases waits

theorem Submission.Step.traffic {p q : Submission J} (step : p.Step s q t) (same : m.showing s = m)
    (ended : x.ended = s.isOver) (holds : m.held who = p.envelope?) (inside : p.isInside = true → who.isWorker = true) :
    Traffic.Step first x m { m.showing t with
      held := Function.update m.held who q.envelope?, full := (p.overflow? q).toList ++ m.full
      entered := entered (p.events q) ++ m.entered, begun := fun g => begun g (p.events q) ++ m.begun g } := by
  have drops : (∀ e, p.envelope? = some e → s.isOver e.generation = true) →
      Traffic.Step first x m { m.showing s with held := Function.update m.held who none } := by
    intro past
    rw [same]
    exact .drop who fun e held => .inl (ended ▸ past e (holds.symm.trans held))
  have stays : Traffic.Step first x m { m.showing s with held := Function.update m.held who p.envelope? } := by
    rw [same,← holds,Function.update_eq_self]
    exact .still
  have enters : ∀ e, p.envelope? = some e → Traffic.Step first x m { m.showing (s.enqueue e) with
      held := Function.update m.held who none, entered := e :: m.entered } := by
    intro e own
    have queue : (m.showing (s.enqueue e)) = { m.showing s with queue := (m.showing s).queue ++ [e] } := rfl
    rw [queue,same]
    exact .enter who e (holds.trans own)
  cases step with
  | late past | abandon past => exact drops fun f own => by cases own; exact past
  | countSent | countRefused => exact drops nofun
  | @look job e live => cases job <;> exact stays
  | @send e room | @put e room => exact enters e rfl
  | @full e none =>
    cases who with
    | thread t => cases inside rfl
    | worker g =>
      rw [same,show (handsOver e).envelope? = m.held (.worker g) from holds.symm,Function.update_eq_self]
      exact .overflow g e holds

theorem Starting.detach_serial (s : Scheduler J) (finished : Nat → Bool) : (detach s.lock finished).serial = s.serial := by
  unfold detach Scheduler.lock
  cases held : s.worker with
  | none => rfl
  | some g => cases gone : finished g <;> simp [gone,Scheduler.note]

theorem Starting.Step.traffic {finished : Nat → Bool} {p q : Starting J} {found found' : Scheduler J}
    (step : p.Step finished first s q t) (same : m.showing s = m) (ended : x.ended = s.isOver)
    (holds : m.held who = p.envelope?) (past : ∀ n, p = .drains n → ∀ g, x.ended g = true)
    (locks : p = .creates → x.holder = some who) (outside : ∀ r, p = .submits r → r.isInside = false) :
    Traffic.Step first x m { m.showing t with
      held := Function.update m.held who q.envelope?
      firsts := ((Call.start p found).first? (.start q found')).toList ++ m.firsts
      full := ((Call.start p found).overflow? (.start q found')).toList ++ m.full
      left := ((Call.start p found).exit? s (.start q found')).toList ++ m.left
      entered := entered (p.events found' t q) ++ m.entered
      begun := fun g => begun g (p.events found' t q) ++ m.begun g } := by
  have drops : p.envelope? = none → Traffic.Step first x m { m.showing s with held := Function.update m.held who none } := by
    intro none
    rw [same,← none,← holds,Function.update_eq_self]
    exact .still
  cases step with
  | enter free idle =>
    obtain ⟨-,generation,-,-,-,queue⟩ := control_detach s finished
    have shows : m.showing (detach s.lock finished) = m.showing s := by
      simp only [Traffic.showing,generation,detach_serial,queue]
    rw [shows]
    exact drops rfl
  | @drain n e t taken =>
    obtain ⟨shows,queue⟩ := Traffic.showing_dequeue same taken
    have left : (Call.start (.drains n) found).exit? s (.start (.drains (n+1)) found') = some (.cleared,e) := by
      simp [Call.exit?,(Scheduler.queue_dequeue taken).1]
    rw [left,shows,show (drains (n+1)).envelope? = m.held who from holds.symm,Function.update_eq_self]
    exact .clear e t.queue queue (past n rfl)
  | create =>
    have serial : s.serial = m.serial := congrArg Traffic.serial same
    have generation : s.generation = m.generation := congrArg Traffic.generation same
    have shows : m.showing (s.openGeneration.envelop (s.generation+1) (.job first)).2 =
        { m with generation := s.generation+1, serial := m.serial+1 } := by
      rw [← serial]
      exact congrArg (fun n : Traffic J => { n with generation := s.generation+1, serial := s.serial+1 }) same
    rw [shows]
    exact .open who (firstEnvelope first s) holds serial (congrArg (·+1) generation) rfl (locks rfl)
  | submit step => exact step.traffic same ended holds fun inside => by cases (outside _ rfl).symm.trans inside
  | @submitted p outcome | @dropped p line outcome =>
    refine drops ?_
    cases p with
    | ended accepted => rfl
    | handsOver e => cases outside _ rfl
    | _ => cases outcome
  | _ => exact drops rfl

theorem Stopping.Step.traffic {finished : Nat → Bool} {p q : Stopping} (step : p.Step finished s q t)
    (same : m.showing s = m) (free : m.held who = none) (told : ∀ g, p.target? = some g → x.known g) :
    Traffic.Step first x m { m.showing t with
      held := Function.update m.held who none
      left := ((Call.stop p : Call J).exit? s (.stop q)).toList ++ m.left, entered := entered (p.events s q) ++ m.entered
      begun := fun g => begun g (p.events s q) ++ m.begun g } := by
  rw [← free,Function.update_eq_self]
  have stays : Traffic.Step first x m (m.showing s) := by
    rw [same]
    exact .still
  cases step with
  | @queue g again room =>
    have serial : s.serial = m.serial := congrArg Traffic.serial same
    have shows : m.showing ((s.envelop g .stop).2.enqueue (s.envelop g .stop).1) =
        { m with serial := m.serial+1, queue := m.queue ++ [(s.envelop g .stop).1] } := by
      rw [← serial]
      exact congrArg (fun n : Traffic J => { n with
        serial := s.serial+1, queue := n.queue ++ [(s.envelop g .stop).1] }) same
    rw [shows]
    exact .order (s.envelop g .stop).1 serial (told g rfl)
  | @drain g n e t taken =>
    obtain ⟨shows,queue⟩ := Traffic.showing_dequeue same taken
    have left : ((Call.stop (.drains g n) : Call J).exit? s (.stop (.drains g (n+1)))) = some (.drained g,e) := by
      simp [Call.exit?,(Scheduler.queue_dequeue taken).1]
    rw [left,shows]
    exact .drain g e t.queue queue
  | _ => exact stays

theorem Worker.Step.quiet {g : Nat} {run : J → Option (Call J)} {rest : Option (Call J)}
    {p q : Worker J (Option (Call J))} (step : Worker.Step g run rest s p q t) : p.call? = none := by
  cases step <;> rfl

/-- A worker opens no generation. -/
theorem Worker.Step.generation {R : Type} {g : Nat} {run : J → R} {rest : R} {p q : Worker J R}
    (step : Step g run rest s p q t) : t.generation = s.generation := by
  cases step with
  | take taken => exact (Scheduler.queue_dequeue taken).2.2
  | leave free => exact congrArg Control.generation (Scheduler.control_leaveGeneration s g)
  | @countRan panicked => cases panicked <;> rfl
  | _ => rfl

theorem Worker.Step.traffic {R : Type} {g : Nat} {run : J → R} {rest : R} {p q : Worker J R}
    (step : Step g run rest s p q t) (same : m.showing s = m) (hand : m.hand g = p.inHand?)
    (live : p = .selects → x.ended g = false) (own : ∀ e, p = .clearsReason e → e.generation = g) :
    Traffic.Step first x m { m.showing t with
      hand := Function.update m.hand g q.inHand?
      left := (p.exit? g q).toList ++ m.left, entered := entered (p.events g q) ++ m.entered
      begun := fun h => begun h (p.events g q) ++ m.begun h } := by
  have stays : Traffic.Step first x m { m.showing s with hand := Function.update m.hand g p.inHand? } := by
    rw [same,← hand,Function.update_eq_self]
    exact .still
  have begins : ∀ e, p = .clearsReason e → Traffic.Step first x m { m.showing s with
      hand := Function.update m.hand g none, begun := fun h => begun h [.began g e] ++ m.begun h } := by
    intro e place
    have adds : (fun h => begun h [.began g e] ++ m.begun h) = Function.update m.begun g (e :: m.begun g) := by
      funext h
      by_cases own : h = g
      · subst own
        simp [begun,Event.begun?]
      · simp [begun,Event.begun?,own,Ne.symm own]
    rw [adds,same]
    exact .begin g e (by rw [hand,place]; rfl) (own e place)
  cases step with
  | @take e t taken =>
    obtain ⟨shows,queue⟩ := Traffic.showing_dequeue same taken
    rw [shows]
    exact .take g e t.queue queue hand (live rfl)
  | @discard e stale =>
    rw [show m.showing (s.countDiscarded 1) = m from same]
    exact .discard g e hand stale
  | @beginStop e task => exact begins e rfl
  | @beginJob e j task => exact begins e rfl
  | leave free =>
    have shows : m.showing (s.leaveGeneration g).lock = m.showing s := by
      unfold Scheduler.leaveGeneration
      split <;> rfl
    rw [shows]
    exact stays
  | @countRan panicked => cases panicked <;> exact stays
  | _ => exact stays

theorem Call.Step.traffic {σ : System J} {j : Journal J} {c d : Call J} {events : List (Event J)} (sound : σ.Sound)
    (inPlace : σ.InPlace j) (called : σ.call? who = some c)
    (step : Call.Step σ.isFinished first σ.scheduler c d t events) :
    Traffic.Step first σ.outlook (σ.traffic j) { (σ.traffic j).showing t with
      held := Function.update (σ.traffic j).held who d.envelope?
      firsts := (c.first? d).toList ++ j.firsts, full := (c.overflow? d).toList ++ j.full
      left := (c.exit? σ.scheduler d).toList ++ j.left, entered := entered events ++ entered σ.history
      begun := fun g => begun g events ++ begun g σ.history } := by
  have holds : (σ.traffic j).held who = c.envelope? := congrArg (Option.bind · Call.envelope?) called
  have fits := sound.calls who c called
  have place := inPlace who c called
  have same : (σ.traffic j).showing σ.scheduler = σ.traffic j := rfl
  have ended : σ.outlook.ended = σ.scheduler.isOver := rfl
  cases step with
  | @start p q found t step =>
    refine step.traffic same ended holds ?_ ?_ ?_
    · rintro n rfl g
      cases ended : σ.scheduler.isOver g with
      | true => exact ended
      | false =>
        obtain ⟨-,-,past,-⟩ := fits
        rw [sound.steady.newest g ended] at ended
        cases past.symm.trans ended
    · rintro rfl
      exact fits.1
    · rintro r rfl
      exact place.1
  | @stop p q t step => exact step.traffic same holds fun g target => .inr ⟨who,p,called,target⟩
  | submit step => exact step.traffic same ended holds place.1

/-- A call that is over holds nothing. -/
theorem Call.envelope_of_isOver (c : Call J) (past : c.isOver = true) : c.envelope? = none := by
  cases c with
  | start p found =>
    cases p with
    | ended r => rfl
    | _ => cases past
  | stop p => rfl
  | submit p =>
    cases p with
    | ended accepted => rfl
    | _ => cases past

/-- A journal that has been kept for some more steps. -/
structure Journal.Grows (j k : Journal J) : Prop where
  full : ∀ e ∈ j.full, e ∈ k.full
  calls : ∀ call ∈ j.calls, call ∈ k.calls

theorem Journal.Grows.refl (j : Journal J) : j.Grows j := ⟨fun _ => id,fun _ => id⟩

theorem Call.InPlace.mono {c : Call J} {j k : Journal J} (place : c.InPlace who j) (grows : j.Grows k) :
    c.InPlace who k := by
  cases c with
  | start p found => cases p <;> exact place
  | stop p => trivial
  | submit p =>
    obtain ⟨inside,waits,record⟩ := place
    refine ⟨inside,fun e same => grows.full e (waits e same),fun e holds => ?_⟩
    obtain ⟨other,called⟩ := record e holds
    exact ⟨other,grows.calls _ called⟩

theorem Call.Step.inPlace {σ : System J} {c d : Call J} {j k : Journal J} {events : List (Event J)}
    (place : c.InPlace who j) (fits : c.Fits σ.situation who)
    (step : Call.Step σ.isFinished first σ.scheduler c d t events)
    (full : k.full = (c.overflow? d).toList ++ j.full) (calls : k.calls = j.calls) : d.InPlace who k := by
  cases step with
  | start step =>
    cases step with
    | create =>
      obtain ⟨-,-,-,-,-,newest,-⟩ := fits
      refine ⟨rfl,fun e holds => ?_⟩
      cases holds
      exact congrArg (·+1) newest
    | @submit p q t step =>
      obtain ⟨outside,own⟩ := place
      refine ⟨?_,fun e holds => own e (step.envelope holds)⟩
      cases inside : q.isInside with
      | false => rfl
      | true => cases outside.symm.trans (step.inside inside)
    | _ => trivial
  | stop step => trivial
  | submit step =>
    obtain ⟨inside,-,record⟩ := place
    refine ⟨fun inner => inside (step.inside inner),fun e waits => full ▸ step.waits waits,fun e holds => ?_⟩
    exact calls ▸ record e (step.envelope holds)

end

namespace System
variable {σ τ : System J} {first : J} {j : Journal J}

theorem after_go {who : Party} {made : Except Failure Unit} {choice : Nat} {c d : Call J} (j : Journal J)
    (before : σ.call? who = some c) (after : τ.call? who = some d) :
    j.after σ τ (.go who made choice) =
      { j with
        firsts := (c.first? d).toList ++ j.firsts
        full := (c.overflow? d).toList ++ j.full
        left := (c.exit? σ.scheduler d).toList ++ j.left } := by
  simp only [Journal.after,before,after]

theorem call_of_free {who : Party} (free : σ.isFree who = true) : σ.call? who = none := by
  cases who with
  | thread t => exact Option.isNone_iff_eq_none.mp free
  | worker g =>
    simp only [isFree] at free
    cases place : σ.workers g with
    | runs n c =>
      rw [place] at free
      cases c with
      | none => simp [call?,place,Worker.call?]
      | some c => cases free
    | _ => simp [call?,place,Worker.call?]

theorem held_of_free {who : Party} (free : σ.isFree who = true) : (σ.traffic j).held who = none :=
  congrArg (Option.bind · Call.envelope?) (call_of_free free)

theorem traffic_quiet (j : Journal J) {who : Party} {c : Option (Call J)}
    (calls : (∃ c, σ.call? who = some c) ∨ σ.isFree who) (before : (σ.traffic j).held who = none)
    (after : c.bind Call.envelope? = none) : (σ.setCall c who).traffic j = σ.traffic j := by
  rw [traffic_setCall j σ c calls,after,← before,Function.update_eq_self]

/-- A worker goes from one place at which it is in no call to another one. -/
theorem call_place {g : Nat} {p : Worker J (Option (Call J))} (before : (σ.workers g).call? = none)
    (after : p.call? = none) (who : Party) :
    call? { σ with workers := Function.update σ.workers g p } who = σ.call? who := by
  cases who with
  | thread t => rfl
  | worker h =>
    by_cases same : h = g
    · subst same
      simp [call?,before,after]
    · simp [call?,Function.update_of_ne same]

theorem traffic_place {g : Nat} {p : Worker J (Option (Call J))} (j : Journal J)
    (before : (σ.workers g).call? = none) (after : p.call? = none) :
    traffic j { σ with workers := Function.update σ.workers g p } =
      { σ.traffic j with hand := Function.update (σ.traffic j).hand g p.inHand? } := by
  ext1
  case held =>
    funext who
    exact congrArg (Option.bind · Call.envelope?) (call_place before after who)
  case hand =>
    funext h
    by_cases same : h = g
    · subst same
      simp [traffic]
    · simp [traffic,Function.update_of_ne same]
  all_goals rfl

theorem traffic_idle {g : Nat} {p : Worker J (Option (Call J))} (j : Journal J)
    (before : (σ.workers g).call? = none) (after : p.call? = none) (hand : (σ.workers g).inHand? = p.inHand?) :
    traffic j { σ with workers := Function.update σ.workers g p } = σ.traffic j := by
  rw [traffic_place j before after,← hand,show (σ.workers g).inHand? = (σ.traffic j).hand g from rfl,
    Function.update_eq_self]

namespace InPlace
variable {k : Journal J}

theorem of_calls (inPlace : σ.InPlace j) (grows : j.Grows k)
    (calls : ∀ who c, τ.call? who = some c → σ.call? who = some c ∨ c.InPlace who k) : τ.InPlace k := by
  intro who c called
  rcases calls who c called with before | place
  · exact (inPlace who c before).mono grows
  · exact place

theorem setCall (inPlace : σ.InPlace j) {who : Party} {c : Option (Call J)}
    (place : ∀ d, c = some d → d.InPlace who j) : (σ.setCall c who).InPlace j := by
  refine inPlace.of_calls (.refl j) fun other d called => ?_
  by_cases own : other = who
  · subst own
    exact .inr (place d (call_setCall_self called))
  · exact .inl ((call_setCall_other σ c own).symm.trans called)

theorem goOn (inPlace : σ.InPlace j) {who : Party} {c : Call J} {s : Scheduler J} {events : List (Event J)}
    (grows : j.Grows k) (place : c.InPlace who k) : ((σ.setCall (some c) who).arrive who s events).InPlace k := by
  refine inPlace.of_calls grows fun other d called => ?_
  have called := call_arrive called
  by_cases own : other = who
  · subst own
    cases call_setCall_self called
    exact .inr place
  · exact .inl ((call_setCall_other σ _ own).symm.trans called)

end InPlace

theorem inPlace_step (sound : Sound σ) (inPlace : σ.InPlace j) {a : Action J} (step : Step first σ a τ) :
    τ.InPlace (j.after σ τ a) := by
  cases step with
  | takeHandle free | interrupt free => exact inPlace.of_calls (.refl j) fun who c called => .inl called
  | start free | stop free =>
    refine inPlace.setCall fun d same => ?_
    cases same
    trivial
  | @submit who handle job free taken =>
    refine inPlace.goOn ⟨fun _ => id,fun _ => List.mem_cons_of_mem _⟩ ⟨id,nofun,fun e holds => ?_⟩
    cases holds
    exact ⟨who,List.mem_cons_self⟩
  | @go who made choice c d t events called step =>
    rw [after_go j called (call_goOn sound d (.inl ⟨c,called⟩) t events)]
    exact inPlace.goOn ⟨fun _ => List.mem_append_right _,fun _ => id⟩
      (step.inPlace (inPlace who c called) (sound.calls who c called) rfl rfl)
  | @handOver who t e called free =>
    obtain ⟨-,-,record⟩ := inPlace who _ called
    refine InPlace.setCall (j := j) (inPlace.setCall fun d none => by cases none) fun d same => ?_
    cases same
    exact ⟨nofun,nofun,fun f holds => record f holds⟩
  | failToHandOver called => exact inPlace.goOn (.refl j) ⟨nofun,nofun,nofun⟩
  | «return» called past => exact inPlace.setCall fun d none => by cases none
  | @work g choice p t step =>
    refine inPlace.of_calls ⟨fun _ => id,fun _ => id⟩ fun who c called => .inl ?_
    exact (call_place step.quiet step.call who).symm.trans (call_arrive called)
  | @finish g n panicked place =>
    refine inPlace.of_calls (.refl j) fun who c called => .inl ?_
    exact (call_place (by rw [place]; rfl) rfl who).symm.trans called
  | @settle g r place =>
    refine inPlace.of_calls (.refl j) fun who c called => .inl ?_
    exact (call_place (by rw [place]; rfl) rfl who).symm.trans called

/-- Every action of a system is one of the few steps that envelopes can take. -/
theorem traffic_step (sound : Sound σ) (inPlace : σ.InPlace j) {a : Action J} (step : Step first σ a τ) :
    Traffic.Step first σ.outlook (σ.traffic j) (τ.traffic (j.after σ τ a)) := by
  cases step with
  | takeHandle free => exact .still
  | @start who free =>
    show Traffic.Step first σ.outlook (σ.traffic j) ((σ.setCall _ who).traffic j)
    rw [traffic_quiet j (.inr free) (held_of_free free) rfl]
    exact .still
  | @stop t free =>
    show Traffic.Step first σ.outlook (σ.traffic j) ((σ.setCall _ (.thread t)).traffic j)
    rw [traffic_quiet j (.inr free) (held_of_free free) rfl]
    exact .still
  | @submit who handle job free taken =>
    rw [traffic_goOn sound _ _ (.inr free)]
    exact .submit who (σ.scheduler.envelop handle (.job job)).1 (held_of_free free) rfl (.inl taken)
  | @go who made choice c d t events called step =>
    rw [after_go j called (call_goOn sound d (.inl ⟨c,called⟩) t events),traffic_goOn sound _ _ (.inl ⟨c,called⟩)]
    exact step.traffic sound inPlace called
  | @handOver who t e called free =>
    have place := inPlace who _ called
    have holds : (σ.traffic j).held who = some e := congrArg (Option.bind · Call.envelope?) called
    cases who with
    | thread u => cases place.1 rfl
    | worker g =>
      show Traffic.Step first σ.outlook (σ.traffic j) (((σ.setCall none (.worker g)).setCall _ (.thread t)).traffic j)
      have idle : (σ.setCall none (.worker g)).isFree (.thread t) = true := free
      rw [traffic_setCall j _ _ (.inr idle),traffic_setCall j σ _ (.inl ⟨_,called⟩)]
      exact .handOver g t e holds (place.2.1 e rfl) (place.2.2 e rfl) (held_of_free free)
  | @failToHandOver who e called =>
    rw [traffic_goOn sound _ _ (.inl ⟨_,called⟩)]
    refine .drop who fun f holds => .inr ((inPlace who _ called).2.2 f ?_)
    exact (congrArg (Option.bind · Call.envelope?) called).symm.trans holds
  | @«return» who c called past =>
    show Traffic.Step first σ.outlook (σ.traffic j) ((σ.setCall _ who).traffic j)
    have none : (σ.traffic j).held who = none :=
      (congrArg (Option.bind · Call.envelope?) called).trans (c.envelope_of_isOver past)
    rw [traffic_quiet j (.inl ⟨c,called⟩) none rfl]
    exact .still
  | @work g choice p t step =>
    have fits := sound.workers g
    have calm : Calm { σ with workers := Function.update σ.workers g p } t.generation :=
      fun opens => absurd step.generation opens
    have landed : ({ σ with workers := Function.update σ.workers g p }.arrive (.worker g) t
        ((σ.workers g).events g p)).workers g = p := by
      simp [arrive,step.generation]
    rw [traffic_arrive _ calm,traffic_place _ step.quiet step.call]
    simp only [Journal.after,landed]
    have same : (σ.traffic j).showing σ.scheduler = σ.traffic j := rfl
    have hand : (σ.traffic j).hand g = (σ.workers g).inHand? := rfl
    refine step.traffic same hand (fun place => ?_) fun e place => ?_
    · exact (place ▸ fits : Worker.Fits σ.situation g .selects)
    · exact (place ▸ fits : Worker.Fits σ.situation g (.clearsReason e)).2
  | @finish g n panicked place =>
    show Traffic.Step first σ.outlook (σ.traffic j) (traffic j { σ with workers := Function.update σ.workers g (.ran panicked) })
    rw [traffic_idle j (by rw [place]; rfl) rfl (by rw [place]; rfl)]
    exact .still
  | @settle g r place =>
    show Traffic.Step first σ.outlook (σ.traffic j) (traffic j { σ with workers := Function.update σ.workers g .looks })
    rw [traffic_idle j (by rw [place]; rfl) rfl (by rw [place]; rfl)]
    exact .still
  | @interrupt reason free =>
    have same : traffic j { σ with scheduler := σ.scheduler.interrupt reason } = σ.traffic j := by
      unfold Scheduler.interrupt
      split <;> rfl
    show Traffic.Step first σ.outlook (σ.traffic j) (traffic j { σ with scheduler := σ.scheduler.interrupt reason })
    rw [same]
    exact .still

/-! ### Runs -/

/-- What comes of actions one after another, with the journal. -/
def trace (first : J) (j : Journal J) (σ : System J) : List (Action J) → Option (Journal J × System J)
  | [] => some (j,σ)
  | a :: rest =>
    match σ.act first a with
    | some τ => τ.trace first (j.after σ τ a) rest
    | none => none

end System

namespace Journaled
variable {σ τ : System J} {first : J} {capacity : Nat} {j k : Journal J}

theorem trace (journaled : Journaled first capacity j σ) (actions : List (Action J))
    (taken : σ.trace first j actions = some (k,τ)) : Journaled first capacity k τ := by
  induction actions generalizing j σ with
  | nil =>
    cases taken
    exact journaled
  | cons a rest ih =>
    simp only [System.trace] at taken
    split at taken
    · next step => exact ih (.act a journaled step) taken
    · cases taken

theorem reachable (journaled : Journaled first capacity j σ) : σ.Reachable first capacity := by
  induction journaled with
  | init => exact .init
  | act a before taken ih => exact .act a ih taken

theorem inPlace (journaled : Journaled first capacity j σ) : σ.InPlace j := by
  induction journaled with
  | init =>
    intro who c called
    cases who <;> cases called
  | act a before taken ih =>
    exact System.inPlace_step (System.sound_of_reachable before.reachable) ih (System.step_of_act taken)

/-- What holds at the beginning and after every step is true of every run. -/
theorem traffic {P : Traffic J → Prop} (journaled : Journaled first capacity j σ)
    (init : P ((System.init capacity).traffic {}))
    (step : ∀ x m n, P m → Traffic.Step first x m n → P n) : P (σ.traffic j) := by
  induction journaled with
  | init => exact init
  | act a before taken ih =>
    exact step _ _ _ ih (System.traffic_step (System.sound_of_reachable before.reachable) before.inPlace
      (System.step_of_act taken))

end Journaled

/-- A journal can be kept of every run. -/
theorem System.Reachable.journaled {σ : System J} {first : J} {capacity : Nat} (reached : σ.Reachable first capacity) :
    ∃ j, Journaled first capacity j σ := by
  induction reached with
  | init => exact ⟨{},.init⟩
  | act a reached taken ih =>
    obtain ⟨j,journaled⟩ := ih
    exact ⟨_,.act a journaled taken⟩

end ScriptHost
