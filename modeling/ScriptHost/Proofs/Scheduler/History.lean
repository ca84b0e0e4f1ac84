import ScriptHost.Proofs.Scheduler.Invariant
/-!
What the history of a scheduler can look like. Every event is allowed by the events before it (`Lawful`):
a worker takes envelopes only while its generation is open, and begins only with tasks that were handed in
for its generation; a stop returns only after its generation has ended; a start opens exactly one
generation or none.
-/
namespace ScriptHost
variable {J : Type}

/-- Whoever made an envelope is on record: a stop of its generation, or a submission through a handle of
    its generation. -/
def Sent (history : List (Event J)) (e : Envelope J) : Prop :=
  match e.task with
  | .stop => .ordered e.generation e ∈ history
  | .job _ => .submitted e.generation e ∈ history

theorem Sent.mono {history : List (Event J)} {e : Envelope J} (events : List (Event J)) (sent : Sent history e) :
    Sent (events ++ history) e := by
  unfold Sent at sent ⊢
  split
  · next stop =>
    simp only [stop] at sent
    exact List.mem_append_right _ sent
  · next j job =>
    simp only [job] at sent
    exact List.mem_append_right _ sent

/-- What the events before an event tell, if it may happen after them. -/
def Event.Allowed (earlier : List (Event J)) : Event J → Prop
  | .submitted handle e => e.generation = handle ∧ ∃ j, e.task = .job j
  | .ordered g e => e.generation = g ∧ e.task = .stop
  | .opened g => .opened g ∉ earlier ∧ ∀ older, 1 ≤ older → older < g → .opened older ∈ earlier
  | .took g _ => .closed g ∉ earlier
  | .began g e => e.generation = g ∧ .closed g ∉ earlier ∧ Sent earlier e
  | .started (.ok _) found left => left.generation = found.generation+1
  | .started (.error _) found left =>
    left.running = found.running ∧ left.generation = found.generation ∧ left.signals = found.signals
  | .joined g w => g ≤ w ∧ .opened w ∈ earlier ∧ .opened (w+1) ∉ earlier
  | .stopped g (.ok _) => .closed g ∈ earlier
  | .stopped _ (.error _) => True
  | .queued _ | .refused _ | .closed _ => True

/-- Every event is allowed by the ones before it. -/
def Lawful : List (Event J) → Prop
  | [] => True
  | event :: earlier => event.Allowed earlier ∧ Lawful earlier

theorem Lawful.split {later earlier : List (Event J)} {event : Event J}
    (lawful : Lawful (later ++ event :: earlier)) : event.Allowed earlier ∧ Lawful earlier := by
  induction later with
  | nil => exact lawful
  | cons head rest ih => exact ih lawful.2

theorem Lawful.of_mem {history : List (Event J)} {event : Event J} (lawful : Lawful history)
    (member : event ∈ history) : ∃ later earlier, history = later ++ event :: earlier ∧ event.Allowed earlier := by
  obtain ⟨later,earlier,same⟩ := List.append_of_mem member
  exact ⟨later,earlier,same,(same ▸ lawful).split.1⟩

/-- An event was allowed by events among which are all that came before. -/
theorem Lawful.of_mem_later {later earlier : List (Event J)} {event : Event J}
    (lawful : Lawful (later ++ earlier)) (member : event ∈ later) :
    ∃ before, event.Allowed before ∧ ∀ old ∈ earlier, old ∈ before := by
  obtain ⟨last,middle,same⟩ := List.append_of_mem member
  rw [same,List.append_assoc,List.cons_append] at lawful
  exact ⟨middle ++ earlier,lawful.split.1,fun old member => List.mem_append_right middle member⟩

/-- The history tells which generations were opened and closed. -/
structure Recorded (c : Control) (history : List (Event J)) : Prop where
  opened : ∀ g, .opened g ∈ history ↔ 1 ≤ g ∧ g ≤ c.generation
  closed : ∀ g, .closed g ∈ history ↔ 1 ≤ g ∧ g ≤ c.generation ∧ c.isOver g = true
  lawful : Lawful history

/-- An event that neither opens nor closes a generation. -/
def Event.isPlain : Event J → Bool
  | .opened _ | .closed _ => false
  | _ => true

namespace Recorded
variable {c d : Control} {history : List (Event J)}

theorem still (recorded : Recorded c history) (generation : d.generation = c.generation)
    (signals : d.signals = c.signals) : Recorded d history := by
  have isOver : ∀ g, d.isOver g = c.isOver g := fun g => by unfold Control.isOver; rw [signals]
  refine ⟨fun g => ?_,fun g => ?_,recorded.lawful⟩
  · rw [generation]
    exact recorded.opened g
  · rw [generation,isOver]
    exact recorded.closed g

theorem note {event : Event J} (recorded : Recorded c history) (generation : d.generation = c.generation)
    (signals : d.signals = c.signals) (plain : event.isPlain = true) (allowed : event.Allowed history) :
    Recorded d (event :: history) := by
  have before := recorded.still generation signals
  refine ⟨fun g => ?_,fun g => ?_,allowed,recorded.lawful⟩
  · rw [← before.opened g,List.mem_cons]
    refine or_iff_right fun same => ?_
    rw [← same] at plain
    cases plain
  · rw [← before.closed g,List.mem_cons]
    refine or_iff_right fun same => ?_
    rw [← same] at plain
    cases plain

/-- A start opens the next generation with its first envelope. -/
theorem openNext (recorded : Recorded c history) (size : c.signals.size = c.generation+1) {e : Envelope J}
    {j : J} (own : e.generation = c.generation+1) (job : e.task = .job j) :
    Recorded ⟨true,c.generation+1,some (c.generation+1),c.locked,c.signals.push ⟨false⟩⟩
      (.submitted (c.generation+1) e :: .opened (c.generation+1) :: history) := by
  have fresh : .opened (c.generation+1) ∉ history := by
    rw [recorded.opened]
    omega
  have before : ∀ older, 1 ≤ older → older < c.generation+1 → .opened older ∈ history :=
    fun older first le => (recorded.opened older).mpr ⟨first,Nat.le_of_lt_succ le⟩
  refine ⟨fun g => ?_,fun g => ?_,⟨own,j,job⟩,⟨fresh,before⟩,recorded.lawful⟩
  · simp only [List.mem_cons,reduceCtorEq,Event.opened.injEq,false_or,recorded.opened g]
    omega
  · rw [c.isOver_push g size]
    simp only [List.mem_cons,reduceCtorEq,false_or,recorded.closed g]
    by_cases newest : g = c.generation+1
    · rw [if_pos newest]
      constructor
      · rintro ⟨-,le,-⟩
        omega
      · rintro ⟨-,-,past⟩
        cases past
    · rw [if_neg newest]
      constructor
      · rintro ⟨first,le,past⟩
        exact ⟨first,by omega,past⟩
      · rintro ⟨first,le,past⟩
        exact ⟨first,by omega,past⟩

/-- The worker of the newest generation closes it. -/
theorem close (recorded : Recorded c history) (first : 1 ≤ c.generation) :
    Recorded { c with signals := c.signals.modify c.generation fun signal => signal.close.2, locked := false }
      (.closed c.generation :: history) := by
  refine ⟨fun g => ?_,fun g => ?_,trivial,recorded.lawful⟩
  · simp only [List.mem_cons,reduceCtorEq,false_or]
    exact recorded.opened g
  · have isOver := c.isOver_close c.generation g
    unfold Control.isOver at isOver
    unfold Control.isOver
    rw [isOver]
    simp only [List.mem_cons,Event.closed.injEq,Bool.or_eq_true,decide_eq_true_eq]
    constructor
    · rintro (rfl | before)
      · exact ⟨first,Nat.le_refl _,.inl rfl⟩
      · obtain ⟨first,le,past⟩ := (recorded.closed g).mp before
        exact ⟨first,le,.inr past⟩
    · rintro ⟨first,le,same | past⟩
      · exact .inl same
      · exact .inr ((recorded.closed g).mpr ⟨first,le,past⟩)

/-- A generation that is open is not on record as closed. -/
theorem not_closed {g : Nat} (recorded : Recorded c history) (live : c.isOver g = false) :
    .closed g ∉ history := by
  rw [recorded.closed,live]
  simp

end Recorded

/-! ### The envelopes under way -/

section
variable {s t : Scheduler J}

theorem Submission.Step.queued {p q : Submission J} (step : p.Step s q t) {e : Envelope J} (member : e ∈ t.queue) :
    e ∈ s.queue ∨ p.envelope? = some e := by
  cases step with
  | send room | put room =>
    rcases List.mem_append.mp member with old | new
    · exact .inl old
    · cases List.mem_singleton.mp new
      exact .inr rfl
  | _ => exact .inl member

theorem Submission.Step.envelope {p q : Submission J} (step : p.Step s q t) {e : Envelope J}
    (holds : q.envelope? = some e) : p.envelope? = some e := by
  cases step with
  | @look inside => cases inside <;> exact holds
  | full => exact holds
  | _ => cases holds

theorem Starting.Step.queued {finished : Nat → Bool} {first : J} {p q : Starting J}
    (step : p.Step finished first s q t) {e : Envelope J} (member : e ∈ t.queue) :
    e ∈ s.queue ∨ p.envelope? = some e := by
  cases step with
  | enter free idle =>
    obtain ⟨-,-,-,-,-,same⟩ := control_detach s finished
    exact .inl (same ▸ member)
  | drain taken => exact .inl ((Scheduler.control_dequeue taken).2.2 e member)
  | submit step => exact step.queued member
  | _ => exact .inl member

theorem Starting.Step.envelope {finished : Nat → Bool} {first : J} {p q : Starting J} {found : Scheduler J}
    (step : p.Step finished first s q t) {e : Envelope J} (holds : q.envelope? = some e) :
    p.envelope? = some e ∨ (∃ j, e.task = .job j) ∧ .submitted e.generation e ∈ p.events found t q := by
  cases step with
  | create =>
    cases holds
    exact .inr ⟨⟨first,rfl⟩,List.mem_cons_self⟩
  | submit step => exact .inl (step.envelope holds)
  | _ => cases holds

theorem Stopping.Step.queued {finished : Nat → Bool} {p q : Stopping} (step : p.Step finished s q t)
    {e : Envelope J} (member : e ∈ t.queue) :
    e ∈ s.queue ∨ e.task = .stop ∧ .ordered e.generation e ∈ p.events s q := by
  cases step with
  | queue room =>
    rcases List.mem_append.mp member with old | new
    · exact .inl old
    · cases List.mem_singleton.mp new
      exact .inr ⟨rfl,List.mem_cons_self⟩
  | drain taken => exact .inl ((Scheduler.control_dequeue taken).2.2 e member)
  | _ => exact .inl member

theorem Call.Step.queued {finished : Nat → Bool} {first : J} {c d : Call J} {events : List (Event J)}
    (step : Call.Step finished first s c d t events) {e : Envelope J} (member : e ∈ t.queue) :
    e ∈ s.queue ∨ c.envelope? = some e ∨ e.task = .stop ∧ .ordered e.generation e ∈ events := by
  cases step with
  | start step => exact (step.queued member).imp_right .inl
  | stop step => exact (step.queued member).imp_right .inr
  | submit step => exact (step.queued member).imp_right .inl

theorem Call.Step.envelope {finished : Nat → Bool} {first : J} {c d : Call J} {events : List (Event J)}
    (step : Call.Step finished first s c d t events) {e : Envelope J} (holds : d.envelope? = some e) :
    c.envelope? = some e ∨ (∃ j, e.task = .job j) ∧ .submitted e.generation e ∈ events := by
  cases step with
  | start step => exact step.envelope holds
  | stop step => cases holds
  | submit step => exact .inl (step.envelope holds)

theorem Worker.Step.queued {R : Type} {g : Nat} {run : J → R} {rest : R} {p q : Worker J R}
    (step : p.Step g run rest s q t) {e : Envelope J} (member : e ∈ t.queue) : e ∈ s.queue := by
  cases step with
  | take taken => exact (Scheduler.control_dequeue taken).2.2 e member
  | leave free =>
    unfold Scheduler.leaveGeneration at member
    split at member
    · exact member
    · exact member
  | @countRan panicked => cases panicked <;> exact member
  | _ => exact member

theorem Worker.Step.inHand {R : Type} {g : Nat} {run : J → R} {rest : R} {p q : Worker J R}
    (step : p.Step g run rest s q t) {e : Envelope J} (holds : q.inHand? = some e) :
    e ∈ s.queue ∨ p.inHand? = some e := by
  cases step with
  | take taken =>
    cases holds
    exact .inl (Scheduler.control_dequeue taken).2.1
  | accept own | clearRequested | clearFired => exact .inr holds
  | _ => cases holds

/-! ### What steps are recorded as -/

variable {holder : Option Party} {starts : Nat} {who : Party} {history : List (Event J)}

theorem Submission.Step.recorded {p q : Submission J} (recorded : Recorded s.control history)
    (step : p.Step s q t) : Recorded t.control (p.events q ++ history) := by
  cases step with
  | late past | abandon past => exact recorded.note rfl rfl rfl trivial
  | send room | put room => exact recorded.note rfl rfl rfl trivial
  | @look inside => cases inside <;> exact recorded
  | full | countSent | countRefused => exact recorded

theorem Starting.Step.recorded {finished : Nat → Bool} {first : J} {p q : Starting J} {found : Scheduler J}
    (steady : Steady ⟨s.control,holder,starts⟩) (fits : p.Fits ⟨s.control,holder,starts⟩ who found)
    (recorded : Recorded s.control history) (step : Step finished first s p q t) :
    Recorded t.control (p.events (Call.foundBy s found p) t q ++ history) := by
  cases step with
  | refuse free runs => exact recorded.note rfl rfl rfl ⟨rfl,rfl,rfl⟩
  | enter free idle =>
    obtain ⟨-,generation,-,-,signals,-⟩ := control_detach s finished
    exact recorded.still generation signals
  | drain taken =>
    have same := (Scheduler.control_dequeue taken).1
    exact same ▸ recorded
  | drained empty => exact recorded
  | fail =>
    obtain ⟨-,-,-,-,same⟩ := fits
    exact recorded.note rfl rfl rfl same
  | create => exact recorded.openNext steady.size rfl rfl
  | submit inner => exact inner.recorded recorded
  | submitted outcome => exact recorded
  | dropped outcome => exact recorded
  | leave =>
    obtain ⟨-,-,-,-,more⟩ := fits
    exact recorded.note rfl rfl rfl more

theorem Stopping.Step.recorded {finished : Nat → Bool} {p q : Stopping}
    (steady : Steady ⟨s.control,holder,starts⟩) (fits : p.Fits ⟨s.control,holder,starts⟩)
    (recorded : Recorded s.control history) (step : Step finished s p q t) :
    Recorded t.control (p.events s q ++ history) := by
  cases step with
  | queue room => exact recorded.note rfl rfl rfl ⟨rfl,rfl⟩
  | drain taken =>
    have same := (Scheduler.control_dequeue taken).1
    exact same ▸ recorded
  | giveUp => exact recorded.note rfl rfl rfl trivial
  | @take g w free handle =>
    obtain ⟨first,le,-⟩ := fits
    have newest : w = s.control.generation := steady.worker w handle
    have le : g ≤ w := newest ▸ le
    have opened : .opened w ∈ history := (recorded.opened w).mpr ⟨by omega,by omega⟩
    have last : .opened (w+1) ∉ history := by
      rw [recorded.opened,newest]
      omega
    exact recorded.note rfl rfl rfl ⟨le,opened,last⟩
  | takeNone free handle => exact recorded.note rfl rfl rfl ((recorded.closed _).mpr fits)
  | join gone => exact recorded.note rfl rfl rfl ((recorded.closed _).mpr fits)
  | _ => exact recorded

theorem Call.Step.recorded {finished : Nat → Bool} {first : J} {c d : Call J} {events : List (Event J)}
    (steady : Steady ⟨s.control,holder,starts⟩) (fits : c.Fits ⟨s.control,holder,starts⟩ who)
    (recorded : Recorded s.control history) (step : Call.Step finished first s c d t events) :
    Recorded t.control (events ++ history) := by
  cases step with
  | start step => exact step.recorded steady fits recorded
  | stop step => exact step.recorded steady fits recorded
  | submit step => exact step.recorded recorded

theorem Worker.Step.recorded {R : Type} {g : Nat} {run : J → R} {rest : R} {p q : Worker J R}
    (steady : Steady ⟨s.control,holder,starts⟩) (fits : p.Fits ⟨s.control,holder,starts⟩ g)
    (recorded : Recorded s.control history) (sent : ∀ e, p.inHand? = some e → Sent history e)
    (step : Step g run rest s p q t) : Recorded t.control (p.events g q ++ history) := by
  cases step with
  | take taken =>
    have same := (Scheduler.control_dequeue taken).1
    exact recorded.note (congrArg _ same) (congrArg _ same) rfl (recorded.not_closed fits)
  | beginStop task => exact recorded.note rfl rfl rfl ⟨fits.2,recorded.not_closed fits.1,sent _ rfl⟩
  | beginJob task => exact recorded.note rfl rfl rfl ⟨fits.2,recorded.not_closed fits.1,sent _ rfl⟩
  | leave free =>
    rw [Scheduler.control_lock,Scheduler.control_leaveGeneration]
    exact recorded.still rfl rfl
  | close =>
    obtain ⟨live,-⟩ := fits
    have newest : g = s.generation := steady.newest g live
    have first : 1 ≤ s.generation := by
      by_contra none
      have zero : g = 0 := by omega
      rw [zero] at live
      cases live.symm.trans steady.first
    subst newest
    exact recorded.close first
  | @countRan panicked => cases panicked <;> exact recorded
  | _ => exact recorded

end

/-! ### Histories of systems -/

namespace System

/-- The history of a system tells which generations it opened and closed, and who made every envelope that
    is still under way. -/
structure Orderly (σ : System J) : Prop where
  recorded : Recorded σ.scheduler.control σ.history
  queue : ∀ e ∈ σ.scheduler.queue, Sent σ.history e
  calls : ∀ who c e, σ.call? who = some c → c.envelope? = some e → Sent σ.history e
  hands : ∀ g e, (σ.workers g).inHand? = some e → Sent σ.history e

theorem history_setCall (σ : System J) (c : Option (Call J)) (who : Party) :
    (σ.setCall c who).history = σ.history := by
  cases who <;> rfl

theorem inHand_setCall (σ : System J) (c : Option (Call J)) (who : Party) (g : Nat) :
    ((σ.setCall c who).workers g).inHand? = (σ.workers g).inHand? := by
  cases who with
  | thread t => rfl
  | worker h =>
    by_cases same : g = h
    · subst same
      simp only [setCall,Function.update_self]
      cases σ.workers g <;> rfl
    · simp only [setCall,Function.update_of_ne same]

theorem inHand_arrive {σ : System J} {who : Party} {s : Scheduler J} {events : List (Event J)} {g : Nat}
    {e : Envelope J} (holds : ((σ.arrive who s events).workers g).inHand? = some e) :
    (σ.workers g).inHand? = some e := by
  unfold arrive at holds
  split at holds
  · exact holds
  · by_cases same : g = s.generation
    · subst same
      simp [Worker.inHand?] at holds
    · simpa [Function.update_of_ne same] using holds

/-- A party goes on in a call. -/
private theorem Orderly.goOn {σ : System J} (orderly : Orderly σ) {who : Party} {c : Call J} {s : Scheduler J}
    {events : List (Event J)} (recorded : Recorded s.control (events ++ σ.history))
    (queue : ∀ e ∈ s.queue, Sent (events ++ σ.history) e)
    (holds : ∀ e, c.envelope? = some e → Sent (events ++ σ.history) e) :
    Orderly ((σ.setCall (some c) who).arrive who s events) := by
  have same : ((σ.setCall (some c) who).arrive who s events).history = events ++ σ.history :=
    congrArg (events ++ ·) (history_setCall σ _ who)
  refine ⟨same ▸ recorded,same ▸ queue,fun other d e called held => ?_,fun g e held => ?_⟩
  · rw [same]
    have called := call_arrive called
    by_cases own : other = who
    · subst own
      cases call_setCall_self called
      exact holds e held
    · rw [call_setCall_other σ _ own] at called
      exact (orderly.calls other d e called held).mono events
  · rw [same]
    have held := inHand_arrive held
    rw [inHand_setCall] at held
    exact (orderly.hands g e held).mono events

/-- A party begins a call or ends one. -/
private theorem Orderly.setCall {σ : System J} (orderly : Orderly σ) {who : Party} {c : Option (Call J)}
    (holds : ∀ d e, c = some d → d.envelope? = some e → Sent σ.history e) : Orderly (σ.setCall c who) := by
  refine ⟨?_,?_,fun other d e called held => ?_,fun g e held => ?_⟩
  · rw [history_setCall,scheduler_setCall]
    exact orderly.recorded
  · rw [history_setCall,scheduler_setCall]
    exact orderly.queue
  · rw [history_setCall]
    by_cases own : other = who
    · subst own
      exact holds d e (call_setCall_self called) held
    · rw [call_setCall_other σ c own] at called
      exact orderly.calls other d e called held
  · rw [history_setCall]
    rw [inHand_setCall] at held
    exact orderly.hands g e held

/-- A worker goes to a place at which it is in no call. -/
private theorem Orderly.place {σ : System J} (orderly : Orderly σ) {g : Nat} {p : Worker J (Option (Call J))}
    (quiet : p.call? = none) (holds : ∀ e, p.inHand? = some e → Sent σ.history e) :
    Orderly { σ with workers := Function.update σ.workers g p } := by
  refine ⟨orderly.recorded,orderly.queue,fun other c e called held => ?_,fun h e held => ?_⟩
  · refine orderly.calls other c e ?_ held
    cases other with
    | thread t => exact called
    | worker h =>
      by_cases same : h = g
      · subst same
        simp [call?,quiet] at called
      · simpa [call?,Function.update_of_ne same] using called
  · by_cases same : h = g
    · subst same
      exact holds e (by simpa using held)
    · exact orderly.hands h e (by simpa [Function.update_of_ne same] using held)

/-- A party brings the scheduler to a state. -/
private theorem Orderly.arrive {σ : System J} (orderly : Orderly σ) {who : Party} {s : Scheduler J}
    {events : List (Event J)} (recorded : Recorded s.control (events ++ σ.history))
    (queue : ∀ e ∈ s.queue, e ∈ σ.scheduler.queue) : Orderly (σ.arrive who s events) :=
  ⟨recorded,fun e member => (orderly.queue e (queue e member)).mono events,
    fun other c e called held => (orderly.calls other c e (call_arrive called) held).mono events,
    fun g e held => (orderly.hands g e (inHand_arrive held)).mono events⟩

theorem orderly_init (capacity : Nat) : Orderly (init capacity : System J) := by
  refine ⟨⟨fun g => ?_,fun g => ?_,trivial⟩,fun e member => ?_,fun who c e called => ?_,fun g e held => ?_⟩
  · simp only [init,List.not_mem_nil,false_iff]
    show ¬(1 ≤ g ∧ g ≤ 0)
    omega
  · simp only [init,List.not_mem_nil,false_iff]
    rintro ⟨first,le,-⟩
    have none : g ≤ 0 := le
    omega
  · cases member
  · cases who <;> cases called
  · cases held

theorem orderly_step {first : J} {σ τ : System J} {a : Action J} (sound : Sound σ) (orderly : Orderly σ)
    (step : Step first σ a τ) : Orderly τ := by
  cases step with
  | takeHandle free => exact ⟨orderly.recorded,orderly.queue,orderly.calls,orderly.hands⟩
  | start free =>
    refine orderly.setCall fun d e same held => ?_
    cases same
    cases held
  | stop free =>
    refine orderly.setCall fun d e same held => ?_
    cases same
    cases held
  | @submit who handle j free taken =>
    refine orderly.goOn (orderly.recorded.note rfl rfl rfl ⟨rfl,j,rfl⟩)
      (fun e member => (orderly.queue e member).mono _) fun e held => ?_
    cases held
    exact List.mem_cons_self
  | @go who made choice c d t events called step =>
    refine orderly.goOn (step.recorded sound.steady (sound.calls who c called) orderly.recorded)
      (fun e member => ?_) fun e held => ?_
    · rcases step.queued member with before | before | ⟨task,ordered⟩
      · exact (orderly.queue e before).mono events
      · exact (orderly.calls who c e called before).mono events
      · simp [Sent,task,ordered]
    · rcases step.envelope held with before | ⟨⟨j,task⟩,submitted⟩
      · exact (orderly.calls who c e called before).mono events
      · simp [Sent,task,submitted]
  | @handOver who t e called free =>
    have sent := orderly.calls who _ e called rfl
    refine Orderly.setCall (orderly.setCall fun d e none => by cases none) fun d f same held => ?_
    cases same
    cases held
    rw [history_setCall]
    exact sent
  | failToHandOver called =>
    refine orderly.goOn (orderly.recorded.note rfl rfl rfl trivial)
      (fun e member => (orderly.queue e member).mono _) fun e held => by cases held
  | «return» called past => exact orderly.setCall fun d e none => by cases none
  | @work g choice p t step =>
    have hand : ∀ e, p.inHand? = some e → Sent σ.history e := by
      intro e held
      rcases step.inHand held with queued | before
      · exact orderly.queue e queued
      · exact orderly.hands g e before
    exact (orderly.place step.call hand).arrive
      (step.recorded sound.steady (sound.workers g) orderly.recorded (orderly.hands g)) fun e => step.queued
  | finish place => exact orderly.place rfl fun e none => by cases none
  | settle place => exact orderly.place rfl fun e none => by cases none
  | @interrupt reason free =>
    refine ⟨?_,?_,orderly.calls,orderly.hands⟩
    · rw [Scheduler.control_interrupt]
      exact orderly.recorded
    · rw [Scheduler.queue_interrupt]
      exact orderly.queue

theorem orderly_of_reachable {first : J} {capacity : Nat} {σ : System J} (reached : Reachable first capacity σ) :
    Orderly σ := by
  induction reached with
  | init => exact orderly_init capacity
  | act a reached taken orderly => exact orderly_step (sound_of_reachable reached) orderly (step_of_act taken)

end System

end ScriptHost
