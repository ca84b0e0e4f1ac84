import ScriptHost.Proofs.Scheduler.Control
/-!
Every step of a thread keeps the scheduler steady, leaves to the other threads what they rely on, and
brings the thread to a place that it may be at.
-/
namespace ScriptHost
variable {J : Type}

/-- A start has returned without a failure. -/
def Event.succeeds : Event J → Bool
  | .started (.ok _) _ _ => true
  | _ => false

/-- A party's step leads from one situation to another one. -/
structure Advances (who : Party) (x y : Situation) : Prop where
  steady : Steady y
  leads : Leads who x y

theorem Advances.refl {x : Situation} (steady : Steady x) (who : Party) : Advances who x x :=
  ⟨steady,.refl who x⟩

/-- A call keeps open what is open. -/
def KeepsOpen (x y : Situation) : Prop := ∀ g, x.control.isOver g = false → y.control.isOver g = false

section
variable {s t : Scheduler J} {holder : Option Party} {starts : Nat} {who : Party}

theorem Submission.Step.control {p q : Submission J} (step : p.Step s q t) : t.control = s.control := by
  cases step <;> rfl

/-- A party that takes the lock and at most takes the handle away, or ends the run of the generation that
    it is about to close. -/
private theorem advances_lock {running : Bool} {worker : Option Nat} (steady : Steady ⟨s.control,holder,starts⟩)
    (free : s.locked = false) (handle : ∀ w, worker = some w → s.worker = some w) :
    Advances who ⟨s.control,holder,starts⟩
      (Situation.after ⟨s.control,holder,starts⟩ who { s.control with running, worker, locked := true } 0) := by
  have nobody : holder = none := by simpa [Scheduler.control,free] using steady.held.symm
  refine ⟨⟨steady.size,steady.first,steady.newest,fun unlocked => ?_,?_,fun w held => ?_⟩,?_⟩
  · simp [Situation.after] at unlocked
  · simp [Situation.after,Scheduler.control,free]
  · exact steady.worker w (handle w held)
  · refine ⟨Nat.le_refl _,fun _ _ past => past,fun _ _ live => live,fun other _ held => ?_⟩
    simp [nobody] at held

/-- A start that leaves the lock; `more` is 1 if it returns without a failure. -/
private theorem advances_unlock {more : Nat} (steady : Steady ⟨s.control,holder,starts⟩)
    (holds : holder = some who)
    (order : s.running = true ↔ s.isOver s.generation = false) (count : starts+more = s.generation) :
    Advances who ⟨s.control,holder,starts⟩
      (Situation.after ⟨s.control,holder,starts⟩ who { s.control with locked := false } more) := by
  refine ⟨⟨steady.size,steady.first,steady.newest,fun _ => ⟨order,count⟩,rfl,steady.worker⟩,?_⟩
  refine ⟨Nat.le_refl _,fun _ _ past => past,fun _ _ live => live,fun other apart held => ?_⟩
  cases holds.symm.trans held
  exact absurd rfl apart

/-- A start that opens a generation. -/
private theorem advances_open (steady : Steady ⟨s.control,holder,starts⟩) (holds : holder = some who)
    (past : s.isOver s.generation = true) :
    Advances who ⟨s.control,holder,starts⟩
        (Situation.after ⟨s.control,holder,starts⟩ who s.openGeneration.control 0) ∧
      s.openGeneration.isOver (s.generation+1) = false := by
  have size : s.signals.size = s.generation+1 := steady.size
  have locked : s.locked = true := steady.held.trans (by rw [holds]; rfl)
  have isOver : ∀ g, s.openGeneration.control.isOver g =
      if g = s.generation+1 then false else s.control.isOver g := fun g => s.control.isOver_push g size
  have dead : ∀ g, s.control.isOver g = true := by
    intro g
    cases ended : s.control.isOver g with
    | true => rfl
    | false =>
      have newest : g = s.generation := steady.newest g ended
      rw [newest] at ended
      exact ended.symm.trans past
  refine ⟨⟨⟨?_,?_,fun g live => ?_,fun unlocked => ?_,?_,fun w held => ?_⟩,?_⟩,?_⟩
  · show (s.signals.push ⟨false⟩).size = s.generation+1+1
    rw [Array.size_push,size]
  · show s.openGeneration.control.isOver 0 = true
    rw [isOver,if_neg (by omega)]
    exact dead 0
  · show g = s.generation+1
    by_contra other
    have live : s.openGeneration.control.isOver g = false := live
    rw [isOver,if_neg other,dead g] at live
    cases live
  · cases locked.symm.trans unlocked
  · show s.locked = Option.isSome (if s.locked then (if s.locked then holder else some who) else none)
    simp [locked,holds]
  · cases held
    rfl
  · refine ⟨Nat.le_succ _,fun g le ended => ?_,fun g _ live => ?_,fun other apart held => ?_⟩
    · show s.openGeneration.control.isOver g = true
      have le : g ≤ s.generation := le
      rw [isOver,if_neg (by omega)]
      exact ended
    · cases (dead g).symm.trans live
    · cases holds.symm.trans held
      exact absurd rfl apart
  · show s.openGeneration.control.isOver (s.generation+1) = false
    rw [isOver,if_pos rfl]

/-- A worker that closes the signal of its generation and leaves the lock. -/
private theorem advances_close {g : Nat} (steady : Steady ⟨s.control,holder,starts⟩)
    (live : s.isOver g = false) (holds : holder = some (.worker g)) (idle : s.running = false)
    (count : starts = s.generation) :
    Advances (.worker g) ⟨s.control,holder,starts⟩
      (Situation.after ⟨s.control,holder,starts⟩ (.worker g) (s.closeGeneration g).unlock.control 0) := by
  have newest : g = s.generation := steady.newest g live
  have isOver : ∀ h, (s.closeGeneration g).unlock.control.isOver h = (decide (h = g) || s.control.isOver h) :=
    fun h => s.control.isOver_close g h
  refine ⟨⟨?_,?_,fun h ended => ?_,fun _ => ⟨?_,count⟩,rfl,steady.worker⟩,?_⟩
  · show (s.signals.modify g fun signal => signal.close.2).size = s.generation+1
    rw [Array.size_modify]
    exact steady.size
  · show (s.closeGeneration g).unlock.control.isOver 0 = true
    rw [isOver,show s.control.isOver 0 = true from steady.first,Bool.or_true]
  · have both : (decide (h = g) || s.control.isOver h) = false := (isOver h).symm.trans ended
    exact steady.newest h (Bool.or_eq_false_iff.mp both).2
  · show s.running = true ↔ (s.closeGeneration g).unlock.control.isOver s.generation = false
    rw [isOver,idle]
    simp [newest]
  · refine ⟨Nat.le_refl _,fun h _ past => ?_,fun h apart open_ => ?_,fun other apart held => ?_⟩
    · show (s.closeGeneration g).unlock.control.isOver h = true
      rw [isOver,show s.control.isOver h = true from past,Bool.or_true]
    · show (s.closeGeneration g).unlock.control.isOver h = false
      have other : h ≠ g := fun same => apart (same ▸ rfl)
      rw [isOver,show s.control.isOver h = false from open_]
      simp [other]
    · cases holds.symm.trans held
      exact absurd rfl apart

/-! ### Steps of calls -/

theorem Submission.events_count (p q : Submission J) : (p.events q).countP Event.succeeds = 0 := by
  unfold events
  split <;> rfl

/-- A party that leaves the control state as it is, by which no start returns. -/
private theorem advances_same (who : Party) {x : Situation} {c : Control} {more : Nat} (steady : Steady x)
    (same : c = x.control) (none : more = 0) :
    Advances who x (x.after who c more) ∧ KeepsOpen x (x.after who c more) ∧ x.after who c more = x := by
  rw [same,none,Situation.after_same steady]
  exact ⟨.refl steady who,fun _ live => live,rfl⟩

theorem Starting.Step.advances {finished : Nat → Bool} {first : J} {p q : Starting J} {found : Scheduler J}
    (steady : Steady ⟨s.control,holder,starts⟩) (fits : p.Fits ⟨s.control,holder,starts⟩ who found)
    (step : Step finished first s p q t) :
    let more := (p.events (Call.foundBy s found p) t q).countP Event.succeeds
    let y := Situation.after ⟨s.control,holder,starts⟩ who t.control more
    Advances who ⟨s.control,holder,starts⟩ y ∧ KeepsOpen ⟨s.control,holder,starts⟩ y ∧
      q.Fits y who (Call.foundBy s found p) := by
  have still : ∀ {c : Control} {more : Nat} {q : Starting J}, c = s.control → more = 0 →
      q.Fits ⟨s.control,holder,starts⟩ who (Call.foundBy s found p) →
      Advances who ⟨s.control,holder,starts⟩ (Situation.after ⟨s.control,holder,starts⟩ who c more) ∧
        KeepsOpen ⟨s.control,holder,starts⟩ (Situation.after ⟨s.control,holder,starts⟩ who c more) ∧
        q.Fits (Situation.after ⟨s.control,holder,starts⟩ who c more) who (Call.foundBy s found p) := by
    intro c more q same none fits
    obtain ⟨advances,keeps,stays⟩ := advances_same who steady same none
    exact ⟨advances,keeps,stays.symm ▸ fits⟩
  cases step with
  | refuse free runs => exact still rfl rfl trivial
  | enter free idle =>
    obtain ⟨running,generation,worker,locked,signals,-⟩ := control_detach s finished
    have same : (detach s.lock finished).control =
        { s.control with running := s.running, worker := none, locked := true } := by
      simp [Scheduler.control,running,generation,worker,locked,signals]
    have order := (steady.free free).1
    have past : s.isOver s.generation = true := by
      cases ended : s.isOver s.generation with
      | true => rfl
      | false => cases idle.symm.trans (order.mpr ended)
    show Advances _ _ (Situation.after _ _ (detach s.lock finished).control 0) ∧ _
    rw [same]
    refine ⟨advances_lock steady free (fun _ held => by cases held),fun _ live => live,?_⟩
    refine ⟨?_,idle,past,(steady.free free).2,rfl,rfl,rfl⟩
    simp [Situation.after,Scheduler.control,free]
  | drain taken => exact still (Scheduler.control_dequeue taken).1 rfl fits
  | drained empty => exact still rfl rfl fits
  | fail =>
    obtain ⟨holds,idle,past,count,-⟩ := fits
    refine ⟨advances_unlock steady holds ?_ count,fun _ live => live,trivial⟩
    have idle : s.running = false := idle
    have past : s.isOver s.generation = true := past
    simp [idle,past]
  | create =>
    obtain ⟨holds,idle,past,count,-,generation,-⟩ := fits
    obtain ⟨advances,opened⟩ := advances_open steady holds past
    refine ⟨advances,fun g live => ?_,?_⟩
    · have newest : g = s.generation := steady.newest g live
      have live : s.isOver g = false := live
      have past : s.isOver s.generation = true := past
      rw [newest] at live
      cases past.symm.trans live
    · have locked : s.locked = true := steady.held.trans (by rw [holds]; rfl)
      have count : starts = s.generation := count
      have generation : s.generation = found.generation := generation
      refine ⟨?_,rfl,opened,?_,?_⟩
      · show (if s.locked then (if s.locked then holder else some who) else none) = some who
        simpa [locked] using holds
      · show s.generation+1 = starts+0+1
        omega
      · show s.generation+1 = found.generation+1
        omega
  | submit inner => exact still inner.control (Submission.events_count _ _) fits
  | submitted outcome => exact still rfl rfl fits
  | dropped outcome => exact still rfl rfl fits
  | leave =>
    obtain ⟨holds,runs,live,count,-⟩ := fits
    refine ⟨advances_unlock steady holds ?_ count.symm,fun _ live => live,trivial⟩
    have runs : s.running = true := runs
    have live : s.isOver s.generation = false := live
    simp [runs,live]

theorem Stopping.Step.advances {finished : Nat → Bool} {p q : Stopping}
    (steady : Steady ⟨s.control,holder,starts⟩) (fits : p.Fits ⟨s.control,holder,starts⟩)
    (step : Step finished s p q t) :
    let more := (p.events s q).countP Event.succeeds
    let y := Situation.after ⟨s.control,holder,starts⟩ who t.control more
    Advances who ⟨s.control,holder,starts⟩ y ∧ KeepsOpen ⟨s.control,holder,starts⟩ y ∧ q.Fits y := by
  have still : ∀ {c : Control} {more : Nat} {q : Stopping}, c = s.control → more = 0 →
      q.Fits ⟨s.control,holder,starts⟩ →
      Advances who ⟨s.control,holder,starts⟩ (Situation.after ⟨s.control,holder,starts⟩ who c more) ∧
        KeepsOpen ⟨s.control,holder,starts⟩ (Situation.after ⟨s.control,holder,starts⟩ who c more) ∧
        q.Fits (Situation.after ⟨s.control,holder,starts⟩ who c more) := by
    intro c more q same none fits
    obtain ⟨advances,keeps,stays⟩ := advances_same who steady same none
    exact ⟨advances,keeps,stays.symm ▸ fits⟩
  cases step with
  | refuse free idle => exact still rfl rfl trivial
  | enter free runs =>
    have live : s.isOver s.generation = false := (steady.free free).1.mp runs
    refine still rfl rfl ⟨?_,Nat.le_refl _⟩
    by_contra none
    have zero : s.generation = 0 := by omega
    rw [zero] at live
    cases live.symm.trans steady.first
  | queue room => exact still rfl rfl fits
  | queueLate => exact still rfl rfl fits
  | count => exact still rfl rfl fits
  | leave past => exact still rfl rfl ⟨fits.1,fits.2,past⟩
  | waitLate => exact still rfl rfl fits
  | giveUp => exact still rfl rfl trivial
  | drain taken => exact still (Scheduler.control_dequeue taken).1 rfl fits
  | drained empty => exact still rfl rfl fits
  | store => exact still rfl rfl fits
  | flag => exact still rfl rfl fits
  | take free handle =>
    have nobody : holder = none := by simpa [Scheduler.control,free] using steady.held.symm
    have unlocked : s.control.locked = false := free
    refine ⟨⟨⟨steady.size,steady.first,steady.newest,steady.free,?_,fun w held => by cases held⟩,?_⟩,
      fun _ live => live,fits⟩
    · show s.locked = Option.isSome (if s.locked then _ else none)
      simp [free]
    · refine ⟨Nat.le_refl _,fun _ _ past => past,fun _ _ live => live,fun other _ held => ?_⟩
      cases nobody.symm.trans held
  | takeNone free handle => exact still rfl rfl trivial
  | join gone => exact still rfl rfl trivial

theorem Call.Step.advances {finished : Nat → Bool} {first : J} {c d : Call J} {events : List (Event J)}
    (steady : Steady ⟨s.control,holder,starts⟩) (fits : c.Fits ⟨s.control,holder,starts⟩ who)
    (step : Call.Step finished first s c d t events) :
    let y := Situation.after ⟨s.control,holder,starts⟩ who t.control (events.countP Event.succeeds)
    Advances who ⟨s.control,holder,starts⟩ y ∧ KeepsOpen ⟨s.control,holder,starts⟩ y ∧ d.Fits y who := by
  cases step with
  | start step => exact step.advances steady fits
  | stop step => exact step.advances steady fits
  | submit step =>
    obtain ⟨advances,keeps,-⟩ := advances_same who steady step.control (Submission.events_count _ _)
    exact ⟨advances,keeps,trivial⟩

/-! ### Steps of workers -/

theorem Worker.fits_withCall {x : Situation} {g : Nat} {p : Worker J (Option (Call J))}
    (c : Option (Call J)) (fits : p.Fits x g) : (p.withCall c).Fits x g := by
  cases p <;> exact fits

theorem Worker.events_count {R : Type} (g : Nat) (p q : Worker J R) : (p.events g q).countP Event.succeeds = 0 := by
  unfold Worker.events
  split <;> rfl

/-- A job that begins is in no call. -/
theorem Worker.Step.call {g : Nat} {p q : Worker J (Option (Call J))}
    (step : Worker.Step g (fun _ => none) none s p q t) : q.call? = none := by
  cases step <;> rfl

theorem Worker.Step.advances {R : Type} {g : Nat} {run : J → R} {rest : R} {p q : Worker J R}
    (steady : Steady ⟨s.control,holder,starts⟩) (fits : p.Fits ⟨s.control,holder,starts⟩ g)
    (step : Step g run rest s p q t) :
    let y := Situation.after ⟨s.control,holder,starts⟩ (.worker g) t.control 0
    Advances (.worker g) ⟨s.control,holder,starts⟩ y ∧ q.Fits y g := by
  have still : ∀ {c : Control} {q : Worker J R}, c = s.control → q.Fits ⟨s.control,holder,starts⟩ g →
      Advances (.worker g) ⟨s.control,holder,starts⟩
          (Situation.after ⟨s.control,holder,starts⟩ (.worker g) c 0) ∧
        q.Fits (Situation.after ⟨s.control,holder,starts⟩ (.worker g) c 0) g := by
    intro c q same fits
    obtain ⟨advances,-,stays⟩ := advances_same (.worker g) steady same rfl
    exact ⟨advances,stays.symm ▸ fits⟩
  cases step with
  | «end» past => exact still rfl trivial
  | look live => exact still rfl live
  | wake past => exact still rfl trivial
  | take taken => exact still (Scheduler.control_dequeue taken).1 fits
  | accept own => exact still rfl ⟨fits,own⟩
  | discard stale => exact still rfl trivial
  | clearRequested => exact still rfl fits
  | clearFired => exact still rfl fits
  | beginStop task => exact still rfl fits.1
  | beginJob task => exact still rfl fits.1
  | leave free =>
    have live : s.isOver g = false := fits
    have newest : s.generation = g := (steady.newest g live).symm
    have same : (s.leaveGeneration g).lock.control =
        { s.control with running := false, worker := s.worker, locked := true } := by
      rw [Scheduler.control_lock,Scheduler.control_leaveGeneration,if_pos newest]
      rfl
    rw [same]
    refine ⟨advances_lock steady free (fun _ held => held),live,?_,rfl,(steady.free free).2⟩
    simp [Situation.after,Scheduler.control,free]
  | close =>
    obtain ⟨live,holds,idle,count⟩ := fits
    exact ⟨advances_close steady live holds idle count,trivial⟩
  | @countRan panicked =>
    cases panicked with
    | false => exact still rfl trivial
    | true => exact still rfl trivial

end

/-! ### Actions -/

namespace System

/-- The situation that a system is in. -/
def situation (σ : System J) : Situation :=
  ⟨σ.scheduler.control,σ.holder,σ.history.countP Event.succeeds⟩

/-- Every call and every worker of a system can rely on what its place tells. -/
structure Sound (σ : System J) : Prop where
  steady : Steady σ.situation
  calls : ∀ who c, σ.call? who = some c → c.Fits σ.situation who
  workers : ∀ g, (σ.workers g).Fits σ.situation g

theorem situation_arrive (σ : System J) (who : Party) (s : Scheduler J) (events : List (Event J)) :
    (σ.arrive who s events).situation = σ.situation.after who s.control (events.countP Event.succeeds) := by
  unfold situation arrive Situation.after
  rw [List.countP_append,Nat.add_comm]
  rfl

theorem situation_setCall (σ : System J) (c : Option (Call J)) (who : Party) :
    (σ.setCall c who).situation = σ.situation := by
  cases who <;> rfl

theorem scheduler_setCall (σ : System J) (c : Option (Call J)) (who : Party) :
    (σ.setCall c who).scheduler = σ.scheduler := by
  cases who <;> rfl

theorem call_setCall_other (σ : System J) (c : Option (Call J)) {who other : Party} (apart : other ≠ who) :
    (σ.setCall c who).call? other = σ.call? other := by
  cases who with
  | thread t =>
    cases other with
    | thread u =>
      have apart : u ≠ t := fun same => apart (congrArg Party.thread same)
      exact Function.update_of_ne apart _ _
    | worker h => rfl
  | worker g =>
    cases other with
    | thread u => rfl
    | worker h =>
      have apart : h ≠ g := fun same => apart (congrArg Party.worker same)
      simp only [setCall,call?,Function.update_of_ne apart]

theorem call_setCall_self {σ : System J} {c : Option (Call J)} {who : Party} {d : Call J}
    (found : (σ.setCall c who).call? who = some d) : c = some d := by
  cases who with
  | thread t => simpa [call?,setCall] using found
  | worker g =>
    simp only [call?,setCall,Function.update_self] at found
    cases place : σ.workers g with
    | runs n e => simpa [place,Worker.withCall,Worker.call?] using found
    | _ => simp [place,Worker.withCall,Worker.call?] at found

theorem fits_setCall (σ : System J) (c : Option (Call J)) (who : Party) (g : Nat) (x : Situation)
    (fits : (σ.workers g).Fits x g) : ((σ.setCall c who).workers g).Fits x g := by
  cases who with
  | thread t => exact fits
  | worker h =>
    by_cases same : g = h
    · subst same
      simpa only [setCall,Function.update_self] using Worker.fits_withCall c fits
    · simpa only [setCall,Function.update_of_ne same] using fits

/-- A generation that opens gets a worker that is in no call. -/
theorem call_arrive {σ : System J} {who other : Party} {s : Scheduler J} {events : List (Event J)} {c : Call J}
    (found : (σ.arrive who s events).call? other = some c) : σ.call? other = some c := by
  unfold arrive at found
  split at found
  · exact found
  · cases other with
    | thread t => exact found
    | worker g =>
      by_cases same : g = s.generation
      · subst same
        simp [call?,Worker.call?] at found
      · simpa [call?,Function.update_of_ne same] using found

theorem fits_arrive {σ : System J} {who : Party} {s : Scheduler J} {events : List (Event J)} {g : Nat}
    {x : Situation} (fits : (σ.workers g).Fits x g) : ((σ.arrive who s events).workers g).Fits x g := by
  unfold arrive
  split
  · exact fits
  · by_cases same : g = s.generation
    · subst same
      simp [Worker.Fits]
    · simpa [Function.update_of_ne same] using fits

/-- A worker that is in a call, or can begin one, runs a job. -/
theorem runs_of_call {σ : System J} {g : Nat} (calls : (∃ c, σ.call? (.worker g) = some c) ∨ σ.isFree (.worker g)) :
    ∃ n c, σ.workers g = .runs n c := by
  simp only [call?,isFree] at calls
  cases place : σ.workers g with
  | runs n c => exact ⟨n,c,rfl⟩
  | _ => simp [place,Worker.call?,Worker.isFree] at calls

/-- A party in a call brings the system to a situation in which the call can go on. -/
private theorem Sound.goOn {σ : System J} (sound : Sound σ) {who : Party} {c : Call J} {s : Scheduler J}
    {events : List (Event J)} (calls : (∃ c, σ.call? who = some c) ∨ σ.isFree who)
    (advances : Advances who σ.situation (σ.situation.after who s.control (events.countP Event.succeeds)))
    (keeps : KeepsOpen σ.situation (σ.situation.after who s.control (events.countP Event.succeeds)))
    (fits : c.Fits (σ.situation.after who s.control (events.countP Event.succeeds)) who) :
    Sound ((σ.setCall (some c) who).arrive who s events) := by
  have same : ((σ.setCall (some c) who).arrive who s events).situation =
      σ.situation.after who s.control (events.countP Event.succeeds) := by
    rw [situation_arrive,situation_setCall]
  refine ⟨same ▸ advances.steady,fun other d found => ?_,fun g => ?_⟩
  · rw [same]
    have found := call_arrive found
    by_cases own : other = who
    · subst own
      cases call_setCall_self found
      exact fits
    · rw [call_setCall_other σ _ own] at found
      exact Call.fits_of_leads advances.leads own (sound.calls other d found)
  · rw [same]
    refine fits_arrive (fits_setCall σ _ who g _ ?_)
    have before := sound.workers g
    by_cases own : Party.worker g = who
    · subst own
      obtain ⟨n,d,place⟩ := runs_of_call calls
      rw [place] at before ⊢
      exact keeps g before
    · exact Worker.fits_of_leads advances.leads own before

/-- A party that begins or ends a call, or does something that does not touch the control state. -/
private theorem Sound.still {σ τ : System J} (sound : Sound σ) (same : τ.situation = σ.situation)
    (calls : ∀ who c, τ.call? who = some c → c.Fits σ.situation who)
    (workers : ∀ g, (τ.workers g).Fits σ.situation g) : Sound τ :=
  ⟨same ▸ sound.steady,same ▸ calls,same ▸ workers⟩

private theorem Sound.setCall {σ : System J} (sound : Sound σ) (who : Party) {c : Option (Call J)}
    (fits : ∀ d, c = some d → d.Fits σ.situation who) : Sound (σ.setCall c who) := by
  refine sound.still (situation_setCall σ c who) (fun other d found => ?_) fun g => ?_
  · by_cases own : other = who
    · subst own
      exact fits d (call_setCall_self found)
    · rw [call_setCall_other σ c own] at found
      exact sound.calls other d found
  · exact fits_setCall σ c who g _ (sound.workers g)

/-- A worker goes to a place at which it is in no call. -/
private theorem Sound.place {σ : System J} (sound : Sound σ) {g : Nat} {p : Worker J (Option (Call J))}
    (quiet : p.call? = none) (fits : p.Fits σ.situation g) :
    Sound { σ with workers := Function.update σ.workers g p } := by
  refine sound.still rfl (fun who c found => ?_) fun h => ?_
  · cases who with
    | thread t => exact sound.calls (.thread t) c found
    | worker h =>
      by_cases same : h = g
      · subst same
        simp [call?,quiet] at found
      · exact sound.calls (.worker h) c (by simpa [call?,Function.update_of_ne same] using found)
  · by_cases same : h = g
    · subst same
      simpa using fits
    · simpa [Function.update_of_ne same] using sound.workers h

/-- A worker goes on by itself. -/
private theorem Sound.work {σ : System J} (sound : Sound σ) {g : Nat} {p : Worker J (Option (Call J))}
    {t : Scheduler J} (step : Worker.Step g (fun _ => none) none σ.scheduler (σ.workers g) p t) :
    Sound ({ σ with workers := Function.update σ.workers g p }.arrive (.worker g) t
      ((σ.workers g).events g p)) := by
  obtain ⟨advances,fits⟩ : Advances (.worker g) σ.situation (σ.situation.after (.worker g) t.control 0) ∧
      p.Fits (σ.situation.after (.worker g) t.control 0) g := step.advances sound.steady (sound.workers g)
  have same : ({ σ with workers := Function.update σ.workers g p }.arrive (.worker g) t
      ((σ.workers g).events g p)).situation = σ.situation.after (.worker g) t.control 0 := by
    rw [situation_arrive,Worker.events_count]
    rfl
  refine ⟨same ▸ advances.steady,fun other c found => ?_,fun h => ?_⟩
  · rw [same]
    have found := call_arrive found
    by_cases own : other = .worker g
    · subst own
      simp [call?,step.call] at found
    · refine Call.fits_of_leads advances.leads own (sound.calls other c ?_)
      cases other with
      | thread u => exact found
      | worker h =>
        have apart : h ≠ g := fun same => own (congrArg Party.worker same)
        simpa [call?,Function.update_of_ne apart] using found
  · rw [same]
    refine fits_arrive ?_
    by_cases own : h = g
    · subst own
      simpa using fits
    · have apart : Party.worker h ≠ .worker g := fun same => own (by injection same)
      simpa [Function.update_of_ne own] using Worker.fits_of_leads advances.leads apart (sound.workers h)

theorem sound_init (capacity : Nat) : Sound (init capacity : System J) := by
  refine ⟨⟨rfl,rfl,fun g live => ?_,fun _ => ⟨?_,rfl⟩,rfl,fun w held => by cases held⟩,?_,fun g => trivial⟩
  · have past : ∀ g, ((init capacity : System J).situation.control.isOver g) = true := by
      intro g
      cases g with
      | zero => rfl
      | succ g => rfl
    cases (past g).symm.trans live
  · constructor
    · intro runs
      cases runs
    · intro live
      cases live
  · intro who c called
    cases who <;> cases called

theorem sound_step {first : J} {σ τ : System J} {a : Action J} (sound : Sound σ) (step : Step first σ a τ) :
    Sound τ := by
  cases step with
  | takeHandle free => exact sound.still rfl sound.calls sound.workers
  | start free =>
    refine sound.setCall _ fun d same => ?_
    cases same
    trivial
  | stop free =>
    refine sound.setCall _ fun d same => ?_
    cases same
    trivial
  | @submit who handle j free taken =>
    obtain ⟨advances,keeps,-⟩ := advances_same who sound.steady
      (c := (σ.scheduler.envelop handle (.job j)).2.control) rfl rfl
    exact sound.goOn (.inr free) advances keeps trivial
  | @go who made choice c d t events called step =>
    obtain ⟨advances,keeps,fits⟩ := Call.Step.advances sound.steady (sound.calls who c called) step
    exact sound.goOn (.inl ⟨c,called⟩) advances keeps fits
  | handOver called free =>
    refine Sound.setCall (sound.setCall _ fun d none => by cases none) _ fun d same => ?_
    cases same
    trivial
  | @failToHandOver who e called =>
    obtain ⟨advances,keeps,-⟩ := advances_same who sound.steady
      (c := (σ.scheduler.countDiscarded 1).control) rfl rfl
    exact sound.goOn (.inl ⟨_,called⟩) advances keeps trivial
  | «return» called past => exact sound.setCall _ fun d none => by cases none
  | work step => exact sound.work step
  | finish place => exact sound.place rfl trivial
  | settle place => exact sound.place rfl trivial
  | @interrupt reason free =>
    have same : σ.situation = { σ with scheduler := σ.scheduler.interrupt reason }.situation := by
      simp [situation,Scheduler.control_interrupt]
    exact sound.still same.symm sound.calls sound.workers

theorem sound_of_reachable {first : J} {capacity : Nat} {σ : System J} (reached : Reachable first capacity σ) :
    Sound σ := by
  induction reached with
  | init => exact sound_init capacity
  | act a reached taken sound => exact sound_step sound (step_of_act taken)

end System

end ScriptHost
