import ScriptHost.Proofs.Scheduler.Step
/-!
The control state of a scheduler: whether it runs, which generation is the newest one, whose worker a stop
waits for, the lock and the signals. The queue, the counters, the log and the requests to abort do not
matter to it. `Steady` is what holds of it between any two steps, and `Fits` what a thread at a certain
place may rely on; `Leads` is what a step of one thread leaves to all others (`fits_of_leads`).
-/
namespace ScriptHost

/-- What decides which generation runs. -/
structure Control where
  running : Bool
  generation : Nat
  worker : Option Nat
  locked : Bool
  signals : Array Signal

namespace Scheduler
variable {J : Type}

/-- The control state of a scheduler. -/
def control (s : Scheduler J) : Control := ⟨s.running,s.generation,s.worker,s.locked,s.signals⟩

@[simp] theorem control_lock (s : Scheduler J) : s.lock.control = { s.control with locked := true } := rfl

theorem control_interrupt (s : Scheduler J) (reason : String) : (s.interrupt reason).control = s.control := by
  unfold interrupt
  split <;> rfl

theorem queue_interrupt (s : Scheduler J) (reason : String) : (s.interrupt reason).queue = s.queue := by
  unfold interrupt
  split <;> rfl

theorem control_leaveGeneration (s : Scheduler J) (g : Nat) : (s.leaveGeneration g).control =
    { s.control with running := if s.generation = g then false else s.running } := by
  unfold leaveGeneration
  split <;> rfl

theorem control_dequeue {s t : Scheduler J} {e : Envelope J} (taken : s.dequeue? = some (e,t)) :
    t.control = s.control ∧ e ∈ s.queue ∧ ∀ f ∈ t.queue, f ∈ s.queue := by
  unfold dequeue? at taken
  split at taken
  · cases taken
  · next head rest queue =>
    cases taken
    exact ⟨rfl,by simp [queue],fun f member => by simp [queue,member]⟩

end Scheduler

namespace Control

/-- A generation has ended. -/
def isOver (c : Control) (g : Nat) : Bool := ((c.signals[g]?).getD ⟨true⟩).closed

theorem isOver_push (c : Control) (g : Nat) (size : c.signals.size = c.generation+1) :
    (⟨true,c.generation+1,some (c.generation+1),c.locked,c.signals.push ⟨false⟩⟩ : Control).isOver g =
      if g = c.generation+1 then false else c.isOver g := by
  unfold isOver
  by_cases same : g = c.generation+1
  · simp [same,← size]
  · have other : g ≠ c.signals.size := by omega
    simp [same,other,Array.getElem?_push]

theorem isOver_close (c : Control) (g h : Nat) :
    ({ c with signals := c.signals.modify g fun signal => signal.close.2 } : Control).isOver h =
      (decide (h = g) || c.isOver h) := by
  unfold isOver
  rw [Array.getElem?_modify]
  by_cases same : g = h
  · subst same
    cases found : c.signals[g]? with
    | none => simp
    | some signal => simp [Signal.close]
  · have other : h ≠ g := fun equal => same equal.symm
    simp [same,other]

end Control

/-- The control state, who holds the lock, and how many starts have returned without a failure. -/
structure Situation where
  control : Control
  holder : Option Party
  starts : Nat

/-- What holds between any two steps. -/
structure Steady (x : Situation) : Prop where
  size : x.control.signals.size = x.control.generation+1
  first : x.control.isOver 0 = true
  /-- Only the newest generation can be open. -/
  newest : ∀ g, x.control.isOver g = false → g = x.control.generation
  /-- Whoever finds the lock free finds the state in order. -/
  free : x.control.locked = false →
    (x.control.running = true ↔ x.control.isOver x.control.generation = false) ∧ x.starts = x.control.generation
  held : x.control.locked = x.holder.isSome
  worker : ∀ w, x.control.worker = some w → w = x.control.generation

/-- The situation after a party has brought the control state to `c`, by which so many more starts have
    returned. -/
def Situation.after (x : Situation) (who : Party) (c : Control) (more : Nat) : Situation :=
  ⟨c,if c.locked then (if x.control.locked then x.holder else some who) else none,x.starts+more⟩

theorem Situation.after_same {x : Situation} (steady : Steady x) (who : Party) :
    x.after who x.control 0 = x := by
  unfold after
  have held := steady.held
  cases free : x.control.locked with
  | true => simp
  | false =>
    have nobody : x.holder = none := by simpa [free] using held.symm
    simp [← nobody]

/-- What a start relies on: between taking the lock and leaving it nobody else changes the control state. -/
def Starting.Fits {J : Type} (x : Situation) (who : Party) (found : Scheduler J) : Starting J → Prop
  | .drains _ | .creates => x.holder = some who ∧ x.control.running = false ∧
      x.control.isOver x.control.generation = true ∧ x.starts = x.control.generation ∧
      x.control.running = found.running ∧ x.control.generation = found.generation ∧
      x.control.signals = found.signals
  | .submits _ | .leaves => x.holder = some who ∧ x.control.running = true ∧
      x.control.isOver x.control.generation = false ∧ x.control.generation = x.starts+1 ∧
      x.control.generation = found.generation+1
  | .enters | .ended _ => True

/-- What a stop relies on: its generation exists, and has ended once the stop asks for a worker. -/
def Stopping.Fits (x : Situation) : Stopping → Prop
  | .queues g _ | .counts g _ | .waits g _ | .drains g _ | .stores g | .flags g =>
    1 ≤ g ∧ g ≤ x.control.generation
  | .takes g | .joins g _ => 1 ≤ g ∧ g ≤ x.control.generation ∧ x.control.isOver g = true
  | .enters | .ended _ => True

/-- What a call relies on. -/
def Call.Fits {J : Type} (x : Situation) (who : Party) : Call J → Prop
  | .start p found => p.Fits x who found
  | .stop p => p.Fits x
  | .submit _ => True

/-- What a worker relies on: its generation is open from its look at the signal until it closes it. -/
def Worker.Fits {J R : Type} (x : Situation) (g : Nat) : Worker J R → Prop
  | .selects | .took _ | .runs _ _ | .leaves => x.control.isOver g = false
  | .clearsRequested e | .clearsFired e | .clearsReason e => x.control.isOver g = false ∧ e.generation = g
  | .closes => x.control.isOver g = false ∧ x.holder = some (.worker g) ∧ x.control.running = false ∧
      x.starts = x.control.generation
  | .looks | .ran _ | .settles _ | .gone => True

/-- What a step of one thread leaves to all others. -/
structure Leads (who : Party) (x y : Situation) : Prop where
  grows : x.control.generation ≤ y.control.generation
  ends : ∀ g ≤ x.control.generation, x.control.isOver g = true → y.control.isOver g = true
  keeps : ∀ g, .worker g ≠ who → x.control.isOver g = false → y.control.isOver g = false
  holds : ∀ other ≠ who, x.holder = some other → y = x

theorem Leads.refl (who : Party) (x : Situation) : Leads who x x :=
  ⟨Nat.le_refl _,fun _ _ past => past,fun _ _ live => live,fun _ _ _ => rfl⟩

section
variable {J R : Type} {x y : Situation} {who other : Party}

theorem Stopping.fits_of_leads {p : Stopping} (leads : Leads who x y) (fits : p.Fits x) : p.Fits y := by
  cases p with
  | enters | ended r => trivial
  | takes g | joins g w => exact ⟨fits.1,Nat.le_trans fits.2.1 leads.grows,leads.ends g fits.2.1 fits.2.2⟩
  | _ => exact ⟨fits.1,Nat.le_trans fits.2 leads.grows⟩

theorem Starting.fits_of_leads {p : Starting J} {found : Scheduler J} (leads : Leads who x y)
    (apart : other ≠ who) (fits : p.Fits x other found) : p.Fits y other found := by
  cases p with
  | enters | ended r => trivial
  | _ =>
    have same := leads.holds other apart fits.1
    exact same ▸ fits

theorem Call.fits_of_leads {c : Call J} (leads : Leads who x y) (apart : other ≠ who)
    (fits : c.Fits x other) : c.Fits y other := by
  cases c with
  | start p found => exact Starting.fits_of_leads leads apart fits
  | stop p => exact Stopping.fits_of_leads leads fits
  | submit p => trivial

theorem Worker.fits_of_leads {p : Worker J R} {g : Nat} (leads : Leads who x y) (apart : .worker g ≠ who)
    (fits : p.Fits x g) : p.Fits y g := by
  cases p with
  | looks | ran b | settles r | gone => trivial
  | selects | took e | runs n r | leaves => exact leads.keeps g apart fits
  | clearsRequested e | clearsFired e | clearsReason e => exact ⟨leads.keeps g apart fits.1,fits.2⟩
  | closes =>
    have same := leads.holds _ apart fits.2.1
    exact same ▸ fits

end

end ScriptHost
