import Mathlib.Algebra.BigOperators.Group.Finset.Basic
import Mathlib.Algebra.Order.BigOperators.Group.Finset
import ScriptHost.Proofs.Scheduler.Delivery
/-!
The counters of a scheduler balance. Every envelope is counted when it is put into the queue and again when it is
dropped or its task is done; one that is refused is counted as dropped only. A step that changes the queue and the
step that counts the change are different ones, so between the two a party owes a count (`Call.owed`), and a worker
owes one from the moment at which it takes an envelope until it has counted it. The counters are off by just
what all parties owe.
-/
namespace ScriptHost
variable {J : Type}

/-! ### What is owed -/

/-- By how much the queue and the drops are ahead of the counters because of a submission. -/
def Submission.owed : Submission J → Int
  | .sent => 1
  | .refused => -1
  | _ => 0

/-- The same of a start, which counts what it has dropped once the queue is empty. -/
def Starting.owed : Starting J → Int
  | .drains n => -n
  | .submits p => p.owed
  | _ => 0

/-- The same of a stop. -/
def Stopping.owed : Stopping → Int
  | .counts _ _ => 1
  | .drains _ n => -n
  | _ => 0

/-- By how much the queue and the drops are ahead of the counters because of a call. -/
def Call.owed : Call J → Int
  | .start p _ => p.owed
  | .stop p => p.owed
  | .submit p => p.owed

/-- The worker has taken an envelope and has not counted it yet. -/
def Worker.isBusy {R : Type} : Worker J R → Bool
  | .looks | .selects | .settles _ | .gone => false
  | _ => true

/-- An event that refuses an envelope. -/
def Event.refuses : Event J → Bool
  | .refused _ => true
  | _ => false

/-- How many envelopes have been refused. -/
def refusals (history : List (Event J)) : Nat := history.countP Event.refuses

/-- What has been done with envelopes according to the counters and the queue, less what was put into the queue. -/
def Scheduler.surplus (s : Scheduler J) : Int :=
  s.counters.executed + s.counters.panicked + s.counters.discarded + s.queue.length - s.counters.submitted

namespace Scheduler
variable {s t : Scheduler J}

theorem surplus_dequeue {e : Envelope J} (taken : s.dequeue? = some (e,t)) : t.surplus = s.surplus-1 := by
  unfold dequeue? at taken
  split at taken
  · cases taken
  · next head rest queue =>
    cases taken
    simp only [surplus,queue,List.length_cons]
    omega

@[simp] theorem surplus_enqueue (s : Scheduler J) (e : Envelope J) : (s.enqueue e).surplus = s.surplus+1 := by
  simp only [surplus,enqueue,List.length_append,List.length_singleton]
  omega

@[simp] theorem surplus_countSubmitted (s : Scheduler J) : s.countSubmitted.surplus = s.surplus-1 := by
  simp only [surplus,countSubmitted,count]
  omega

@[simp] theorem surplus_countExecuted (s : Scheduler J) : s.countExecuted.surplus = s.surplus+1 := by
  simp only [surplus,countExecuted,count]
  omega

@[simp] theorem surplus_countPanicked (s : Scheduler J) : s.countPanicked.surplus = s.surplus+1 := by
  simp only [surplus,countPanicked,count]
  omega

@[simp] theorem surplus_countDiscarded (s : Scheduler J) (n : Nat) : (s.countDiscarded n).surplus = s.surplus+n := by
  simp only [surplus,countDiscarded,count]
  omega

@[simp] theorem surplus_envelop (s : Scheduler J) (g : Nat) (task : Task J) : (s.envelop g task).2.surplus = s.surplus :=
  rfl

@[simp] theorem surplus_note (s : Scheduler J) (line : LogLine) : (s.note line).surplus = s.surplus := rfl

@[simp] theorem surplus_lock (s : Scheduler J) : s.lock.surplus = s.surplus := rfl

@[simp] theorem surplus_unlock (s : Scheduler J) : s.unlock.surplus = s.surplus := rfl

@[simp] theorem surplus_openGeneration (s : Scheduler J) : s.openGeneration.surplus = s.surplus := rfl

@[simp] theorem surplus_closeGeneration (s : Scheduler J) (g : Nat) : (s.closeGeneration g).surplus = s.surplus := rfl

@[simp] theorem surplus_leaveGeneration (s : Scheduler J) (g : Nat) : (s.leaveGeneration g).surplus = s.surplus := by
  unfold leaveGeneration
  split <;> rfl

@[simp] theorem surplus_changeInterrupt (s : Scheduler J) (g : Nat) (f : Interrupt → Interrupt) :
    (s.changeInterrupt g f).surplus = s.surplus := rfl

@[simp] theorem surplus_interrupt (s : Scheduler J) (reason : String) : (s.interrupt reason).surplus = s.surplus := by
  unfold interrupt
  split <;> rfl

@[simp] theorem surplus_detach (s : Scheduler J) (finished : Nat → Bool) :
    (Starting.detach s finished).surplus = s.surplus := by
  unfold Starting.detach
  cases held : s.worker with
  | none => rfl
  | some g => cases gone : finished g <;> simp [gone] <;> rfl

end Scheduler

/-! ### Steps -/

section
variable {finished : Nat → Bool} {first : J} {s t : Scheduler J}

theorem Submission.Step.surplus {p q : Submission J} (step : p.Step s q t) :
    t.surplus - refusals (p.events q) = s.surplus + q.owed - p.owed := by
  cases step with
  | @look inside e live => cases inside <;> simp [events,refusals,owed]
  | late past | abandon past =>
    simp only [events,refusals,owed,Event.refuses,List.countP_singleton,if_true]
    omega
  | _ => simp [events,refusals,owed,Event.refuses]

theorem Starting.Step.surplus {p q : Starting J} {found : Scheduler J} (step : Step finished first s p q t) :
    t.surplus - refusals (p.events found t q) = s.surplus + q.owed - p.owed := by
  cases step with
  | drain taken =>
    simp only [events,refusals,owed,Scheduler.surplus_dequeue taken,List.countP_nil]
    omega
  | submit step => exact step.surplus
  | @submitted p outcome | @dropped p line outcome =>
    cases p with
    | ended accepted | handsOver e => simp [events,refusals,owed,Submission.owed]
    | _ => cases outcome
  | _ => simp [events,refusals,owed,Event.refuses,Submission.owed]

theorem Stopping.Step.surplus {p q : Stopping} (step : p.Step finished s q t) :
    t.surplus - refusals (p.events s q) = s.surplus + q.owed - p.owed := by
  cases step with
  | drain taken =>
    simp only [events,refusals,owed,Scheduler.surplus_dequeue taken,List.countP_nil]
    omega
  | take free handle => simp [events,refusals,owed,Event.refuses,Scheduler.surplus]
  | _ => simp [events,refusals,owed,Event.refuses]

theorem Call.Step.surplus {c d : Call J} {events : List (Event J)} (step : Call.Step finished first s c d t events) :
    t.surplus - refusals events = s.surplus + d.owed - c.owed := by
  cases step with
  | start step => exact step.surplus
  | stop step => exact step.surplus
  | submit step => exact step.surplus

/-- What a worker has taken and not counted. -/
def Worker.load {R : Type} (p : Worker J R) : Int := if p.isBusy then 1 else 0

theorem Worker.Step.surplus {R : Type} {g : Nat} {run : J → R} {rest : R} {p q : Worker J R}
    (step : p.Step g run rest s q t) : t.surplus - refusals (p.events g q) = s.surplus + p.load - q.load := by
  cases step with
  | take taken => simp [events,refusals,load,isBusy,Event.refuses,Scheduler.surplus_dequeue taken]
  | @countRan panicked => cases panicked <;> simp [events,refusals,load,isBusy]
  | _ => simp [events,refusals,load,isBusy,Event.refuses]

end

namespace System
variable {first : J} {capacity : Nat} {σ τ : System J} {a : Action J}

/-- By how much the queue and the drops are ahead of the counters because of the call of a party. -/
def callOwes (σ : System J) (who : Party) : Int := ((σ.call? who).map Call.owed).getD 0

/-- What a party has taken out of the queue and not counted. -/
def load (σ : System J) : Party → Int
  | .thread _ => 0
  | .worker g => (σ.workers g).load

/-- By how much the queue and the drops are ahead of the counters because of a party. -/
def owes (σ : System J) (who : Party) : Int := σ.callOwes who - σ.load who

/-- How far the counters are off. -/
def gap (σ : System J) : Int := σ.scheduler.surplus - refusals σ.history

/-- The workers that have taken an envelope and not counted it. -/
def busy (σ : System J) : Finset Nat :=
  (Finset.range (σ.scheduler.generation+1)).filter fun g => (σ.workers g).isBusy = true

end System

end ScriptHost
