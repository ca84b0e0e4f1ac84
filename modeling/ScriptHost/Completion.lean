import ScriptHost.Failure
/-!
Signals and completions. A signal is closed once and stays closed. A completion is the outcome of
one piece of work: the first outcome offered is kept, and only then the completion is announced as
ready. A watcher offers `cancelled` when the work is cancelled or the signal it is bound to closes.
-/

namespace ScriptHost

/-- A signal is open until it is closed. -/
structure Signal where
  closed : Bool
  deriving DecidableEq, Inhabited

namespace Signal

/-- Close a signal; whether this call closed it. -/
def close (s : Signal) : Bool × Signal := (!s.closed, ⟨true⟩)

/-- The form a signal has in records. -/
def describe (s : Signal) : String := "Signal \x7b closed: " ++ toString s.closed ++ " \x7d"

theorem closed_close (s : Signal) : s.close.2.closed = true := rfl

end Signal

/-- Where the watcher of a completion stands. -/
inductive Watcher where
  | looks
  /-- Its offer was taken and is not announced yet. -/
  | announces
  | gone
  deriving DecidableEq

instance : Inhabited Watcher := ⟨.gone⟩

/-- The state of one piece of work. -/
structure Completion (α : Type) where
  /-- The outcome that was offered first. -/
  slot : Option (Except Failure α)
  /-- The outcome has been announced. -/
  ready : Bool
  /-- The work has been cancelled. -/
  cancelled : Bool
  watcher : Watcher
  deriving Inhabited

namespace Completion

variable {α : Type}

/-- Offer an outcome; only the first one is taken. -/
def offer (c : Completion α) (outcome : Except Failure α) : Bool × Completion α :=
  match c.slot with
  | none => (true, { c with slot := some outcome })
  | some _ => (false, c)

/-- Announce the outcome. -/
def announce (c : Completion α) : Completion α := { c with ready := true }

/-- Offer an outcome and announce it when it was taken; whether it was. -/
def resolve (c : Completion α) (outcome : Except Failure α) : Bool × Completion α :=
  match c.offer outcome with
  | (true, c') => (true, c'.announce)
  | (false, c') => (false, c')

/-- A completion that nothing has been offered to, watched from now on. -/
def fresh : Completion α := ⟨none, false, false, .looks⟩

/-- A completion bound to a signal: cancelled from the start when the signal is closed. -/
def bound (signal : Signal) : Completion α :=
  if signal.closed then { (fresh.resolve (.error .cancelled)).2 with watcher := .gone } else fresh

/-- Ask for the work to be cancelled. -/
def cancel (c : Completion α) : Completion α := { c with cancelled := true }

/-- What the watcher may do next; nothing while it waits and when it is gone. It is done once the
completion is ready, and offers `cancelled` when the work was cancelled or its signal closed. -/
def watchNext (c : Completion α) (signal : Signal) : List (Completion α) :=
  match c.watcher with
  | .looks =>
    (if c.ready then [{ c with watcher := .gone }] else []) ++
      (if c.cancelled || signal.closed then
        [match c.offer (.error .cancelled) with
          | (true, c) => { c with watcher := .announces }
          | (false, c) => { c with watcher := .gone }]
      else [])
  | .announces => [{ c.announce with watcher := .gone }]
  | .gone => []

/-- The watcher goes on for as long as it can. -/
def watch (c : Completion α) (signal : Signal) : Completion α :=
  let c := (c.watchNext signal).headD c
  (c.watchNext signal).headD c

/-- The outcome, once there is one. -/
def get? (c : Completion α) : Option (Except Failure α) := c.slot

/-- What those who wait are told once the outcome has been announced. -/
def told (c : Completion α) : Except Failure α :=
  c.slot.getD (.error (.internal "result signalled without a value"))

/-- The outcome of a completion that is ready. -/
def wait? (c : Completion α) : Option (Except Failure α) := if c.ready then some c.told else none

/-- The form a completion has in records. -/
def describe (c : Completion α) : String :=
  "Completion \x7b ready: " ++ toString c.ready ++ ", cancelled: " ++ toString c.cancelled ++ " \x7d"

/-- A second offer changes nothing. -/
theorem resolve_of_slot {c : Completion α} {r o : Except Failure α} (h : c.slot = some r) :
    c.resolve o = (false, c) := by simp [resolve, offer, h]

/-- The first offer is kept. -/
theorem slot_resolve_of_empty {c : Completion α} {o : Except Failure α} (h : c.slot = none) :
    (c.resolve o).1 = true ∧ (c.resolve o).2.slot = some o ∧ (c.resolve o).2.ready = true := by
  simp [resolve, offer, announce, h]

end Completion

end ScriptHost
