/-!
Requests to abort the script that is running. A request stores its reason and raises a flag; the engine
asks for the flag now and then, and a script that finds it raised is aborted. Before each job all
requests so far are forgotten, in three steps.
-/

namespace ScriptHost

/-- The requests to abort the running script. -/
structure Interrupt where
  requested : Bool := false
  /-- A script was aborted. -/
  fired : Bool := false
  reason : Option String := none
  deriving DecidableEq, Inhabited

namespace Interrupt

/-- The first step of a request: its reason is stored. -/
def store (i : Interrupt) (reason : String) : Interrupt := { i with reason := some reason }

/-- The second step of a request: the flag is raised. -/
def flag (i : Interrupt) : Interrupt := { i with requested := true }

/-- Request that the running script be aborted. -/
def request (i : Interrupt) (reason : String) : Interrupt := (i.store reason).flag

/-- The engine asks whether the script is to be aborted; a request is only found once. -/
def fire (i : Interrupt) : Bool × Interrupt :=
  (i.requested, { i with requested := false, fired := i.fired || i.requested })

/-- The reason of the request that aborted a script, if one did. -/
def takeFired (i : Interrupt) : Option String × Interrupt :=
  if i.fired then (some (i.reason.getD "interrupted"), { i with fired := false, reason := none })
  else (none, i)

/-- The first step of forgetting. -/
def clearRequested (i : Interrupt) : Interrupt := { i with requested := false }

/-- The second step of forgetting. -/
def clearFired (i : Interrupt) : Interrupt := { i with fired := false }

/-- The third step of forgetting. -/
def clearReason (i : Interrupt) : Interrupt := { i with reason := none }

/-- Forget all requests. -/
def reset (i : Interrupt) : Interrupt := i.clearRequested.clearFired.clearReason

theorem reset_eq (i : Interrupt) : i.reset = {} := rfl

end Interrupt

end ScriptHost
