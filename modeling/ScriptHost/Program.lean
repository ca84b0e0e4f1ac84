import ScriptHost.Failure
import ScriptHost.Text.Quoted
/-!
Compiled scripts. A program is a named source text that a checker has accepted; when the checker
refuses a text and a transform is at hand, the transformed text is checked instead. Two handles of
one compilation share a serial number.
-/

namespace ScriptHost

/-- Accepts a source text, or says why not. -/
abbrev Checker := (name source : String) → Except Failure Unit

/-- Turns a source text into another one, or says why it cannot. -/
abbrev Transform := String → Except String String

/-- A source text that was accepted. -/
structure Program where
  name : String
  source : String
  /-- Tells one compilation from another. -/
  serial : Nat
  deriving DecidableEq, Inhabited

namespace Program

/-- The text to run: the source itself, or else what the transform makes of it. -/
def accept (check : Checker) (name source : String) (transform : Option Transform) :
    Except Failure String :=
  match check name source with
  | .ok () => .ok source
  | .error refusal =>
    match transform with
    | none => .error refusal
    | some t =>
      match t source with
      | .error text => .error (.transform text)
      | .ok changed => (check name changed).map fun () => changed

/-- Compile a source text. -/
def compile (check : Checker) (serial : Nat) (name source : String) (transform : Option Transform) :
    Except Failure Program :=
  (accept check name source transform).map fun text => ⟨name, text, serial⟩

/-- Both handles are of one compilation. -/
def same (a b : Program) : Bool := a.serial == b.serial

/-- The form a program has in records: its name and the size of its text in bytes. -/
def describe (p : Program) : String :=
  s!"Program \x7b name: {Text.quoted p.name}, len: {p.source.utf8ByteSize} \x7d"

/-- What is accepted passes the check. -/
theorem check_of_accept {check : Checker} {name source text : String} {t : Option Transform}
    (h : accept check name source t = .ok text) : check name text = .ok () := by
  unfold accept at h
  split at h
  · rename_i hc
    cases h
    exact hc
  · split at h
    · cases h
    · split at h
      · cases h
      · rename_i changed _
        cases hc : check name changed with
        | error e => rw [hc] at h; cases h
        | ok u => rw [hc] at h; cases h; exact hc

end Program

end ScriptHost
