import ScriptHost.Path
/-!
Settings of a host, and the delays between two looks at a pending result. `Backoff.next?` makes a
delay ten times longer, up to a ceiling; a product that no span can hold has no value.
-/

namespace ScriptHost

/-- A span of time in nanoseconds. -/
structure Span where
  nanos : Nat
  deriving DecidableEq, Inhabited

namespace Span

/-- The longest span: the seconds fill a word of 64 bits. -/
def longest : Span := ⟨0x10000000000000000 * 1000000000 - 1⟩

/-- A span of so many microseconds. -/
def micros (n : Nat) : Span := ⟨n * 1000⟩

/-- A span of so many milliseconds. -/
def millis (n : Nat) : Span := ⟨n * 1000000⟩

/-- A span of so many seconds. -/
def seconds (n : Nat) : Span := ⟨n * 1000000000⟩

/-- The whole microseconds of a span. -/
def toMicros (s : Span) : Nat := s.nanos / 1000

/-- The longer of two spans. -/
def max (a b : Span) : Span := if a.nanos < b.nanos then b else a

/-- The shorter of two spans. -/
def min (a b : Span) : Span := if b.nanos < a.nanos then b else a

/-- One span after another. -/
def plus (a b : Span) : Span := ⟨a.nanos + b.nanos⟩

/-- The whole milliseconds of a span. -/
def toMillis (s : Span) : Nat := s.nanos / 1000000

/-- One moment is no later than another one. -/
def le (a b : Span) : Bool := a.nanos ≤ b.nanos

/-- So many times a span, if it is no longer than the longest one. -/
def times? (s : Span) (n : Nat) : Option Span :=
  if s.nanos * n ≤ longest.nanos then some ⟨s.nanos * n⟩ else none

end Span

/-- The knobs of a host. -/
structure Settings where
  /-- Where bare specifiers and top-level relative ones start. -/
  modulesPath : Path := ⟨"."⟩
  /-- The number of jobs the queue holds. -/
  queueCapacity : Nat := 256
  /-- How long a stop waits before it empties the queue and interrupts the running script. -/
  softTimeout : Span := .millis 500
  /-- How long a stop waits after that. -/
  hardTimeout : Span := .seconds 1
  /-- The first delay between two looks at a pending result. -/
  pollInitial : Span := .micros 10
  /-- The longest delay between two looks. -/
  pollMax : Span := .millis 100
  /-- The most memory scripts may take, in bytes. -/
  memoryLimit : Option Nat := none
  /-- The most stack scripts may take, in bytes. -/
  stackLimit : Option Nat := none
  deriving Inhabited

namespace Settings

/-- Other base directory for modules. -/
def withModulesPath (s : Settings) (path : Path) : Settings := { s with modulesPath := path }

/-- Other queue capacity, one at least. -/
def withQueueCapacity (s : Settings) (capacity : Nat) : Settings :=
  { s with queueCapacity := Nat.max capacity 1 }

/-- Other timeouts for a stop. -/
def withShutdownTimeouts (s : Settings) (soft hard : Span) : Settings :=
  { s with softTimeout := soft, hardTimeout := hard }

/-- Other delays between looks; the longest is no shorter than the first. -/
def withPollBackoff (s : Settings) (initial max : Span) : Settings :=
  { s with pollInitial := initial, pollMax := max.max initial }

/-- A limit on memory. -/
def withMemoryLimit (s : Settings) (bytes : Nat) : Settings := { s with memoryLimit := some bytes }

/-- A limit on stack. -/
def withStackLimit (s : Settings) (bytes : Nat) : Settings := { s with stackLimit := some bytes }

end Settings

/-- The first and the longest delay between two looks. -/
structure Backoff where
  initial : Span
  max : Span
  deriving DecidableEq, Inhabited

namespace Backoff

/-- The delays that settings ask for. -/
def ofSettings (s : Settings) : Backoff := ⟨s.pollInitial, s.pollMax⟩

/-- The delay after `current`: ten times longer, no longer than the longest. -/
def next? (b : Backoff) (current : Span) : Option Span :=
  if current.nanos < b.max.nanos then (current.times? 10).map (·.min b.max) else some b.max

/-- The delay after so many looks. -/
def delay? (b : Backoff) : Nat → Option Span
  | 0 => some b.initial
  | n + 1 => (b.delay? n).bind b.next?

end Backoff

end ScriptHost
