import ScriptHost.Json.Basic
/-!
Lines of logs. Scripts write lines by the methods of the console, and the host writes lines about
what it does, with the facts that belong to each.
-/

namespace ScriptHost

/-- A method of the console. -/
inductive ConsoleMethod where
  | log | info | debug | warn | error
  deriving DecidableEq, Inhabited

namespace ConsoleMethod

/-- The name of a method. -/
def name : ConsoleMethod → String
  | log => "log"
  | info => "info"
  | debug => "debug"
  | warn => "warn"
  | error => "error"

/-- The level at which the lines of a method are logged. -/
def level : ConsoleMethod → String
  | log | info => "INFO"
  | debug => "DEBUG"
  | warn => "WARN"
  | error => "ERROR"

/-- The lines of a method are complaints. -/
def isComplaint : ConsoleMethod → Bool
  | warn | error => true
  | log | info | debug => false

end ConsoleMethod

/-- A line that a script wrote. -/
structure ConsoleLine where
  method : ConsoleMethod
  message : String
  deriving DecidableEq, Inhabited

/-- A line that the host wrote. -/
structure LogLine where
  level : String
  message : String
  fields : List (String × Json) := []
  deriving Inhabited

namespace LogLine

/-- A line about something that went on in spite of a fault. -/
def warning (message : String) (fields : List (String × Json) := []) : LogLine :=
  ⟨"WARN", message, fields⟩

/-- A line about something that failed. -/
def failure (message : String) (fields : List (String × Json) := []) : LogLine :=
  ⟨"ERROR", message, fields⟩

end LogLine

end ScriptHost
