import ScriptHost.Program
import ScriptHost.Script.Erasure.Items
import ScriptHost.Script.Parser.Declaration
import ScriptHost.Script.Printer
/-!
The transform that takes the types out of scripts, so that a text with annotations can be run.
-/

namespace ScriptHost

/-- A text with annotations as a script, or else as a module. What is wrong with it as a module
counts. -/
def readTyped (text : String) : Except Script.Fault Script.Source :=
  let cs := text.toList.toArray
  match Script.Source.read cs true false with
  | .ok source => .ok source
  | .error _ => Script.Source.read cs true true

/-- The same script without types. -/
def untyped : Transform := fun text =>
  match readTyped text with
  | .ok source => .ok (source.erase.print)
  | .error fault => .error ("failed to parse TypeScript: " ++ fault.complaint.message)

end ScriptHost
