import ScriptHost.Program
import ScriptHost.Script.Parser.Declaration
/-!
The check that a source text is a script: the first complaint about it, with its line, is a failure of
the program of that name.
-/

namespace ScriptHost.Script

/-- Accept a text that reads as a script. -/
def check : Checker := fun name source =>
  let text := source.toList.toArray
  match Source.read text false false with
  | .ok _ => .ok ()
  | .error fault => .error (.malformed name (lineOf text fault.place) fault.complaint.message)

end ScriptHost.Script
