import ScriptHost.Command.Arguments
import ScriptHost.Scripts
import ScriptHost.Untyped
/-!
What the command does. A script's lines go to the output, its complaints to the errors; a failure is
reported with its causes, the outermost first.
-/

namespace ScriptHost.Command

/-- What a run of the command leaves. -/
structure Result where
  code : Nat := 0
  output : String := ""
  errors : String := ""
  /-- The command goes on until it is stopped from outside. -/
  waits : Bool := false
  deriving DecidableEq

/-! ## Reports -/

/-- A text with every line but the first behind some blanks. -/
def hanging (blanks : String) (s : String) : String := s.replace "\n" ("\n" ++ blanks)

/-- Causes with their numbers. -/
def numbered (n : Nat) : List String → String
  | [] => ""
  | s :: rest =>
    let number := toString n
    let pad := String.ofList (List.replicate (5 - number.length) ' ')
    "\n" ++ pad ++ number ++ ": " ++ hanging "       " s ++ numbered (n + 1) rest

/-- A failure with its causes; several causes have numbers. -/
def report (message : String) (causes : List String) : String :=
  let shown := match causes with
    | [] => ""
    | [cause] => "\n\nCaused by:\n    " ++ hanging "    " cause
    | causes => "\n\nCaused by:" ++ numbered 0 causes
  "Error: " ++ message ++ shown ++ "\n"

/-- A failure that something failed by. -/
def reportAs (message : String) (e : Failure) : String := report message (e.message :: e.sources)

/-! ## Help -/

/-- The name of the command. -/
def name : String := "squall"

/-- The options that every command has, in front of those of one command and behind them. -/
def optionLines (between : List String) : List String :=
  ["      --modules-path <MODULES_PATH>  Base directory for \x60require\x60 [default: .]"] ++ between ++
  ["      --typescript                   Strip TypeScript syntax from sources that fail to parse",
   "  -h, --help                         Print help"]

/-- What a command does. -/
def Verb.about : Verb → String
  | .run => "Run every *.js file of a directory, in name order"
  | .eval => "Evaluate an expression and print its settled value as JSON"

/-- How the command is used, or one of its commands. -/
def helpText : Option Verb → String
  | none => "\n".intercalate (
      ["Embedded JavaScript VM", "", "Usage: " ++ name ++ " [OPTIONS] <COMMAND>", "", "Commands:",
       "  run   " ++ Verb.run.about, "  eval  " ++ Verb.eval.about,
       "  help  Print this message or the help of the given subcommand(s)", "", "Options:"] ++
      optionLines [] ++ ["  -V, --version                      Print version", ""])
  | some .run => "\n".intercalate (
      [Verb.run.about, "", "Usage: " ++ name ++ " run [OPTIONS] <DIR>", "", "Arguments:", "  <DIR>  ",
       "", "Options:"] ++
      optionLines ["      --wait                         Keep the VM running after the scripts finish, until Ctrl-C"] ++
      [""])
  | some .eval => "\n".intercalate (
      [Verb.eval.about, "", "Usage: " ++ name ++ " eval [OPTIONS] <EXPR>", "", "Arguments:",
       "  <EXPR>  ", "", "Options:"] ++ optionLines [] ++ [""])

/-! ## Running -/

/-- A result with the lines that scripts have written. -/
def Result.withConsole (r : Result) (lines : List ConsoleLine) : Result :=
  lines.foldl (fun r l =>
    if l.method.isComplaint then { r with errors := r.errors ++ l.message ++ "\n" }
    else { r with output := r.output ++ l.message ++ "\n" }) r

/-- A result with the failure that it ends in. -/
def Result.failed (r : Result) (text : String) : Result :=
  { r with code := 1, errors := r.errors ++ text }

/-- Do a task: what is shown of its value, or the report of its failure. -/
def perform (h : Host Unit) : Task → Except String String × Host Unit
  | .run dir _ =>
    let (r, h) := h.runDirectory dir
    (match r with
      | .ok () => .ok ""
      | .error e => .error (reportAs ("running scripts in " ++ dir.text) e), h)
  | .eval source =>
    let (i, h) := h.runScript Host.anonymous source
    let (r, h) := h.outcomeOf i
    (match r with
      | .ok value => .ok (value.pretty 0 ++ "\n")
      | .error e => .error (report e.message e.sources), h)

/-- Do a task with a host of its own, from its start to its end. -/
def runTask (files : Files) (modulesPath : Path) (typed : Bool) (t : Task) : Result :=
  let h : Host Unit := .new (Settings.withModulesPath {} modulesPath) files ()
  let h := if typed then h.setTransform (some untyped) else h
  match h.start with
  | (.error e, _) => Result.failed {} (reportAs "failed to start VM" e)
  | (.ok (), h) =>
    let (shown, h) := perform h t
    let (lines, h) := h.takeConsole
    let r := Result.withConsole {} lines
    let r := match shown with
      | .ok text => { r with output := r.output ++ text }
      | .error _ => r
    let waits := match t, shown with
      | .run _ waits, .ok _ => waits
      | _, _ => false
    let (stopped, h) := h.stop
    let r := r.withConsole h.takeConsole.1
    match stopped, shown with
    | .error e, _ => r.failed (reportAs "failed to stop VM" e)
    | .ok (), .error text => r.failed text
    | .ok (), .ok _ => { r with waits }

/-- The code of a command whose arguments are not well formed. -/
def usageCode : Nat := 2

/-- Run the command with arguments, if they are well formed. -/
def run (files : Files) (args : List String) : Option Result :=
  (Wish.ofArguments? args).map fun wish =>
    match wish with
    | .help topic => { output := helpText topic }
    | .version => { output := name ++ " 0.1.0\n" }
    | .task modulesPath typed t => runTask files modulesPath typed t

end ScriptHost.Command
