import ScriptHost.Path
/-!
The arguments of the command. Options that every command has may stand anywhere; what stands behind
`--` is never an option. `Wish.ofArguments?` tells what the arguments ask for; there is none if they
are not well formed.
-/

namespace ScriptHost.Command

/-- What is to be done. -/
inductive Task where
  /-- Run the scripts of a directory, and go on running after that. -/
  | run (dir : Path) (waits : Bool)
  /-- Evaluate an expression and show its value. -/
  | eval (source : String)
  deriving DecidableEq

/-- The commands. -/
inductive Verb where
  | run | eval
  deriving DecidableEq

/-- What the arguments ask for. -/
inductive Wish where
  /-- Tell how the command is used, or one of its commands. -/
  | help (topic : Option Verb)
  | version
  /-- Do something, with modules from this directory, and with types in the scripts or without. -/
  | task (modulesPath : Path) (typed : Bool) (t : Task)
  deriving DecidableEq

/-- Options that every command has, as far as they were given. -/
structure Options where
  modulesPath : Option String := none
  typed : Bool := false
  deriving DecidableEq

namespace Options

/-- Options with those that were given behind them. -/
def followedBy (a b : Options) : Options := ⟨b.modulesPath.or a.modulesPath, a.typed || b.typed⟩

/-- An option with a value between two arguments or in one of them. -/
def withModulesPath (o : Options) (value : String) : Option Options :=
  if value.isEmpty || o.modulesPath.isSome then none
  else some { o with modulesPath := some value }

end Options

/-- An argument looks like an option. -/
def isOption (arg : String) : Bool := arg.startsWith "-" && arg ≠ "-"

/-- What one argument at the front is. -/
inductive Reading where
  /-- An option that every command has, with what is behind it. -/
  | option (o : Options) (rest : List String)
  /-- An option that every command has, but it is not well formed or was given before. -/
  | refused
  | help
  /-- Something else. -/
  | other

/-- Read the argument at the front, behind the options given so far. -/
def Options.read (o : Options) : List String → Reading
  | [] => .other
  | arg :: rest =>
    let valued (value : String) (rest : List String) : Reading :=
      match o.withModulesPath value with
      | some o => .option o rest
      | none => .refused
    if arg = "--typescript" then
      (if o.typed then .refused else .option { o with typed := true } rest)
    else if arg = "--modules-path" then
      match rest with
      | value :: rest => if isOption value then .refused else valued value rest
      | [] => .refused
    else if arg.startsWith "--modules-path=" then valued (arg.drop 15).toString rest
    else if arg = "--help" || arg.startsWith "-h" then .help
    else .other

/-- What a command has been given. -/
structure Given where
  options : Options := {}
  value : Option String := none
  waits : Bool := false

/-- A value for a command; only one is wanted, and that of `run` may not be empty. -/
def Given.withValue (g : Given) (verb : Verb) (value : String) : Option Given :=
  if g.value.isSome || (verb = .run && value.isEmpty) then none
  else some { g with value := some value }

/-- What a command is given: nothing if it is not well formed, and no more than that if help is asked
for. `n` bounds the number of arguments. -/
def Given.read (verb : Verb) : Nat → Given → List String → Option (Option Given)
  | _, g, [] => if g.value.isSome then some (some g) else none
  | 0, _, _ => none
  | n + 1, g, arg :: rest =>
    if arg = "--" then
      match rest.foldl (fun g? value => g?.bind (·.withValue verb value)) (some g) with
      | some g => if g.value.isSome then some (some g) else none
      | none => none
    else
      match g.options.read (arg :: rest) with
      | .option options rest => Given.read verb n { g with options } rest
      | .refused => none
      | .help => some none
      | .other =>
        if arg = "--wait" && verb = .run && !g.waits then
          Given.read verb n { g with waits := true } rest
        else if isOption arg then none
        else (g.withValue verb arg).bind fun g => Given.read verb n g rest

/-- The command of a name. -/
def Verb.ofName? : String → Option Verb
  | "run" => some .run
  | "eval" => some .eval
  | _ => none

/-- What a command with what it is given asks for, behind the options in front of it. -/
def Verb.wish (verb : Verb) (front : Options) (args : List String) : Option Wish := do
  match ← Given.read verb args.length {} args with
  | none => return .help (some verb)
  | some g =>
    let o := front.followedBy g.options
    let value ← g.value
    let task := match verb with
      | .run => Task.run ⟨value⟩ g.waits
      | .eval => .eval value
    return .task ⟨o.modulesPath.getD "."⟩ o.typed task

/-- What arguments ask for, behind options; `n` bounds their number. -/
def Wish.read : Nat → Options → List String → Option Wish
  | 0, _, _ | _, _, [] => none
  | n + 1, o, arg :: rest =>
    match o.read (arg :: rest) with
    | .option o rest => Wish.read n o rest
    | .refused => none
    | .help => some (.help none)
    | .other =>
      if arg = "--version" || arg.startsWith "-V" then some .version
      else if arg = "help" then
        match rest with
        | [] => some (.help none)
        | [name] => (Verb.ofName? name).map fun verb => .help (some verb)
        | _ => none
      else (Verb.ofName? arg).bind (·.wish o rest)

/-- What arguments ask for. -/
def Wish.ofArguments? (args : List String) : Option Wish := Wish.read args.length {} args

end ScriptHost.Command
