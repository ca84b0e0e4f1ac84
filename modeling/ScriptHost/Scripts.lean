import ScriptHost.Host.Control
/-!
Directories of scripts. The scripts of a directory are the files directly in it whose names end in
`.js`, in the order of their names; they can be run one after another, up to the first that fails, or
be installed to run in every new engine.
-/

namespace ScriptHost

/-- A script read from a directory. -/
structure ScriptFile where
  /-- The name of the file in its directory. -/
  name : String
  body : String
  deriving DecidableEq, Inhabited

namespace ScriptFile

/-- An entry is a script: no directory, and of the right name. -/
def isScript (entry : String × EntryKind) : Bool := entry.2 ≠ .dir && entry.1.endsWith ".js"

/-- Read the files of some entries of a directory, in the order of the entries. -/
def readAll (files : Files) (root : Path) :
    List (String × EntryKind) → Except IoFailure (List ScriptFile)
  | [] => .ok []
  | (name, _) :: rest => do
    let body ← files.read (root.join ⟨name⟩)
    return ⟨name, body⟩ :: (← readAll files root rest)

/-- The scripts of a directory, sorted by name. -/
def load (files : Files) (root : Path) : Except Failure (List ScriptFile) :=
  match files.list root with
  | .error e => .error (.io e)
  | .ok entries =>
    match readAll files root (entries.filter isScript) with
    | .error e => .error (.io e)
    | .ok scripts => .ok (scripts.mergeSort fun a b => a.name ≤ b.name)

end ScriptFile

namespace Host

variable {τ : Type}

/-- Run a script to its outcome. -/
@[irreducible]
def play (h : Host τ) (script : ScriptFile) : Except Failure Json × Host τ :=
  let (i, h) := h.runScript script.name script.body
  h.outcomeOf i

/-- Run scripts one after another, each to its outcome, up to the first that fails. -/
def runEach (h : Host τ) : List ScriptFile → Except Failure Unit × Host τ
  | [] => (.ok (), h)
  | script :: rest =>
    match h.play script with
    | (.ok _, h) => h.runEach rest
    | (.error e, h) => (.error e, h)

/-- Run the scripts of a directory. -/
def runDirectory (h : Host τ) (root : Path) : Except Failure Unit × Host τ :=
  match ScriptFile.load h.files root with
  | .ok scripts => h.runEach scripts
  | .error e => (.error e, h)

/-- A line of the log about a script. -/
def aboutScript (name message : String) (e : Failure) : LogLine :=
  .warning message [("script", .str name), ("error", .str e.message)]

/-- Run scripts in a new engine; a script that is refused keeps the ones behind it from running. -/
def startEach : List ScriptFile → Engine.M Unit
  | [] => pure ()
  | script :: rest => do
    let note (message : String) (e : Failure) : Engine.M Unit :=
      Engine.changeOutside fun o => { o with logs := aboutScript script.name message e :: o.logs }
    let compiled ← Engine.update fun w =>
      let r := w.outside.registry
      match Program.compile Script.check r.serial script.name script.body r.transform with
      | .ok p =>
        (.ok p, { w with outside := { w.outside with registry := { r with serial := r.serial + 1 } } })
      | .error e => ((.error e : Except Failure Program), w)
    match compiled with
    | .error e => note "Error compiling script" e
    | .ok p => do
      if let .error e := ← Engine.evaluate p then note "Error running script" e
      startEach rest

/-- The job that starts an engine with the scripts of a directory. -/
def directoryHook (root : Path) : Work τ :=
  .compute (do
    match ScriptFile.load (← Engine.look (·.outside.files)) root with
    | .error e => Engine.changeOutside fun o => { o with
        logs := .warning "Error loading scripts at runtime init" [("error", .str e.message)] :: o.logs }
    | .ok scripts => startEach scripts) fun () => .done

/-- Have the scripts of a directory run in every new engine. -/
def install (h : Host τ) (root : Path) : Host τ := h.addHook false (directoryHook root)

end Host

end ScriptHost
