import ScriptHost.Registry.Basic
/-!
Resolution of specifiers. A relative specifier is resolved against the directory of the requiring
module; any other one is looked up at the end of the chain of requiring records: first among the
registered names, then as a package or file below the directory at that end. Both end in one file
path, and the record kept under that path is the module.
-/

namespace ScriptHost

namespace Registry

/-- A registry in use, and the uses of the files so far, last one first. -/
structure Session where
  registry : Registry
  accesses : List Access

/-- A walk that looks at files, may add records, and may fail. -/
abbrev Lookup := ReaderT Files (ExceptT Failure (StateM Session))

namespace Lookup

/-- Read a file. -/
def readFile (path : Path) : Lookup (Except IoFailure String) := do
  modify fun s => { s with accesses := .read path :: s.accesses }
  return (← read).read path

/-- Look at what a path points at. -/
def entryKind (path : Path) : Lookup (Except IoFailure EntryKind) := do
  modify fun s => { s with accesses := .kind path :: s.accesses }
  return (← read).kind path

/-- The registry as it is. -/
def registry : Lookup Registry := return (← get).registry

/-- A further record. -/
def add (m : Module) : Lookup Nat := do
  let s ← get
  let (i, r) := s.registry.add m
  set { s with registry := r }
  return i

/-- Let a key lead to a record. -/
def insert (key : String) (i : Nat) : Lookup Unit :=
  modify fun s => { s with registry := s.registry.insert key i }

end Lookup

/-- A specifier that starts from the requiring module's directory. -/
def isRelative (specifier : String) : Bool := specifier.startsWith "./" || specifier.startsWith "../"

/-- The file name ends in `.js`. -/
def hasScriptExtension (path : Path) : Bool := path.extension = some "js"

/-- The path with `.js` behind it. -/
def appendScriptExtension (path : Path) : Path := ⟨path.text ++ ".js"⟩

/-- Directory and name of a file. -/
def splitFile (path : Path) : Path × String := (path.parent.getD ⟨""⟩, path.fileName.getD "")

/-- The file that a path without extension stands for: itself, its index if it is a directory, or
the script of that name if there is nothing. -/
def targetFile (path : Path) : Lookup Path := do
  if hasScriptExtension path then return path
  match ← Lookup.entryKind path with
  | .ok .dir => return path.join ⟨"index.js"⟩
  | .ok .file => return path
  | .error e => return if e.kind = .notFound then appendScriptExtension path else path

/-- The module a relative specifier leads to. -/
def resolveRelative (parent : Nat) (specifier : String) : Lookup Nat := do
  let requirer := (← Lookup.registry).record parent
  let path ← targetFile (requirer.path.join ⟨specifier⟩).clean
  match (← Lookup.registry).find? path.text with
  | some i => return i
  | none =>
    match ← Lookup.readFile path with
    | .error e => throw (.moduleNotFound specifier requirer.key e)
    | .ok body =>
      let i ← Lookup.add (.ofFile specifier path body parent)
      Lookup.insert path.text i
      return i

/-- The end of the chain of requiring records, at most `n` steps away. -/
def anchorIn (r : Registry) : Nat → Nat → Nat
  | 0, i => i
  | n + 1, i =>
    match (r.record i).root with
    | some root => anchorIn r n root
    | none => i

/-- The end of the chain of requiring records; every record was added after the one it starts from. -/
def anchor (r : Registry) (i : Nat) : Nat := anchorIn r (i + 1) i

/-- Directory and entry file of a package or file below a record's directory. -/
def packageEntry (spot : Module) (specifier : String) : Lookup (Path × String) := do
  let path := (spot.path.join ⟨specifier⟩).clean
  if hasScriptExtension path then return splitFile path
  match ← Lookup.readFile (path.join ⟨"package.json"⟩) with
  | .ok text =>
    match Manifest.parse text with
    | .ok manifest => return (path, manifest.entry)
    | .error e => throw (.manifest specifier e)
  | .error _ =>
    match ← Lookup.entryKind path with
    | .ok .dir => return (path, "index.js")
    | .ok .file => return splitFile path
    | .error e =>
      if e.kind = .notFound then return splitFile (appendScriptExtension path)
      else throw (.moduleNotFound specifier spot.key e)

/-- The module a bare specifier leads to: a module of that very key, or the entry of a package. -/
def resolveBare (parent : Nat) (specifier : String) : Lookup Nat := do
  let r ← Lookup.registry
  let i := r.anchor parent
  match r.find? specifier with
  | some found => return found
  | none =>
    let (dir, main) ← packageEntry (r.record i) specifier
    let package ← Lookup.add (.directory specifier dir main (some i))
    resolveRelative package ("./" ++ main)

/-- The module that a specifier leads to, as required from a record. -/
def resolveFrom (parent : Nat) (specifier : String) : Lookup Nat :=
  if isRelative specifier then resolveRelative parent specifier else resolveBare parent specifier

/-- Resolve a specifier: the outcome, the registry after it, and the uses of the files, first one
first. -/
def resolve (files : Files) (r : Registry) (parent : Nat) (specifier : String) :
    Except Failure Nat × Registry × List Access :=
  let (outcome, s) := (resolveFrom parent specifier).run files |>.run |>.run ⟨r, []⟩
  (outcome, s.registry, s.accesses.reverse)

end Registry

end ScriptHost
