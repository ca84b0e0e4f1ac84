import ScriptHost.Failure
import ScriptHost.Path
/-!
Read access to files. `Files` says what every path holds; `Tree` is a tree of entries given by their
paths, in which every directory above an entry is there too.
-/

namespace ScriptHost

/-- What a path points at. -/
inductive EntryKind where
  | file | dir
  deriving DecidableEq, Inhabited

/-- What every path holds: its text, what it points at, and the names below it with what each of them
is, in no certain order. -/
structure Files where
  read : Path → Except IoFailure String
  kind : Path → Except IoFailure EntryKind
  list : Path → Except IoFailure (List (String × EntryKind))

/-- No files at all. -/
def Files.none : Files :=
  let missing : IoFailure := { kind := .notFound }
  ⟨fun _ => .error missing, fun _ => .error missing, fun _ => .error missing⟩

/-- One use of the files. -/
inductive Access where
  | read (path : Path)
  | kind (path : Path)
  deriving DecidableEq, Inhabited

/-- An entry of a tree: what its path points at, and what reading it gives. -/
structure Entry where
  kind : Except IoKind EntryKind
  content : Except IoKind String
  deriving Inhabited

namespace Entry

/-- A file with a text. -/
def file (text : String) : Entry := ⟨.ok .file, .ok text⟩

/-- A directory, which cannot be read. -/
def dir : Entry := ⟨.ok .dir, .error .isADirectory⟩

end Entry

/-- Entries by path. -/
structure Tree where
  entries : List (Path × Entry)
  deriving Inhabited

namespace Tree

/-- The entry at a path; paths with the same components are the same. -/
def find? (t : Tree) (path : Path) : Option Entry :=
  (t.entries.find? (·.1.components = path.components)).map (·.2)

/-- A path above an entry. -/
def isAbove (t : Tree) (path : Path) : Bool :=
  t.entries.any fun (p, _) =>
    p.startsWith path && p.components.length > path.components.length

/-- Put an entry at a path, or take the one there away. -/
def set (t : Tree) (path : Path) (entry : Option Entry) : Tree :=
  let others := t.entries.filter (·.1.components ≠ path.components)
  match entry with
  | some e => ⟨others ++ [(path, e)]⟩
  | none => ⟨others⟩

/-- The name of an entry directly below a path, or of the directory there that leads to it. -/
def childOf (path : Path) (p : Path) : Option (String × Bool) :=
  match p.components.drop path.components.length with
  | .name s :: rest => if p.startsWith path then some (s, !rest.isEmpty) else none
  | _ => none

/-- Read access to a tree. -/
def files (t : Tree) : Files where
  read path :=
    let fail (k : IoKind) : Except IoFailure String := .error { kind := k }
    if t.isAbove path then fail .isADirectory
    else match t.find? path with
      | some entry =>
        match entry.content with
        | .ok text => .ok text
        | .error k => fail k
      | none => fail .notFound
  kind path :=
    if t.isAbove path then .ok .dir
    else match t.find? path with
      | some entry =>
        match entry.kind with
        | .ok k => .ok k
        | .error k => .error { kind := k }
      | none => .error { kind := .notFound }
  list path :=
    let names := t.entries.filterMap fun (p, e) =>
      (childOf path p).map fun (name, inner) =>
        (name, if inner then EntryKind.dir else (e.kind.toOption).getD .file)
    match t.find? path with
    | some _ => .ok names
    | none => if names.isEmpty then .error { kind := .notFound } else .ok names

end Tree

end ScriptHost
