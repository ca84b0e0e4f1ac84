import ScriptHost.Files
/-!
A file system with symbolic links and a working directory. A path leads from the working directory or
the root along its steps; links on the way are followed, as often as 40 times. The errors carry the
number by which systems know them.
-/

namespace ScriptHost

/-- What is stored under a name. -/
inductive Node where
  /-- A file; its text, unless it is not text. -/
  | file (text : Option String)
  | dir
  | link (target : String)
  deriving DecidableEq, Inhabited

/-- A file system. The root is a directory, and so is everything above a node. -/
structure Disk where
  /-- The nodes by the names that lead to them from the root. -/
  nodes : List (List String × Node)
  /-- Where relative paths start. -/
  home : List String
  deriving Inhabited

namespace Disk

/-- An error with the number by which systems know it. -/
def fault (kind : IoKind) (text : String) (number : Nat) : IoFailure :=
  ⟨kind, some (text ++ " (os error " ++ toString number ++ ")")⟩

/-- There is nothing under a name. -/
def missing : IoFailure := fault .notFound "No such file or directory" 2

/-- A step leads through something that is no directory. -/
def notDirectory : IoFailure := fault .notADirectory "Not a directory" 20

/-- A directory has no text. -/
def isDirectory : IoFailure := fault .isADirectory "Is a directory" 21

/-- A name is longer than 255 bytes, or a path longer than 4095. -/
def tooLong : IoFailure := fault .invalidFilename "File name too long" 36

/-- Links lead to links again and again. -/
def loops : IoFailure := fault .filesystemLoop "Too many levels of symbolic links" 40

/-- The bytes of a file are no text. -/
def notText : IoFailure := ⟨.invalidData, some "stream did not contain valid UTF-8"⟩

/-- A path cannot have this character. -/
def nulInside : IoFailure := ⟨.invalidInput, some "file name contained an unexpected NUL byte"⟩

/-- The node to which names lead from the root. -/
def find? (d : Disk) (names : List String) : Option Node :=
  match d.nodes.find? (·.1 = names) with
  | some (_, node) => some node
  | none =>
    if names.isPrefixOf d.home || d.nodes.any fun (other, _) => names.isPrefixOf other then some .dir
    else none

/-- A node under names below the working directory. -/
def add (d : Disk) (names : List String) (node : Node) : Disk :=
  { d with nodes := d.nodes ++ [(d.home ++ names, node)] }

/-- The steps of a path: its pieces between slashes. -/
def stepsOf (text : String) : List String := (Path.pieces text.toList).map String.ofList

/-- Links that may be followed on one way. -/
def mostLinks : Nat := 40

/-- Where steps lead from a node, given by its names innermost first. `links` is the number of links
that may still be followed, and `last` tells whether the last step follows one. -/
def walk (d : Disk) (last : Bool) : Nat → Nat → List String → List String →
    Except IoFailure (List String)
  | 0, _, _, _ => .error loops
  | _, _, here, [] => .ok here
  | n + 1, links, here, step :: rest =>
    match d.find? here.reverse with
    | some .dir =>
      if step.isEmpty || step = "." then d.walk last n links here rest
      else if step = ".." then d.walk last n links here.tail rest
      else if step.utf8ByteSize > 255 then .error tooLong
      else
        match d.find? ((step :: here).reverse) with
        | none => .error missing
        | some (.link target) =>
          if rest.isEmpty && !last then .ok (step :: here)
          else
            match links with
            | 0 => .error loops
            | links + 1 =>
              let start := if target.startsWith "/" then [] else here
              d.walk last n links start (stepsOf target ++ rest)
        | some _ => d.walk last n links (step :: here) rest
    | _ => .error notDirectory

/-- The names to which a path leads, innermost first. -/
def resolve (d : Disk) (path : Path) : Except IoFailure (List String) :=
  let text := path.text
  if text.isEmpty then .error missing
  else if text.contains '\x00' then .error nulInside
  else if text.utf8ByteSize > 4095 then .error tooLong
  else
    let start := if path.isAbsolute then [] else d.home.reverse
    -- Every link brings no more steps than a path can have.
    d.walk true (4096 * (mostLinks + 1)) mostLinks start (stepsOf text)

/-- The node to which a path leads, and its names, innermost first. -/
def lookUp (d : Disk) (path : Path) : Except IoFailure (Node × List String) := do
  let names ← d.resolve path
  match d.find? names.reverse with
  | some node => return (node, names)
  | none => throw missing

/-- The names directly below a directory, with what each of them is; links are not followed. -/
def childrenOf (d : Disk) (names : List String) : List (String × EntryKind) :=
  let all := (d.nodes.map (·.1) ++ [d.home]).filterMap fun other =>
    if names.isPrefixOf other then (other.drop names.length).head? else none
  (all.eraseDups).map fun name =>
    (name, if d.find? (names ++ [name]) = some .dir then .dir else .file)

/-- Read access to a file system. -/
def files (d : Disk) : Files where
  read path := do
    match ← d.lookUp path with
    | (.file (some text), _) => return text
    | (.file none, _) => throw notText
    | (.dir, _) => throw isDirectory
    | (.link _, _) => throw loops
  kind path := do
    match ← d.lookUp path with
    | (.dir, _) => return .dir
    | _ => return .file
  list path := do
    match ← d.lookUp path with
    | (.dir, names) => return d.childrenOf names.reverse
    | _ => throw notDirectory

end Disk

end ScriptHost
