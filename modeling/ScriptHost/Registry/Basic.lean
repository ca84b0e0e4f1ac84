import ScriptHost.Files
import ScriptHost.Program
import ScriptHost.Registry.Manifest
/-!
Modules and the registry that resolves them. A registry keeps a record for every module it has met;
a record is known by its index, so two handles are of the same module exactly when their indices
agree. The table leads from keys to records: a module read from a file is kept under its path, a
registered one under its name.
-/

namespace ScriptHost

/-- A module, or a directory that modules are required from. -/
structure Module where
  /-- The path of the file or directory, or the registered name. -/
  key : String
  /-- What the module was first required as. -/
  name : String
  /-- The directory that relative specifiers start from. -/
  path : Path
  /-- The file name of the entry. -/
  main : String
  body : String
  /-- The record it was required from, if any. -/
  root : Option Nat
  /-- The compiled wrapper, once there is one. -/
  program : Option Program := none
  /-- The last generation that evaluated it. -/
  evaluatedIn : Nat := 0
  deriving DecidableEq, Inhabited

namespace Module

/-- A module registered under a name. -/
def named (name body : String) (path : Option Path := none) : Module :=
  { key := name, name, path := path.getD ⟨""⟩, main := "index.js", body, root := none }

/-- A module read from a file, required from the record `root`. -/
def ofFile (name : String) (file : Path) (body : String) (root : Nat) : Module :=
  { key := file.text, name, path := file.parent.getD ⟨""⟩, main := file.fileName.getD ""
    body, root := some root }

/-- A directory with an entry file. -/
def directory (name : String) (path : Path) (main : String) (root : Option Nat) : Module :=
  { key := path.text, name, path, main, body := "", root }

/-- The text that makes a body a function of what a module may use. -/
def wrap (body : String) : String :=
  "(function(require, module, exports) \x7b\n" ++ body ++ "\n\x7d)"

end Module

/-- Records of modules and the table of the ones that can be found. -/
structure Registry where
  /-- Where top-level specifiers start. -/
  base : Path
  records : Array Module
  /-- Keys and the indices of their records. -/
  table : List (String × Nat)
  /-- The record that top-level requires start from. -/
  main : Nat
  transform : Option Transform
  /-- The serial number of the next program. -/
  serial : Nat

namespace Registry

/-- The base directory that a path names: a last component `node_modules` is dropped. -/
def baseOf (path : Path) : Path :=
  let cleaned := path.clean
  if cleaned.fileName = some "node_modules" then
    match cleaned.parent with
    | some p => if p.text.isEmpty then ⟨"."⟩ else p
    | none => ⟨"."⟩
  else cleaned

/-- A registry with nothing but the directory of packages and the main directory. -/
def new (path : Path) : Registry :=
  let base := baseOf path
  { base
    records := #[.directory "node_modules" (base.join ⟨"node_modules"⟩) "" none,
                 .directory "." base "" (some 0)]
    table := []
    main := 1
    transform := none
    serial := 0 }

/-- The record of an index. -/
def record (r : Registry) (i : Nat) : Module := r.records[i]?.getD default

/-- The index that a key leads to. -/
def find? (r : Registry) (key : String) : Option Nat := r.table.lookup key

/-- Let a key lead to a record. -/
def insert (r : Registry) (key : String) (i : Nat) : Registry :=
  { r with table := (key, i) :: r.table.filter (·.1 ≠ key) }

/-- A further record, under the next index. -/
def add (r : Registry) (m : Module) : Nat × Registry :=
  (r.records.size, { r with records := r.records.push m })

/-- Change a record. -/
def update (r : Registry) (i : Nat) (f : Module → Module) : Registry :=
  { r with records := r.records.modify i f }

/-- Register a module under its name; it starts from the base directory unless it has a path. -/
def setModule (r : Registry) (m : Module) : Registry :=
  let m := if m.path.text.isEmpty then { m with path := r.base } else m
  let (i, r) := r.add m
  r.insert m.key i

/-- The keys of all modules, in order. -/
def keys (r : Registry) : List String :=
  (r.table.map (·.1)).mergeSort (fun a b => a ≤ b)

/-- Forget which modules were evaluated. -/
def reset (r : Registry) : Registry :=
  r.table.foldl (fun r (_, i) => r.update i ({ · with evaluatedIn := 0 })) r

/-- Note that a generation has evaluated a module. -/
def markEvaluated (r : Registry) (i generation : Nat) : Registry :=
  r.update i ({ · with evaluatedIn := generation })

/-- The form a registry has in records. -/
def describe (r : Registry) : String :=
  s!"Registry \x7b base_path: {Text.quoted r.base.text}, modules: {r.table.length}, " ++
  s!"transform: {r.transform.isSome} \x7d"

/-! ## Compiling modules -/

/-- The wrapper of a module: the one it has, or else its body in the wrapper, or else what the
transform makes of the body in the wrapper. Only a wrapper that passes the check is kept. -/
def compileModule (check : Checker) (r : Registry) (i : Nat) : Except Failure Program × Registry :=
  let m := r.record i
  match m.program with
  | some p => (.ok p, r)
  | none =>
    let keep (source : String) : Except Failure Program × Registry :=
      let p : Program := ⟨m.key, source, r.serial⟩
      (.ok p, { r.update i ({ · with program := some p }) with serial := r.serial + 1 })
    match check m.key (Module.wrap m.body) with
    | .ok () => keep (Module.wrap m.body)
    | .error refusal =>
      match r.transform with
      | none => (.error refusal, r)
      | some t =>
        match t m.body with
        | .error text => (.error (.transform text), r)
        | .ok body =>
          match check m.key (Module.wrap body) with
          | .ok () => keep (Module.wrap body)
          | .error e => (.error e, r)

end Registry

end ScriptHost
