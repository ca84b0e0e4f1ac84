import ScriptHost.Registry.Resolve
/-!
What a resolve comes to. The walks of `Resolve.lean` note every use of the files; what they come to and the
registry that they leave do not depend on the uses before (`Arrives`). `request` says it without the notes: which
file a path stands for (`target`), where a package begins (`entry`), and what becomes of the table (`load`).
-/
namespace ScriptHost.Registry

/-- What a walk comes to. -/
def Lookup.outcome {α : Type} (x : Lookup α) (files : Files) (s : Session) : Except Failure α × Session :=
  (x.run files).run.run s

/-- From a registry a walk comes to a result and leaves a registry, whatever was looked at before. -/
def Arrives {α : Type} (files : Files) (r : Registry) (x : Lookup α) (result : Except Failure α) (t : Registry) : Prop :=
  ∀ uses, ∃ more, x.outcome files ⟨r,uses⟩ = (result,⟨t,more⟩)

section
variable {α β : Type} {files : Files} {r t u : Registry}

theorem Lookup.outcome_bind (x : Lookup α) (f : α → Lookup β) (files : Files) (s : Session) :
    (x >>= f).outcome files s = match x.outcome files s with
      | (.ok a,t) => (f a).outcome files t
      | (.error e,t) => (.error e,t) := by
  unfold outcome
  simp only [ReaderT.run_bind,ExceptT.run_bind,StateT.run_bind]
  show (match (x.run files).run.run s with | (r,t) => _) = _
  rcases (x.run files).run.run s with ⟨_ | a,t⟩ <;> rfl

theorem arrives_pure (a : α) : Arrives files r (pure a) (.ok a) r := fun uses => ⟨uses,rfl⟩

theorem arrives_throw (e : Failure) : Arrives files r (throw e : Lookup α) (.error e) r := fun uses => ⟨uses,rfl⟩

theorem arrives_bind {x : Lookup α} {f : α → Lookup β} {a : α} {result : Except Failure β}
    (first : Arrives files r x (.ok a) t) (rest : Arrives files t (f a) result u) : Arrives files r (x >>= f) result u := by
  intro uses
  obtain ⟨between,left⟩ := first uses
  obtain ⟨more,right⟩ := rest between
  exact ⟨more,by rw [Lookup.outcome_bind,left]; exact right⟩

theorem arrives_bind_error {x : Lookup α} {f : α → Lookup β} {e : Failure}
    (first : Arrives files r x (.error e) t) : Arrives files r (x >>= f) (.error e) t := by
  intro uses
  obtain ⟨more,left⟩ := first uses
  exact ⟨more,by rw [Lookup.outcome_bind,left]⟩

theorem arrives_readFile (path : Path) : Arrives files r (Lookup.readFile path) (.ok (files.read path)) r :=
  fun _ => ⟨_,rfl⟩

theorem arrives_entryKind (path : Path) : Arrives files r (Lookup.entryKind path) (.ok (files.kind path)) r :=
  fun _ => ⟨_,rfl⟩

theorem arrives_registry : Arrives files r Lookup.registry (.ok r) r := fun uses => ⟨uses,rfl⟩

theorem arrives_add (m : Module) : Arrives files r (Lookup.add m) (.ok r.records.size) (r.add m).2 :=
  fun uses => ⟨uses,rfl⟩

theorem arrives_insert (key : String) (i : Nat) : Arrives files r (Lookup.insert key i) (.ok ()) (r.insert key i) :=
  fun uses => ⟨uses,rfl⟩

/-! ### Paths and packages -/

/-- The file that a path without extension stands for, going by what the files say of it. -/
def target (files : Files) (path : Path) : Path :=
  if hasScriptExtension path then path
  else match files.kind path with
    | .ok .dir => path.join ⟨"index.js"⟩
    | .ok .file => path
    | .error e => if e.kind = .notFound then appendScriptExtension path else path

theorem arrives_targetFile (path : Path) : Arrives files r (targetFile path) (.ok (target files path)) r := by
  unfold targetFile target
  split
  · exact arrives_pure path
  · refine arrives_bind (arrives_entryKind path) ?_
    cases files.kind path with
    | error e => exact arrives_pure _
    | ok kind => cases kind <;> exact arrives_pure _

/-- Directory and entry file of a package or file below a record's directory, going by what the files say. -/
def entry (files : Files) (spot : Module) (specifier : String) : Except Failure (Path × String) :=
  let path := (spot.path.join ⟨specifier⟩).clean
  if hasScriptExtension path then .ok (splitFile path)
  else match files.read (path.join ⟨"package.json"⟩) with
    | .ok text =>
      match Manifest.parse text with
      | .ok manifest => .ok (path,manifest.entry)
      | .error e => .error (.manifest specifier e)
    | .error _ =>
      match files.kind path with
      | .ok .dir => .ok (path,"index.js")
      | .ok .file => .ok (splitFile path)
      | .error e =>
        if e.kind = .notFound then .ok (splitFile (appendScriptExtension path))
        else .error (.moduleNotFound specifier spot.key e)

theorem arrives_packageEntry (spot : Module) (specifier : String) :
    Arrives files r (packageEntry spot specifier) (entry files spot specifier) r := by
  simp only [packageEntry,entry]
  split
  · exact arrives_pure _
  · refine arrives_bind (arrives_readFile _) ?_
    cases files.read ((spot.path.join ⟨specifier⟩).clean.join ⟨"package.json"⟩) with
    | ok text =>
      simp only
      cases Manifest.parse text with
      | ok manifest => exact arrives_pure _
      | error e => exact arrives_throw _
    | error missing =>
      refine arrives_bind (arrives_entryKind _) ?_
      cases files.kind (spot.path.join ⟨specifier⟩).clean with
      | ok kind => cases kind <;> exact arrives_pure _
      | error e =>
        simp only
        split
        · exact arrives_pure _
        · exact arrives_throw _

/-! ### Resolving -/

/-- What becomes of a registry when a file is required from a record. -/
def load (files : Files) (r : Registry) (parent : Nat) (specifier : String) (path : Path) :
    Except Failure Nat × Registry :=
  match r.find? path.text with
  | some i => (.ok i,r)
  | none =>
    match files.read path with
    | .error e => (.error (.moduleNotFound specifier (r.record parent).key e),r)
    | .ok body =>
      (.ok r.records.size,(r.add (.ofFile specifier path body parent)).2.insert path.text r.records.size)

/-- What becomes of a registry when a relative specifier is required from a record. -/
def requestRelative (files : Files) (r : Registry) (parent : Nat) (specifier : String) :
    Except Failure Nat × Registry :=
  load files r parent specifier (target files ((r.record parent).path.join ⟨specifier⟩).clean)

theorem arrives_resolveRelative (parent : Nat) (specifier : String) :
    Arrives files r (resolveRelative parent specifier) (requestRelative files r parent specifier).1
      (requestRelative files r parent specifier).2 := by
  unfold resolveRelative requestRelative load
  refine arrives_bind arrives_registry (arrives_bind (arrives_targetFile _) (arrives_bind arrives_registry ?_))
  cases r.find? (target files ((r.record parent).path.join ⟨specifier⟩).clean).text with
  | some i => exact arrives_pure i
  | none =>
    refine arrives_bind (arrives_readFile _) ?_
    cases files.read (target files ((r.record parent).path.join ⟨specifier⟩).clean) with
    | error e => exact arrives_throw _
    | ok body => exact arrives_bind (arrives_add _) (arrives_bind (arrives_insert _ _) (arrives_pure _))

/-- The record of a package that a bare specifier names, required from the end of the chain. -/
def package (r : Registry) (parent : Nat) (specifier : String) (spot : Path × String) : Module :=
  .directory specifier spot.1 spot.2 (some (r.anchor parent))

/-- What becomes of a registry when a specifier is required from a record. -/
def request (files : Files) (r : Registry) (parent : Nat) (specifier : String) : Except Failure Nat × Registry :=
  if isRelative specifier then requestRelative files r parent specifier
  else match r.find? specifier with
    | some i => (.ok i,r)
    | none =>
      match entry files (r.record (r.anchor parent)) specifier with
      | .error e => (.error e,r)
      | .ok spot => requestRelative files (r.add (package r parent specifier spot)).2 r.records.size ("./" ++ spot.2)

theorem arrives_resolveFrom (parent : Nat) (specifier : String) :
    Arrives files r (resolveFrom parent specifier) (request files r parent specifier).1
      (request files r parent specifier).2 := by
  unfold resolveFrom request
  split
  · exact arrives_resolveRelative parent specifier
  · unfold resolveBare
    refine arrives_bind arrives_registry ?_
    cases r.find? specifier with
    | some i => exact arrives_pure i
    | none =>
      have enters : Arrives files r (packageEntry (r.record (r.anchor parent)) specifier)
          (entry files (r.record (r.anchor parent)) specifier) r := arrives_packageEntry _ _
      revert enters
      cases entry files (r.record (r.anchor parent)) specifier with
      | error e => exact arrives_bind_error
      | ok spot => exact fun enters => arrives_bind enters (arrives_bind (arrives_add _) (arrives_resolveRelative _ _))

/-- A resolve comes to what the request comes to, and leaves the registry that the request leaves. -/
theorem resolve_request (files : Files) (r : Registry) (parent : Nat) (specifier : String) :
    ∃ uses, r.resolve files parent specifier =
      ((request files r parent specifier).1,(request files r parent specifier).2,uses) := by
  have arrives : Arrives files r (resolveFrom parent specifier) (request files r parent specifier).1
      (request files r parent specifier).2 := arrives_resolveFrom parent specifier
  obtain ⟨more,ends⟩ := arrives []
  unfold Lookup.outcome at ends
  unfold resolve
  rw [ends]
  exact ⟨more.reverse,rfl⟩

end

end ScriptHost.Registry
