import ScriptHost.Proofs.Registry.Growth
/-!
A resolve step by step. The table is locked for one lookup or one entry at a time, and the files are used without the
lock, so others may come in between. `Point` is where a resolve is, and `Point.next` is what it does from there before
others may come in. A resolve that is left alone comes to what `resolve` says (`run_resolve`).
-/
namespace ScriptHost.Registry

/-- How far a resolve has come: what it will do next, or its outcome. -/
inductive Point where
  /-- Look at what a relative specifier points at. -/
  | aim (parent : Nat) (specifier : String)
  /-- Look for a file in the table. -/
  | seek (parent : Nat) (specifier : String) (file : Path)
  /-- Read a file that was not there. -/
  | fetch (parent : Nat) (specifier : String) (file : Path)
  /-- Enter what has been read, unless another one is there by now. -/
  | enter (parent : Nat) (specifier : String) (file : Path) (body : String)
  /-- Look for a bare specifier in the table. -/
  | name (parent : Nat) (specifier : String)
  /-- Read the manifest of a package below the directory of a record. -/
  | unpack (spot : Nat) (specifier : String) (path : Path)
  /-- Look at what a package without manifest is. -/
  | probe (spot : Nat) (specifier : String) (path : Path)
  /-- Go on from the directory of a package to its entry. -/
  | pack (spot : Nat) (specifier : String) (place : Path × String)
  | done (outcome : Except Failure Nat)

namespace Point

/-- Where a resolve starts. -/
def start (parent : Nat) (specifier : String) : Point :=
  if isRelative specifier then .aim parent specifier else .name parent specifier

/-- One step of a resolve: how far it has come then, the registry, and the use of the files if it made one. -/
def next (files : Files) (r : Registry) : Point → Point × Registry × Option Access
  | .aim parent specifier =>
    let path := ((r.record parent).path.join ⟨specifier⟩).clean
    (.seek parent specifier (target files path),r,if hasScriptExtension path then none else some (.kind path))
  | .seek parent specifier file =>
    match r.find? file.text with
    | some i => (.done (.ok i),r,none)
    | none => (.fetch parent specifier file,r,none)
  | .fetch parent specifier file =>
    match files.read file with
    | .ok body => (.enter parent specifier file body,r,some (.read file))
    | .error e => (.done (.error (.moduleNotFound specifier (r.record parent).key e)),r,some (.read file))
  | .enter parent specifier file body =>
    match r.find? file.text with
    | some i => (.done (.ok i),r,none)
    | none =>
      (.done (.ok r.records.size),
        (r.add (.ofFile specifier file body parent)).2.insert file.text r.records.size,none)
  | .name parent specifier =>
    match r.find? specifier with
    | some i => (.done (.ok i),r,none)
    | none =>
      let spot := r.anchor parent
      (.unpack spot specifier ((r.record spot).path.join ⟨specifier⟩).clean,r,none)
  | .unpack spot specifier path =>
    if hasScriptExtension path then (.pack spot specifier (splitFile path),r,none)
    else match files.read (path.join ⟨"package.json"⟩) with
      | .ok text =>
        match Manifest.parse text with
        | .ok manifest => (.pack spot specifier (path,manifest.entry),r,some (.read (path.join ⟨"package.json"⟩)))
        | .error e => (.done (.error (.manifest specifier e)),r,some (.read (path.join ⟨"package.json"⟩)))
      | .error _ => (.probe spot specifier path,r,some (.read (path.join ⟨"package.json"⟩)))
  | .probe spot specifier path =>
    match files.kind path with
    | .ok .dir => (.pack spot specifier (path,"index.js"),r,some (.kind path))
    | .ok .file => (.pack spot specifier (splitFile path),r,some (.kind path))
    | .error e =>
      if e.kind = .notFound then (.pack spot specifier (splitFile (appendScriptExtension path)),r,some (.kind path))
      else (.done (.error (.moduleNotFound specifier (r.record spot).key e)),r,some (.kind path))
  | .pack spot specifier place =>
    (.aim r.records.size ("./" ++ place.2),(r.add (.directory specifier place.1 place.2 (some spot))).2,none)
  | .done outcome => (.done outcome,r,none)

/-- Steps one after another, with the uses of the files noted as a walk notes them. -/
def run (files : Files) : Nat → Point × Session → Point × Session
  | 0, x => x
  | n+1, (p,s) =>
    let (q,t,use) := p.next files s.registry
    run files n (q,⟨t,use.toList ++ s.accesses⟩)

/-! ### A resolve that is left alone -/

/-- From a point a resolve that is left alone comes to an end as a walk does. -/
def Ends (files : Files) (p : Point) (s : Session) (result : Except Failure Nat × Session) : Prop :=
  ∃ n, run files n (p,s) = (.done result.1,result.2)

section
variable {files : Files} {p : Point} {s : Session} {result : Except Failure Nat × Session}

theorem ends_done (outcome : Except Failure Nat) (s : Session) : Ends files (.done outcome) s (outcome,s) := ⟨0,rfl⟩

/-- The first step and the others. -/
theorem ends_next {q : Point} (t : Registry) (use : Option Access) (step : p.next files s.registry = (q,t,use))
    (rest : Ends files q ⟨t,use.toList ++ s.accesses⟩ result) : Ends files p s result := by
  obtain ⟨n,ends⟩ := rest
  refine ⟨n+1,?_⟩
  rw [run,step]
  exact ends

/-! What the walks of a resolve come to, with the uses that they note. -/

@[simp] theorem outcome_pure {α : Type} (a : α) : (pure a : Lookup α).outcome files s = (.ok a,s) := rfl

@[simp] theorem outcome_throw {α : Type} (e : Failure) : (throw e : Lookup α).outcome files s = (.error e,s) := rfl

@[simp] theorem outcome_registry : Lookup.registry.outcome files s = (.ok s.registry,s) := rfl

@[simp] theorem outcome_readFile (path : Path) :
    (Lookup.readFile path).outcome files s = (.ok (files.read path),⟨s.registry,.read path :: s.accesses⟩) := rfl

@[simp] theorem outcome_entryKind (path : Path) :
    (Lookup.entryKind path).outcome files s = (.ok (files.kind path),⟨s.registry,.kind path :: s.accesses⟩) := rfl

@[simp] theorem outcome_add (m : Module) :
    (Lookup.add m).outcome files s = (.ok s.registry.records.size,⟨(s.registry.add m).2,s.accesses⟩) := rfl

@[simp] theorem outcome_insert (key : String) (i : Nat) :
    (Lookup.insert key i).outcome files s = (.ok (),⟨s.registry.insert key i,s.accesses⟩) := rfl

@[simp] theorem outcome_targetFile (path : Path) : (targetFile path).outcome files s =
    (.ok (target files path),
      ⟨s.registry,(if hasScriptExtension path then none else some (.kind path) : Option Access).toList ++ s.accesses⟩) := by
  unfold targetFile target
  split
  · rfl
  · rw [Lookup.outcome_bind,outcome_entryKind]
    cases files.kind path with
    | error e => rfl
    | ok kind => cases kind <;> rfl

/-- A file is looked up, and read and entered if it is not there. -/
theorem ends_aim (parent : Nat) (specifier : String) :
    Ends files (.aim parent specifier) s ((resolveRelative parent specifier).outcome files s) := by
  refine ends_next _ _ rfl ?_
  simp only [resolveRelative,Lookup.outcome_bind,outcome_registry,outcome_targetFile]
  generalize ((s.registry.record parent).path.join ⟨specifier⟩).clean = path
  generalize (if hasScriptExtension path then none else some (.kind path) : Option Access).toList ++ s.accesses = uses
  generalize target files path = file
  cases found : s.registry.find? file.text with
  | some i => exact ends_next _ _ (by simp only [next,found]; rfl) (ends_done _ _)
  | none =>
    refine ends_next s.registry none (by simp only [next,found]; rfl) ?_
    simp only [Lookup.outcome_bind,outcome_readFile]
    cases read : files.read file with
    | error e => exact ends_next _ _ (by simp only [next,read]; rfl) (ends_done _ _)
    | ok body =>
      refine ends_next s.registry (some (.read file)) (by simp only [next,read]; rfl) ?_
      refine ends_next _ _ (by simp only [next,found]; rfl) (ends_done _ _)

/-- The entry of a package is found out, and loaded from a record of the package. -/
theorem ends_pack (spot : Nat) (specifier : String) (place : Path × String) :
    Ends files (.pack spot specifier place) s
      ((Lookup.add (.directory specifier place.1 place.2 (some spot)) >>= fun package =>
        resolveRelative package ("./" ++ place.2)).outcome files s) := by
  rw [Lookup.outcome_bind,outcome_add]
  exact ends_next _ _ rfl (ends_aim _ _)

theorem ends_unpack {spot : Nat} {specifier : String} {path : Path}
    (same : ((s.registry.record spot).path.join ⟨specifier⟩).clean = path) :
    Ends files (.unpack spot specifier path) s
      ((packageEntry (s.registry.record spot) specifier >>= fun place =>
        Lookup.add (.directory specifier place.1 place.2 (some spot)) >>= fun package =>
          resolveRelative package ("./" ++ place.2)).outcome files s) := by
  rw [Lookup.outcome_bind]
  simp only [packageEntry,same]
  by_cases script : hasScriptExtension path = true
  · refine ends_next s.registry none (by simp only [next,if_pos script]; rfl) ?_
    rw [if_pos script]
    exact ends_pack spot specifier _
  · have plain : ∀ {α : Type} (a b : α), (if hasScriptExtension path then a else b) = b := fun a b => if_neg script
    rw [plain,Lookup.outcome_bind,outcome_readFile]
    cases read : files.read (path.join ⟨"package.json"⟩) with
    | ok text =>
      simp only
      cases manifest : Manifest.parse text with
      | ok entry =>
        refine ends_next s.registry (some _) (by simp only [next,plain,read,manifest]; rfl) ?_
        exact ends_pack spot specifier _
      | error e => exact ends_next _ _ (by simp only [next,plain,read,manifest]; rfl) (ends_done _ _)
    | error missing =>
      refine ends_next s.registry (some _) (by simp only [next,plain,read]; rfl) ?_
      simp only
      rw [Lookup.outcome_bind,outcome_entryKind]
      cases kind : files.kind path with
      | ok is =>
        cases is with
        | dir =>
          refine ends_next s.registry (some _) (by simp only [next,kind]; rfl) ?_
          exact ends_pack spot specifier _
        | file =>
          refine ends_next s.registry (some _) (by simp only [next,kind]; rfl) ?_
          exact ends_pack spot specifier _
      | error e =>
        by_cases gone : e.kind = .notFound
        · refine ends_next s.registry (some _) (by simp only [next,kind,if_pos gone]; rfl) ?_
          simp only [if_pos gone]
          exact ends_pack spot specifier _
        · simp only [if_neg gone]
          exact ends_next _ _ (by simp only [next,kind,if_neg gone]; rfl) (ends_done _ _)

theorem ends_name (parent : Nat) (specifier : String) :
    Ends files (.name parent specifier) s ((resolveBare parent specifier).outcome files s) := by
  simp only [resolveBare,Lookup.outcome_bind,outcome_registry]
  cases found : s.registry.find? specifier with
  | some i => exact ends_next _ _ (by simp only [next,found]; rfl) (ends_done _ _)
  | none =>
    refine ends_next s.registry none (by simp only [next,found]; rfl) ?_
    have unpacked : Ends files (.unpack (s.registry.anchor parent) specifier _) s _ := ends_unpack rfl
    simp only [Lookup.outcome_bind] at unpacked ⊢
    exact unpacked

/-- A resolve that is left alone ends as `resolve` says, with the registry and the uses of the files that it says. -/
theorem run_resolve (files : Files) (r : Registry) (parent : Nat) (specifier : String) :
    ∃ n, run files n (start parent specifier,⟨r,[]⟩) =
      (.done (r.resolve files parent specifier).1,
        ⟨(r.resolve files parent specifier).2.1,(r.resolve files parent specifier).2.2.reverse⟩) := by
  have ends : Ends files (start parent specifier) ⟨r,[]⟩ ((resolveFrom parent specifier).outcome files ⟨r,[]⟩) := by
    unfold start resolveFrom
    split
    · exact ends_aim parent specifier
    · exact ends_name parent specifier
  obtain ⟨n,ends⟩ := ends
  have same : r.resolve files parent specifier = (((resolveFrom parent specifier).outcome files ⟨r,[]⟩).1,
      ((resolveFrom parent specifier).outcome files ⟨r,[]⟩).2.registry,
      ((resolveFrom parent specifier).outcome files ⟨r,[]⟩).2.accesses.reverse) := rfl
  refine ⟨n,?_⟩
  rw [ends,same,List.reverse_reverse]

end

/-! ### What a step does -/

/-- On the way to a file, the package being known or none being asked for. -/
def Plain : Point → Prop
  | .aim .. | .seek .. | .fetch .. | .enter .. | .done _ => True
  | .name .. | .unpack .. | .probe .. | .pack .. => False

theorem start_cases (parent : Nat) (specifier : String) :
    start parent specifier = .aim parent specifier ∨ start parent specifier = .name parent specifier := by
  unfold start
  split
  · exact .inl rfl
  · exact .inr rfl

theorem plain_start {parent : Nat} {specifier : String} (relative : isRelative specifier = true) :
    (start parent specifier).Plain := by
  rw [start,if_pos relative]
  trivial

/-- What a step can be: where it leads, the registry after it, and the use of the files. -/
inductive Step (files : Files) (r : Registry) : Point → Point × Registry × Option Access → Prop where
  | aimed {parent : Nat} {specifier : String} {file : Path} {use : Option Access} (apart : ∀ p, use ≠ some (.read p)) :
    Step files r (.aim parent specifier) (.seek parent specifier file,r,use)
  | missed {parent : Nat} {specifier : String} {file : Path} (new : r.find? file.text = none) :
    Step files r (.seek parent specifier file) (.fetch parent specifier file,r,none)
  | fetched {parent : Nat} {specifier : String} {file : Path} {body : String} (read : files.read file = .ok body) :
    Step files r (.fetch parent specifier file) (.enter parent specifier file body,r,some (.read file))
  | unreadable {parent : Nat} {specifier : String} {file : Path} (e : Failure) :
    Step files r (.fetch parent specifier file) (.done (.error e),r,some (.read file))
  | entered {parent : Nat} {specifier : String} {file : Path} {body : String} (new : r.find? file.text = none) :
    Step files r (.enter parent specifier file body) (.done (.ok r.records.size),
      (r.add (.ofFile specifier file body parent)).2.insert file.text r.records.size,none)
  | hit {p : Point} {key : String} {i : Nat} (found : r.find? key = some i) : Step files r p (.done (.ok i),r,none)
  | sought {p q : Point} {use : Option Access} (before : ¬ p.Plain) (after : ¬ q.Plain) : Step files r p (q,r,use)
  | failed {p : Point} {use : Option Access} (before : ¬ p.Plain) (e : Failure) : Step files r p (.done (.error e),r,use)
  | packed {spot : Nat} {specifier : String} {place : Path × String} {entry : String} :
    Step files r (.pack spot specifier place)
      (.aim r.records.size entry,(r.add (.directory specifier place.1 place.2 (some spot))).2,none)
  | stayed {outcome : Except Failure Nat} : Step files r (.done outcome) (.done outcome,r,none)

theorem step_next (files : Files) (r : Registry) (p : Point) : Step files r p (p.next files r) := by
  cases p with
  | aim parent specifier =>
    refine .aimed fun path => ?_
    split <;> exact nofun
  | seek parent specifier file =>
    simp only [next]
    split
    · next found => exact .hit found
    · next new => exact .missed new
  | fetch parent specifier file =>
    simp only [next]
    split
    · next read => exact .fetched read
    · exact .unreadable _
  | enter parent specifier file body =>
    simp only [next]
    split
    · next found => exact .hit found
    · next new => exact .entered new
  | name parent specifier =>
    simp only [next]
    split
    · next found => exact .hit found
    · exact .sought id id
  | unpack spot specifier path =>
    simp only [next]
    split
    · exact .sought id id
    · split
      · split
        · exact .sought id id
        · exact .failed id _
      · exact .sought id id
  | probe spot specifier path =>
    simp only [next]
    split
    · exact .sought id id
    · exact .sought id id
    · split
      · exact .sought id id
      · exact .failed id _
  | pack spot specifier place => exact .packed
  | done outcome => exact .stayed

namespace Step
variable {files : Files} {r : Registry} {p : Point} {after : Point × Registry × Option Access}

theorem plain (step : Step files r p after) (plain : p.Plain) : after.1.Plain := by
  cases step with
  | sought before after => exact absurd plain before
  | _ => trivial

theorem grows (step : Step files r p after) : Grows r after.2.1 := by
  cases step with
  | @entered parent specifier file body new => exact .insert (m := .ofFile specifier file body parent) rfl new
  | packed => exact .add r rfl
  | _ => exact .refl r

/-- A key that a step brings is that of a file that has been read. -/
theorem entered_of_find (step : Step files r p after) {key : String} {i : Nat} (found : after.2.1.find? key = some i) :
    r.find? key = some i ∨ ∃ parent specifier, p = .enter parent specifier ⟨key⟩ (after.2.1.record i).body := by
  cases step with
  | @entered parent specifier file body new =>
    rw [find_insert] at found
    split at found
    · next same =>
      cases found
      cases same
      rw [record_insert,record_add]
      exact .inr ⟨parent,specifier,rfl⟩
    · exact .inl found
  | _ => exact .inl found

/-- A step that ends a resolve ends it with a record to which its key leads. -/
theorem find_of_done (step : Step files r p after) (sound : Sound r) {i : Nat} (ends : after.1 = .done (.ok i)) :
    p = .done (.ok i) ∨ after.2.1.find? (after.2.1.record i).key = some i := by
  cases step with
  | @entered parent specifier file body new =>
    cases ends
    right
    rw [record_insert,record_add,find_insert]
    exact if_pos rfl
  | hit found =>
    cases ends
    right
    rw [(sound _ _ found).2,found]
  | stayed => exact .inl ends
  | sought before after =>
    simp only at ends
    rw [ends] at after
    exact absurd trivial after
  | _ => cases ends

/-- What is to be entered has just been read. -/
theorem read_of_enter (step : Step files r p after) {parent : Nat} {specifier : String} {file : Path} {body : String}
    (enters : after.1 = .enter parent specifier file body) :
    after.2.2 = some (.read file) ∧ files.read file = .ok body := by
  cases step with
  | fetched read =>
    cases enters
    exact ⟨rfl,read⟩
  | sought before after =>
    simp only at enters
    rw [enters] at after
    exact absurd trivial after
  | _ => cases enters

/-- A file that is to be read is not in the table. -/
theorem new_of_fetch (step : Step files r p after) {parent : Nat} {specifier : String} {file : Path}
    (fetches : after.1 = .fetch parent specifier file) : after.2.1.find? file.text = none := by
  cases step with
  | missed new =>
    cases fetches
    exact new
  | sought before after =>
    simp only at fetches
    rw [fetches] at after
    exact absurd trivial after
  | _ => cases fetches

/-- On the way to a file only that file is read. -/
theorem fetch_of_read (step : Step files r p after) (plain : p.Plain) {file : Path}
    (read : after.2.2 = some (.read file)) : ∃ parent specifier, p = .fetch parent specifier file := by
  cases step with
  | aimed apart => exact absurd read (apart file)
  | fetched body =>
    cases read
    exact ⟨_,_,rfl⟩
  | unreadable e =>
    cases read
    exact ⟨_,_,rfl⟩
  | sought before after => exact absurd plain before
  | failed before e => exact absurd plain before
  | _ => cases read

end Step

end Point

end ScriptHost.Registry
