import ScriptHost.Proofs.Registry.Growth
/-!
What a failure to find a module names. A specifier that leads to no readable file fails where its file is asked for: a
relative one at the requiring module, a bare one at the record of the package that was made for it, with the entry of
that package in place of the specifier (`Unfound`). So a relative request is named as it was made. A bare one is named
by what was made of it, unless the files refuse to say what the place of the package is: then the specifier is kept, and
the end of the chain of requiring records stands for the requiring module (`unfound_names`).
-/
namespace ScriptHost.Registry

/-- The place below the end of the chain of requiring records where a bare specifier looks for a package. -/
def packagePlace (r : Registry) (parent : Nat) (specifier : String) : Path :=
  ((r.record (r.anchor parent)).path.join ⟨specifier⟩).clean

/-- The ways in which a specifier that is required from a record leads to no file, with the specifier and the requester
that the failure names. -/
inductive Unfound (files : Files) (r : Registry) (parent : Nat) (specifier : String) :
    String → String → IoFailure → Prop where
  /-- The file that a relative specifier stands for cannot be read. -/
  | relative {cause : IoFailure} (relative : isRelative specifier = true)
    (unknown : r.find? (target files ((r.record parent).path.join ⟨specifier⟩).clean).text = none)
    (unread : files.read (target files ((r.record parent).path.join ⟨specifier⟩).clean) = .error cause) :
    Unfound files r parent specifier specifier (r.record parent).key cause
  /-- There is no manifest, and the files refuse to say what the place of the package is. -/
  | refused {cause missing : IoFailure} (bare : isRelative specifier = false) (unregistered : r.find? specifier = none)
    (plain : hasScriptExtension (packagePlace r parent specifier) = false)
    (manifestless : files.read ((packagePlace r parent specifier).join ⟨"package.json"⟩) = .error missing)
    (refusal : files.kind (packagePlace r parent specifier) = .error cause) (other : cause.kind ≠ .notFound) :
    Unfound files r parent specifier specifier (r.record (r.anchor parent)).key cause
  /-- The entry of the package cannot be read. -/
  | entry {directory : Path} {main : String} {cause : IoFailure} (bare : isRelative specifier = false)
    (unregistered : r.find? specifier = none)
    (begins : entry files (r.record (r.anchor parent)) specifier = .ok (directory,main))
    (unknown : r.find? (target files (directory.join ⟨"./" ++ main⟩).clean).text = none)
    (unread : files.read (target files (directory.join ⟨"./" ++ main⟩).clean) = .error cause) :
    Unfound files r parent specifier ("./" ++ main) directory.text cause

section
variable {files : Files} {r : Registry} {parent : Nat} {specifier named requester : String} {cause : IoFailure}

theorem isRelative_dotted (rest : String) : isRelative ("./" ++ rest) = true := by
  simp [isRelative,String.startsWith_string_iff]

/-- A load fails just if its file is unknown and cannot be read, and then it names what it was asked. -/
theorem load_unfound_iff {path : Path} :
    (load files r parent specifier path).1 = .error (.moduleNotFound named requester cause) ↔
      (r.find? path.text = none ∧ files.read path = .error cause) ∧
        named = specifier ∧ requester = (r.record parent).key := by
  unfold load
  cases r.find? path.text with
  | some i => simp
  | none =>
    cases files.read path with
    | ok body => simp
    | error e =>
      simp only [Except.error.injEq,Failure.moduleNotFound.injEq,true_and]
      constructor
      · rintro ⟨rfl,rfl,rfl⟩
        exact ⟨rfl,rfl,rfl⟩
      · rintro ⟨rfl,rfl,rfl⟩
        exact ⟨rfl,rfl,rfl⟩

/-- The place of a package is not found just if there is no manifest and the files refuse to say what it is. -/
theorem entry_unfound_iff {spot : Module} :
    entry files spot specifier = .error (.moduleNotFound named requester cause) ↔
      (hasScriptExtension (spot.path.join ⟨specifier⟩).clean = false ∧
        (∃ missing, files.read ((spot.path.join ⟨specifier⟩).clean.join ⟨"package.json"⟩) = .error missing) ∧
        files.kind (spot.path.join ⟨specifier⟩).clean = .error cause ∧ cause.kind ≠ .notFound) ∧
      named = specifier ∧ requester = spot.key := by
  simp only [entry]
  cases hasScriptExtension (spot.path.join ⟨specifier⟩).clean with
  | true => simp
  | false =>
    cases files.read ((spot.path.join ⟨specifier⟩).clean.join ⟨"package.json"⟩) with
    | ok text => cases parsed : Manifest.parse text <;> simp [parsed]
    | error missing =>
      cases files.kind (spot.path.join ⟨specifier⟩).clean with
      | ok kind => cases kind <;> simp
      | error e =>
        by_cases gone : e.kind = .notFound
        · simp only [Bool.false_eq_true,if_false,gone,if_true,reduceCtorEq,false_iff]
          rintro ⟨⟨-,-,same,other⟩,-⟩
          cases same
          exact other gone
        · simp only [Bool.false_eq_true,if_false,gone,Except.error.injEq,Failure.moduleNotFound.injEq,true_and]
          constructor
          · rintro ⟨rfl,rfl,rfl⟩
            exact ⟨⟨⟨missing,rfl⟩,rfl,gone⟩,rfl,rfl⟩
          · rintro ⟨⟨-,rfl,-⟩,rfl,rfl⟩
            exact ⟨rfl,rfl,rfl⟩

/-- A request fails for want of a module in one of the three ways. -/
theorem request_unfound_iff :
    (request files r parent specifier).1 = .error (.moduleNotFound named requester cause) ↔
      Unfound files r parent specifier named requester cause := by
  unfold request requestRelative
  cases relative : isRelative specifier with
  | true =>
    rw [if_pos rfl,load_unfound_iff]
    constructor
    · rintro ⟨⟨unknown,unread⟩,rfl,rfl⟩
      exact .relative relative unknown unread
    · intro unfound
      cases unfound with
      | relative _ unknown unread => exact ⟨⟨unknown,unread⟩,rfl,rfl⟩
      | refused bare => cases relative.symm.trans bare
      | entry bare => cases relative.symm.trans bare
  | false =>
    rw [if_neg Bool.false_ne_true]
    cases unregistered : r.find? specifier with
    | some i =>
      constructor
      · exact nofun
      · intro unfound
        cases unfound with
        | relative dotted => cases relative.symm.trans dotted
        | refused _ free => cases unregistered.symm.trans free
        | entry _ free => cases unregistered.symm.trans free
    | none =>
      cases begins : Registry.entry files (r.record (r.anchor parent)) specifier with
      | error e =>
        constructor
        · intro failed
          cases failed
          obtain ⟨⟨plain,⟨missing,manifestless⟩,refusal,other⟩,rfl,rfl⟩ := entry_unfound_iff.mp begins
          exact .refused relative unregistered plain manifestless refusal other
        · intro unfound
          cases unfound with
          | relative dotted => cases relative.symm.trans dotted
          | refused _ _ plain manifestless refusal other =>
            cases begins.symm.trans (entry_unfound_iff.mpr ⟨⟨plain,⟨_,manifestless⟩,refusal,other⟩,rfl,rfl⟩)
            rfl
          | entry _ _ found => cases begins.symm.trans found
      | ok spot =>
        obtain ⟨directory,main⟩ := spot
        -- The record of the package asks for the entry.
        have asks : (r.add (package r parent specifier (directory,main))).2.record r.records.size =
            package r parent specifier (directory,main) := record_add r _
        show (load files _ r.records.size _ _).1 = _ ↔ _
        rw [load_unfound_iff,asks]
        constructor
        · rintro ⟨⟨unknown,unread⟩,rfl,rfl⟩
          exact .entry relative unregistered begins unknown unread
        · intro unfound
          cases unfound with
          | relative dotted => cases relative.symm.trans dotted
          | refused _ _ plain manifestless refusal other =>
            cases begins.symm.trans (entry_unfound_iff.mpr ⟨⟨plain,⟨_,manifestless⟩,refusal,other⟩,rfl,rfl⟩)
          | entry _ _ found unknown unread =>
            cases begins.symm.trans found
            exact ⟨⟨unknown,unread⟩,rfl,rfl⟩

/-- A resolve fails for want of a module in one of three ways. A relative request is named as it was made, and a bare one
just if the files refused to say what the place of the package is and the end of the chain has the requester's key. -/
theorem unfound_names (files : Files) (r : Registry) (parent : Nat) (specifier named requester : String)
    (cause : IoFailure) :
    ((r.resolve files parent specifier).1 = .error (.moduleNotFound named requester cause) ↔
      Unfound files r parent specifier named requester cause) ∧
    (Unfound files r parent specifier named requester cause →
      ((named = specifier ∧ requester = (r.record parent).key) ↔
        isRelative specifier = true ∨
          named = specifier ∧ (r.record (r.anchor parent)).key = (r.record parent).key)) := by
  obtain ⟨uses,resolved⟩ := resolve_request files r parent specifier
  rw [resolved]
  refine ⟨request_unfound_iff,fun unfound => ?_⟩
  cases unfound with
  | relative relative => exact ⟨fun _ => .inl relative,fun _ => ⟨rfl,rfl⟩⟩
  | refused bare => simp [bare]
  | @entry directory main _ bare =>
    -- What is asked of the package is a relative specifier, so it is not the one that was given.
    have apart : "./" ++ main ≠ specifier := fun same => by
      cases (isRelative_dotted main).symm.trans (same ▸ bare)
    simp [bare,apart]

end

/-- The failure that an outcome is, if it is one. -/
def failure? {α : Type} : Except Failure α → Option Failure
  | .error e => some e
  | .ok _ => none

theorem eq_error_of_failure {α : Type} {outcome : Except Failure α} {e : Failure} (failed : failure? outcome = some e) :
    outcome = .error e := by
  cases outcome with
  | ok a => cases failed
  | error e' => exact congrArg Except.error (Option.some.inj failed)

/-- A directory of packages with one that nobody may look at. -/
def guarded : Files := Tree.files ⟨[(⟨"/app/node_modules/x"⟩,⟨.error .permissionDenied,.error .permissionDenied⟩)]⟩

/-- A relative request is named as it was made. The package that may not be looked at is required from the main
directory, and the failure names the directory of packages. -/
theorem unfound_names_guarded :
    ((Registry.new ⟨"/app"⟩).resolve guarded 1 "./nope").1 =
        .error (.moduleNotFound "./nope" "/app" { kind := .notFound }) ∧
      ((Registry.new ⟨"/app"⟩).resolve guarded 1 "x").1 =
        .error (.moduleNotFound "x" "/app/node_modules" { kind := .permissionDenied }) ∧
      "/app/node_modules" ≠ ((Registry.new ⟨"/app"⟩).record 1).key := by
  have relative : ((Registry.new ⟨"/app"⟩).resolve guarded 1 "./nope").1 =
      .error (.moduleNotFound "./nope" "/app" { kind := .notFound }) := eq_error_of_failure (by decide +kernel)
  have bare : ((Registry.new ⟨"/app"⟩).resolve guarded 1 "x").1 =
      .error (.moduleNotFound "x" "/app/node_modules" { kind := .permissionDenied }) :=
    eq_error_of_failure (by decide +kernel)
  have names := unfound_names guarded (.new ⟨"/app"⟩) 1 "x" "x" "/app/node_modules" { kind := .permissionDenied }
  refine ⟨relative,bare,fun same => ?_⟩
  have kept := (names.2 (names.1.mp bare)).mp ⟨rfl,same⟩
  revert kept
  decide +kernel

/-- A package that is not there is reported as its script, required from the directory of packages. -/
theorem missing_package_renamed :
    ((Registry.new ⟨"/app"⟩).resolve .none 1 "nope").1 =
        .error (.moduleNotFound "./nope.js" "/app/node_modules" { kind := .notFound }) ∧
      ((Registry.new ⟨"/app"⟩).record 1).key = "/app" :=
  ⟨eq_error_of_failure (by decide +kernel),by decide +kernel⟩

end ScriptHost.Registry

