import ScriptHost.Proofs.Path.Normal
import ScriptHost.Proofs.Registry.Origin
/-!
The keys of files. A relative specifier is cleaned before its target is known, and the target is the clean path, the
path of the index in it, or the path with the ending of scripts. All of these are in normal form but for one: the
index of the current directory is spelled `./index.js` (`normal_target`). So two modules stand for the same clean path
only if one of them has that key (`identified_iff`), which takes a relative base path (`Absolute`).
-/
namespace ScriptHost.Registry
open ScriptHost.Path (IsName)

/-! ### The files for which paths stand -/

theorem isName_script {s : String} (slashless : '/' ∉ s.toList) : IsName (s ++ ".js") := by
  have long : 3 ≤ (s ++ ".js").toList.length := by
    rw [String.toList_append,List.length_append]
    exact Nat.le_add_left 3 _
  have apart : ∀ t : String, t.toList.length < 3 → s ++ ".js" ≠ t := by
    rintro t short rfl
    omega
  refine ⟨?_,apart "" (by decide),apart "." (by decide),apart ".." (by decide)⟩
  rw [String.toList_append,List.mem_append]
  exact not_or.mpr ⟨slashless,by decide⟩

theorem isName_index : IsName "index.js" := ⟨by decide,by decide,by decide,by decide⟩

theorem normal_script {p : Path} (normal : p.Normal) : (appendScriptExtension p).Normal := by
  obtain ⟨spot,proper,rfl⟩ := (Path.normal_iff p).mp normal
  exact proper.normal_append fun s => isName_script

/-- The index of a directory has a normal path, unless the directory is the current one. -/
theorem normal_index {p : Path} (normal : p.Normal) : (p.join ⟨"index.js"⟩).Normal ∨ p = ⟨"."⟩ := by
  obtain ⟨spot,proper,rfl⟩ := (Path.normal_iff p).mp normal
  by_cases away : spot.rooted = true ∨ spot.steps ≠ []
  · rw [proper.join_name isName_index away]
    exact .inl (proper.step fun s same => by cases same; exact isName_index).normal
  · obtain ⟨relative,start⟩ := not_or.mp away
    right
    simp [Path.Place.path,relative,Classical.not_not.mp start]

variable {files : Files} {path : Path} {returned : List Nat} {r t : Registry}

/-- The file for which a normal path stands has a normal path, unless it is the index of the current directory. -/
theorem normal_target {p : Path} (normal : p.Normal) : (target files p).Normal ∨
    target files p = ⟨"./index.js"⟩ ∧ files.kind ⟨"."⟩ = .ok .dir := by
  unfold target
  split
  · exact .inl normal
  · split
    · next kind =>
      rcases normal_index normal with index | rfl
      · exact .inl index
      · exact .inr ⟨by decide,kind⟩
    · exact .inl normal
    · split
      · exact .inl (normal_script normal)
      · exact .inl normal

/-- A key that a request brings is the path of a file for which a clean path stands. -/
theorem key_of_request (parent : Nat) (specifier : String) {key : String} {i : Nat}
    (found : (request files r parent specifier).2.find? key = some i) :
    r.find? key = some i ∨ ∃ p : Path, key = (target files p.clean).text := by
  have loaded : ∀ (s : Registry) (parent : Nat) (specifier : String) (p : Path),
      (load files s parent specifier (target files p.clean)).2.find? key = some i →
        s.find? key = some i ∨ ∃ p : Path, key = (target files p.clean).text := by
    intro s parent specifier p found
    unfold load at found
    split at found
    · exact .inl found
    · split at found
      · exact .inl found
      · rw [find_insert] at found
        split at found
        · next same => exact .inr ⟨p,same⟩
        · exact .inl found
  unfold request requestRelative at found
  split at found
  · exact loaded r parent specifier _ found
  · split at found
    · exact .inl found
    · split at found
      · exact .inl found
      · next spot _ =>
        -- No key leads to the record of the package.
        have more : (r.add (package r parent specifier spot)).2.find? key = some i ∨ _ := loaded _ _ _ _ found
        exact more

/-- The keys of a registry on which there were only resolves are normal, but for the index of the current directory. -/
theorem Met.normal_keys (met : Met files path returned r) {key : String} {i : Nat} (found : r.find? key = some i) :
    (⟨key⟩ : Path).Normal ∨ key = "./index.js" ∧ files.kind ⟨"."⟩ = .ok .dir := by
  induction met generalizing key i with
  | new => cases found
  | resolve parent specifier before known keys =>
    obtain ⟨uses,resolved⟩ := resolve_request files _ parent specifier
    rw [resolved] at found
    rcases key_of_request parent specifier found with old | ⟨p,rfl⟩
    · exact keys old
    · have aimed : (target files p.clean).Normal ∨ _ := normal_target p.normal_clean
      rcases aimed with normal | ⟨index,kind⟩
      · exact .inl normal
      · exact .inr ⟨congrArg Path.text index,kind⟩

/-! ### Absolute base paths -/

theorem ne_root_of_script {p : Path} (script : hasScriptExtension p = true) : p ≠ ⟨"/"⟩ := by
  rintro rfl
  exact absurd script (by decide)

theorem ne_root_of_length {p : Path} (long : 2 ≤ p.text.toList.length) : p ≠ ⟨"/"⟩ := by
  rintro rfl
  exact absurd long (by decide)

theorem ne_root_append (p : Path) : appendScriptExtension p ≠ ⟨"/"⟩ := by
  refine ne_root_of_length ?_
  rw [appendScriptExtension,String.toList_append,List.length_append]
  exact Nat.le_trans (by decide) (Nat.le_add_left 3 _)

theorem ne_root_index (p : Path) : p.join ⟨"index.js"⟩ ≠ ⟨"/"⟩ := by
  refine ne_root_of_length ?_
  have relative : (⟨"index.js"⟩ : Path).isAbsolute = false := by decide
  rw [Path.join,relative,if_neg Bool.false_ne_true,String.toList_append,List.length_append]
  exact Nat.le_trans (by decide) (Nat.le_add_left 8 _)

/-- The directory of a file is absolute if the path of the file is. -/
theorem isAbsolute_directory {p : Path} (normal : p.Normal) (absolute : p.isAbsolute = true) (apart : p ≠ ⟨"/"⟩) :
    (p.parent.getD ⟨""⟩).isAbsolute = true := by
  obtain ⟨s,named⟩ := Path.named_of_normal normal absolute apart
  obtain ⟨q,parent⟩ := Option.ne_none_iff_exists'.mp (Path.parent_ne_none named)
  rw [parent]
  exact Path.isAbsolute_parent absolute parent

theorem isAbsolute_target {p : Path} (absolute : p.isAbsolute = true) : (target files p).isAbsolute = true := by
  unfold target
  split
  · exact absolute
  · split
    · exact Path.isAbsolute_join absolute _
    · exact absolute
    · split
      · exact Path.isAbsolute_append absolute _
      · exact absolute

/-- A path stands for the root only where the root is a file or it is not clear what it is. -/
theorem root_of_target {p : Path} (same : target files p = ⟨"/"⟩) :
    files.kind ⟨"/"⟩ = .ok .file ∨ ∃ e, files.kind ⟨"/"⟩ = .error e ∧ e.kind ≠ .notFound := by
  unfold target at same
  split at same
  · next script => exact absurd same (ne_root_of_script script)
  · split at same
    · exact absurd same (ne_root_index p)
    · next kind => exact .inl (same ▸ kind)
    · next e kind =>
      split at same
      · exact absurd same (ne_root_append p)
      · next unclear => exact .inr ⟨e,same ▸ kind,unclear⟩

theorem target_ne_root (root : files.kind ⟨"/"⟩ = .ok .dir) (p : Path) : target files p ≠ ⟨"/"⟩ := by
  intro same
  rcases root_of_target same with kind | ⟨e,kind,-⟩ <;> simp [root] at kind

/-- The root is no file, and no path stands for it that can be read. -/
structure Rooted (files : Files) : Prop where
  kind : files.kind ⟨"/"⟩ ≠ .ok .file
  apart : ∀ p body, files.read (target files p) = .ok body → target files p ≠ ⟨"/"⟩

theorem rooted_of_directory (root : files.kind ⟨"/"⟩ = .ok .dir) : Rooted files :=
  ⟨by simp [root],fun p _ _ => target_ne_root root p⟩

theorem isAbsolute_entry (root : files.kind ⟨"/"⟩ ≠ .ok .file) {spot : Module} {specifier : String} {place : Path × String}
    (absolute : spot.path.isAbsolute = true) (entered : entry files spot specifier = .ok place) :
    place.1.isAbsolute = true := by
  have clean : (spot.path.join ⟨specifier⟩).clean.isAbsolute = true :=
    Path.isAbsolute_clean (Path.isAbsolute_join absolute _)
  have normal := Path.normal_clean (spot.path.join ⟨specifier⟩)
  unfold entry at entered
  generalize (spot.path.join ⟨specifier⟩).clean = p at entered clean normal
  by_cases script : hasScriptExtension p = true
  · rw [if_pos script] at entered
    cases entered
    exact isAbsolute_directory normal clean (ne_root_of_script script)
  · rw [if_neg script] at entered
    cases manifest : files.read (p.join ⟨"package.json"⟩) with
    | ok text =>
      rw [manifest] at entered
      simp only at entered
      split at entered
      · cases entered
        exact clean
      · cases entered
    | error missing =>
      rw [manifest] at entered
      simp only at entered
      cases kind : files.kind p with
      | ok is =>
        rw [kind] at entered
        cases is with
        | dir =>
          cases entered
          exact clean
        | file =>
          cases entered
          exact isAbsolute_directory normal clean fun same => root (same ▸ kind)
      | error e =>
        rw [kind] at entered
        simp only at entered
        split at entered
        · cases entered
          exact isAbsolute_directory (normal_script normal) (Path.isAbsolute_append clean _) (ne_root_append _)
        · cases entered

/-- All directories and all keys are absolute. -/
structure Absolute (r : Registry) : Prop where
  directories : ∀ i < r.records.size, (r.record i).path.isAbsolute = true
  keys : ∀ key i, r.find? key = some i → (⟨key⟩ : Path).isAbsolute = true

namespace Absolute

theorem isAbsolute_baseOf {p : Path} (absolute : p.isAbsolute = true) : (baseOf p).isAbsolute = true := by
  have clean := Path.isAbsolute_clean absolute
  unfold baseOf
  simp only
  split
  · next packages =>
    have named : .name "node_modules" ∈ p.clean.components := by
      unfold Path.fileName at packages
      split at packages
      · next last =>
        cases packages
        exact List.mem_of_getLast? last
      · cases packages
    obtain ⟨q,parent⟩ := Option.ne_none_iff_exists'.mp (Path.parent_ne_none named)
    obtain ⟨rest,spelled⟩ := (Path.isAbsolute_iff q).mp (Path.isAbsolute_parent clean parent)
    have filled : ¬ q.text.isEmpty = true := by
      rw [String.isEmpty_iff,← String.toList_eq_nil_iff,spelled]
      exact List.cons_ne_nil _ _
    rw [parent]
    simp only [if_neg filled]
    exact Path.isAbsolute_parent clean parent
  · exact clean

theorem new (absolute : path.isAbsolute = true) : Absolute (.new path) where
  directories i old := by
    have base := isAbsolute_baseOf absolute
    rcases i with _ | _ | i
    · rw [(Planted.new path).packages.2]
      exact Path.isAbsolute_join base _
    · exact base
    · exact absurd old (Nat.not_lt.mpr (Nat.le_add_left 2 i))
  keys key i found := by cases found

theorem add (all : Absolute r) {m : Module} (absolute : m.path.isAbsolute = true) : Absolute (r.add m).2 where
  directories i old := by
    have old : i < r.records.size+1 := by simpa [Registry.add] using old
    rcases Nat.lt_succ_iff_lt_or_eq.mp old with before | rfl
    · rw [record_add_of_lt before]
      exact all.directories i before
    · rwa [record_add]
  keys := all.keys

theorem insert (all : Absolute r) {key : String} (i : Nat) (absolute : (⟨key⟩ : Path).isAbsolute = true) :
    Absolute (r.insert key i) where
  directories := all.directories
  keys k j found := by
    rw [find_insert] at found
    split at found
    · next same => exact same ▸ absolute
    · exact all.keys k j found

theorem load (all : Absolute r) (parent : Nat) (specifier : String) {file : Path}
    (absolute : file.isAbsolute = true)
    (directory : ∀ body, files.read file = .ok body → (file.parent.getD ⟨""⟩).isAbsolute = true) :
    Absolute (load files r parent specifier file).2 := by
  unfold Registry.load
  split
  · exact all
  · split
    · exact all
    · next body reads =>
      have added : Absolute (r.add (.ofFile specifier file body parent)).2 := all.add (directory body reads)
      exact added.insert _ absolute

theorem requestRelative (all : Absolute r) (root : Rooted files) {parent : Nat}
    (known : parent < r.records.size) (specifier : String) : Absolute (requestRelative files r parent specifier).2 := by
  have clean : ((r.record parent).path.join ⟨specifier⟩).clean.isAbsolute = true :=
    Path.isAbsolute_clean (Path.isAbsolute_join (all.directories parent known) _)
  have absolute : (target files _).isAbsolute = true := isAbsolute_target clean
  have aimed : (target files _).Normal ∨ _ := normal_target (Path.normal_clean ((r.record parent).path.join ⟨specifier⟩))
  refine all.load parent specifier absolute fun body reads => ?_
  rcases aimed with normal | ⟨index,-⟩
  · exact isAbsolute_directory normal absolute (root.apart _ body reads)
  · rw [index] at absolute
    exact absurd absolute (by decide)

theorem request (all : Absolute r) (planted : Planted path r) (root : Rooted files) {parent : Nat}
    (known : parent < r.records.size) (specifier : String) : Absolute (request files r parent specifier).2 := by
  unfold Registry.request
  split
  · exact all.requestRelative root known specifier
  · split
    · exact all
    · split
      · exact all
      · next spot entered =>
        have le := anchor_le planted.ascends parent
        have directory := isAbsolute_entry root.kind (all.directories _ (by omega)) entered
        have added : Absolute (r.add (package r parent specifier spot)).2 := all.add directory
        exact added.requestRelative root (by simp [Registry.add]) _

end Absolute

/-! ### What keys tell apart -/

/-- The requiring modules of a history are there. -/
theorem Met.known (met : Met files path returned r) (planted : Planted path r) {parent : Nat}
    (requires : parent = r.main ∨ parent ∈ returned) : parent < r.records.size := by
  rcases requires with rfl | came
  · rw [planted.main]
    exact planted.size
  · exact (met.recalls.sound _ _ (met.recalls.came parent came)).1

theorem Met.used (met : Met files path returned r) : Used path r := by
  induction met with
  | new => exact .new
  | resolve parent specifier before requires used =>
    exact .resolve files specifier used (before.known used.planted requires)

/-- No keys are relative if the base path is absolute and the root is no file. -/
theorem Met.absolute_of_rooted (met : Met files path returned r) (absolute : path.isAbsolute = true)
    (root : Rooted files) : Absolute r := by
  induction met with
  | new => exact .new absolute
  | @resolve returned r parent specifier before requires all =>
    obtain ⟨uses,resolved⟩ := resolve_request files r parent specifier
    have planted := before.used.planted
    rw [resolved]
    exact all.request planted root (before.known planted requires) specifier

theorem Met.absolute (met : Met files path returned r) (absolute : path.isAbsolute = true)
    (root : files.kind ⟨"/"⟩ = .ok .dir) : Absolute r := met.absolute_of_rooted absolute (rooted_of_directory root)

/-- Keys are normal, and the modules that came out for one clean path are one. -/
structure Identified (returned : List Nat) (r : Registry) : Prop where
  normal : ∀ key i, r.find? key = some i → (⟨key⟩ : Path).Normal
  same : ∀ i ∈ returned, ∀ j ∈ returned,
    (⟨(r.record i).key⟩ : Path).clean = (⟨(r.record j).key⟩ : Path).clean → i = j

/-- After any resolves, keys are normal and a clean path is that of one module, unless the index of the current
directory has been required as the entry of that directory. This takes a relative base path. Even then, two modules
have the same clean path only if one of them is that index and the other one is `index.js`. -/
theorem identified_iff (met : Met files path returned r) :
    (Identified returned r ↔ r.find? "./index.js" = none) ∧
    (∀ i ∈ returned, ∀ j ∈ returned, (⟨(r.record i).key⟩ : Path).clean = (⟨(r.record j).key⟩ : Path).clean →
      i = j ∨ [(r.record i).key,(r.record j).key].Perm ["./index.js","index.js"]) ∧
    (∀ i, r.find? "./index.js" = some i → files.kind ⟨"."⟩ = .ok .dir) ∧
    (path.isAbsolute = true → files.kind ⟨"/"⟩ = .ok .dir → Identified returned r) := by
  have recalls := met.recalls
  have index : (⟨"./index.js"⟩ : Path).clean = ⟨"index.js"⟩ := by decide
  have spelled : ¬ (⟨"./index.js"⟩ : Path).Normal := by
    unfold Path.Normal
    rw [index]
    decide
  -- The clean path of a module that came out.
  have clean : ∀ i ∈ returned, (⟨(r.record i).key⟩ : Path).clean = ⟨(r.record i).key⟩ ∨
      (r.record i).key = "./index.js" ∧ (⟨(r.record i).key⟩ : Path).clean = ⟨"index.js"⟩ := by
    intro i member
    rcases met.normal_keys (recalls.came i member) with normal | ⟨same,-⟩
    · exact .inl normal
    · rw [same]
      exact .inr ⟨rfl,index⟩
  have alike : ∀ i ∈ returned, ∀ j ∈ returned, (r.record i).key = (r.record j).key → i = j := by
    intro i member j other same
    exact Option.some.inj ((recalls.came i member).symm.trans (same ▸ recalls.came j other))
  have pairs : ∀ i ∈ returned, ∀ j ∈ returned, (⟨(r.record i).key⟩ : Path).clean = (⟨(r.record j).key⟩ : Path).clean →
      i = j ∨ [(r.record i).key,(r.record j).key].Perm ["./index.js","index.js"] := by
    intro i member j other same
    rcases clean i member with left | ⟨left,normal⟩ <;> rcases clean j other with right | ⟨right,normal'⟩
    · exact .inl (alike i member j other (congrArg Path.text (left.symm.trans (same.trans right))))
    · have plain : (r.record i).key = "index.js" := congrArg Path.text (left.symm.trans (same.trans normal'))
      rw [plain,right]
      exact .inr (.swap _ _ _)
    · have plain : (r.record j).key = "index.js" := congrArg Path.text (right.symm.trans (same.symm.trans normal))
      rw [plain,left]
      exact .inr (.refl _)
    · exact .inl (alike i member j other (left.trans right.symm))
  have identified : r.find? "./index.js" = none → Identified returned r := by
    intro free
    have apart : ∀ i ∈ returned, (r.record i).key ≠ "./index.js" := by
      intro i member same
      have found := recalls.came i member
      rw [same,free] at found
      cases found
    refine ⟨fun key i found => ?_,fun i member j other same => ?_⟩
    · rcases met.normal_keys found with normal | ⟨rfl,-⟩
      · exact normal
      · cases free.symm.trans found
    · refine (pairs i member j other same).resolve_right fun both => ?_
      have inside : "./index.js" ∈ [(r.record i).key,(r.record j).key] := both.mem_iff.mpr List.mem_cons_self
      rcases List.mem_cons.mp inside with here | there
      · exact apart i member here.symm
      · exact apart j other (List.mem_singleton.mp there).symm
  have kind : ∀ i, r.find? "./index.js" = some i → files.kind ⟨"."⟩ = .ok .dir := fun i found =>
    ((met.normal_keys found).resolve_left spelled).2
  refine ⟨⟨fun distinct => ?_,identified⟩,pairs,kind,fun absolute root => identified ?_⟩
  · cases found : r.find? "./index.js" with
    | none => rfl
    | some i => exact absurd (distinct.normal _ i found) spelled
  · cases found : r.find? "./index.js" with
    | none => rfl
    | some i => exact absurd ((met.absolute absolute root).keys _ i found) (by decide)

/-- A script in the current directory, under both spellings of its path. -/
def spellings : Files :=
  Tree.files ⟨[(⟨"./index.js"⟩,.file "exports.a=1"),(⟨"index.js"⟩,.file "exports.a=1")]⟩

/-- The registry of the current directory after the directory and the script in it have been required. -/
def spelledMet : Registry :=
  (((Registry.new ⟨"."⟩).resolve spellings 1 "./").2.1.resolve spellings 1 "./index").2.1

theorem spelled_met : Met spellings ⟨"."⟩ [3,2] spelledMet := by
  have first : Met spellings ⟨"."⟩ _ ((Registry.new ⟨"."⟩).resolve spellings 1 "./").2.1 := .resolve 1 "./" .new (.inl rfl)
  have came : ((Registry.new ⟨"."⟩).resolve spellings 1 "./").1.toOption = some 2 ∧
      1 = ((Registry.new ⟨"."⟩).resolve spellings 1 "./").2.1.main ∧
      (((Registry.new ⟨"."⟩).resolve spellings 1 "./").2.1.resolve spellings 1 "./index").1.toOption = some 3 := by
    decide +kernel
  have second : Met spellings ⟨"."⟩ _ spelledMet := .resolve 1 "./index" first (.inl came.2.1)
  rw [came.1,came.2.2] at second
  exact second

theorem identified_iff_of_spellings : Met spellings ⟨"."⟩ [3,2] spelledMet ∧ ¬ Identified [3,2] spelledMet ∧
    spellings.kind ⟨"."⟩ = .ok .dir ∧ (⟨"/a"⟩ : Path).isAbsolute = true ∧ sides.kind ⟨"/"⟩ = .ok .dir ∧
    Identified [] (.new ⟨"/a"⟩) := by
  have index : spelledMet.find? "./index.js" = some 2 := by decide +kernel
  have absolute : (⟨"/a"⟩ : Path).isAbsolute = true := by decide
  have root : sides.kind ⟨"/"⟩ = .ok .dir := by
    simp only [sides,Tree.files]
    rw [if_pos]
    decide +kernel
  obtain ⟨distinct,-,kind,-⟩ := identified_iff spelled_met
  refine ⟨spelled_met,fun same => ?_,kind 2 index,absolute,root,(identified_iff .new).2.2.2 absolute root⟩
  rw [distinct.mp same] at index
  cases index

/-- Two modules came out for one clean path, under keys of which one is not clean. -/
theorem index_spelled_twice : Met spellings ⟨"."⟩ [3,2] spelledMet ∧
    [3,2].map (fun i => (spelledMet.record i).key) = ["index.js","./index.js"] ∧
    [3,2].map (fun i => (⟨(spelledMet.record i).key⟩ : Path).clean) = [⟨"index.js"⟩,⟨"index.js"⟩] :=
  ⟨spelled_met,by decide +kernel,by decide +kernel⟩

end ScriptHost.Registry
