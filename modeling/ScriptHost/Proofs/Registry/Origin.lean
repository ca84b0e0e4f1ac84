import Mathlib.Logic.Relation
import ScriptHost.Proofs.Registry.Recall
/-!
Where bare specifiers are looked up. A registry in use (`Used`) has a record for every module that was registered or
came out of a resolve, and every record but the first one and the registered ones was required from an earlier
record. The chain of these ends at the directory of packages or at a registered module (`Planted`). A bare specifier
that is no key of the registry is looked up below the directory of that end, so it means for a module what it means
for the main module if no registered module stands in its chain, and else what the directory of the registered
module holds (`bare_by_origin`).
-/
namespace ScriptHost.Registry

/-- The registries of a base path in use: what resolves from records that are there, registrations, compilations,
evaluations, changes of the transform and restarts have made of the new one, whatever the files were at the time. -/
inductive Used (path : Path) : Registry → Prop where
  | new : Used path (.new path)
  | resolve {r : Registry} (files : Files) {parent : Nat} (specifier : String) (before : Used path r)
    (known : parent < r.records.size) : Used path (r.resolve files parent specifier).2.1
  | register {r : Registry} (name body : String) (directory : Option Path) (before : Used path r) :
    Used path (r.setModule (.named name body directory))
  | compile {r : Registry} (check : Checker) (i : Nat) (before : Used path r) : Used path (r.compileModule check i).2
  | mark {r : Registry} (i generation : Nat) (before : Used path r) : Used path (r.markEvaluated i generation)
  | setTransform {r : Registry} (t : Option Transform) (before : Used path r) : Used path { r with transform := t }
  | reset {r : Registry} (before : Used path r) : Used path r.reset

theorem Used.made {path : Path} {r : Registry} (used : Used path r) : Made r := by
  induction used with
  | new => exact .new path
  | @resolve r files parent specifier before known made =>
    have change : Change files (fun _ _ => .ok ()) r (r.resolve files parent specifier).2.1 := .resolve parent specifier
    exact .change made change
  | register name body directory before made => exact .setModule _ made
  | @compile r check i before made =>
    have change : Change .none check r (r.compileModule check i).2 := .compile i
    exact .change made change
  | @mark r i generation before made =>
    have change : Change .none (fun _ _ => .ok ()) r (r.markEvaluated i generation) := .mark i generation
    exact .change made change
  | setTransform t before made => exact .setTransform t made
  | reset before made => exact .reset made

/-! ### Chains of requiring records -/

/-- Every record was required from an earlier one, if from any. -/
def Ascends (r : Registry) : Prop := ∀ i j, (r.record i).root = some j → j < i

/-- The chain of requiring records leads from one to another one. -/
def Descends (r : Registry) : Nat → Nat → Prop := Relation.ReflTransGen fun i j => (r.record i).root = some j

section
variable {r t : Registry}

theorem anchorIn_eq (ascends : Ascends r) : ∀ {n i : Nat}, i < n → anchorIn r n i = r.anchor i := by
  have steady : ∀ i n m, i < n → i < m → anchorIn r n i = anchorIn r m i := by
    intro i
    induction i using Nat.strongRecOn with
    | ind i earlier =>
      intro n m below also
      obtain ⟨n,rfl⟩ : ∃ k, n = k+1 := ⟨n-1,by omega⟩
      obtain ⟨m,rfl⟩ : ∃ k, m = k+1 := ⟨m-1,by omega⟩
      simp only [anchorIn]
      cases root : (r.record i).root with
      | none => rfl
      | some j =>
        have less := ascends i j root
        exact earlier j less n m (by omega) (by omega)
  exact fun {n i} below => steady i n (i+1) below (Nat.lt_succ_self i)

theorem anchor_of_root (ascends : Ascends r) {i j : Nat} (root : (r.record i).root = some j) :
    r.anchor i = r.anchor j := by
  unfold anchor
  rw [anchorIn,root]
  exact anchorIn_eq ascends (ascends i j root)

theorem anchor_of_none {i : Nat} (root : (r.record i).root = none) : r.anchor i = i := by
  unfold anchor
  rw [anchorIn,root]

/-- The anchor of a record is where its chain ends. -/
theorem descends_anchor (ascends : Ascends r) (i : Nat) :
    Descends r i (r.anchor i) ∧ (r.record (r.anchor i)).root = none := by
  induction i using Nat.strongRecOn with
  | ind i earlier =>
    cases root : (r.record i).root with
    | none =>
      rw [anchor_of_none root]
      exact ⟨.refl,root⟩
    | some j =>
      obtain ⟨chain,end_⟩ := earlier j (ascends i j root)
      rw [anchor_of_root ascends root]
      exact ⟨.head root chain,end_⟩

theorem anchor_of_descends (ascends : Ascends r) {i j : Nat} (chain : Descends r i j) : r.anchor i = r.anchor j := by
  induction chain with
  | refl => rfl
  | tail before root same => exact same.trans (anchor_of_root ascends root)

theorem anchor_le (ascends : Ascends r) (i : Nat) : r.anchor i ≤ i := by
  have falls : ∀ j, Descends r i j → j ≤ i := by
    intro j chain
    induction chain with
    | refl => exact Nat.le_refl i
    | tail before root le => exact Nat.le_trans (Nat.le_of_lt (ascends _ _ root)) le
  exact falls _ (descends_anchor ascends i).1

end

/-! ### What a registry in use has in it -/

/-- The record is of a module that was registered. -/
def Registered (r : Registry) (i : Nat) : Prop := 2 ≤ i ∧ i < r.records.size ∧ (r.record i).root = none

/-- The directory of packages comes first, and the main module after it. -/
structure Planted (path : Path) (r : Registry) : Prop where
  base : r.base = baseOf path
  main : r.main = 1
  size : 2 ≤ r.records.size
  packages : (r.record 0).root = none ∧ (r.record 0).path = (baseOf path).join ⟨"node_modules"⟩
  entry : (r.record 1).root = some 0
  ascends : Ascends r

/-- A registry with the same records, as far as lookups go. -/
structure Alike (r t : Registry) : Prop where
  base : t.base = r.base
  main : t.main = r.main
  size : t.records.size = r.records.size
  root : ∀ i, (t.record i).root = (r.record i).root
  path : ∀ i, (t.record i).path = (r.record i).path

namespace Alike
variable {r t u : Registry}

theorem refl (r : Registry) : Alike r r := ⟨rfl,rfl,rfl,fun _ => rfl,fun _ => rfl⟩

theorem trans (first : Alike r t) (second : Alike t u) : Alike r u :=
  ⟨second.base.trans first.base,second.main.trans first.main,second.size.trans first.size,
    fun i => (second.root i).trans (first.root i),fun i => (second.path i).trans (first.path i)⟩

theorem update (r : Registry) (i : Nat) {f : Module → Module} (keeps : ∀ m, (f m).root = m.root ∧ (f m).path = m.path) :
    Alike r (r.update i f) := by
  have record : ∀ j, ((r.update i f).record j).root = (r.record j).root ∧
      ((r.update i f).record j).path = (r.record j).path := by
    intro j
    unfold Registry.record Registry.update
    rw [Array.getElem?_modify]
    by_cases same : i = j
    · subst same
      cases r.records[i]? with
      | none => simp
      | some m => simpa using keeps m
    · simp [same]
  exact ⟨rfl,rfl,size_update r i f,fun j => (record j).1,fun j => (record j).2⟩

theorem compile (check : Checker) (r : Registry) (i : Nat) : Alike r (compileModule check r i).2 := by
  rcases compile_eq check r i with same | ⟨p,serial,same⟩
  · rw [same]
    exact refl r
  · rw [same]
    obtain ⟨base,main,size,root,path⟩ := update r i (f := ({ · with program := some p })) fun m => ⟨rfl,rfl⟩
    exact ⟨base,main,size,root,path⟩

theorem reset (r : Registry) : Alike r r.reset := by
  unfold Registry.reset
  generalize r.table = entries
  induction entries generalizing r with
  | nil => exact refl r
  | cons entry entries ih =>
    exact (update r entry.2 (f := ({ · with evaluatedIn := 0 })) fun m => ⟨rfl,rfl⟩).trans (ih _)

end Alike

theorem record_beyond {r : Registry} {i : Nat} (beyond : r.records.size ≤ i) : r.record i = default := by
  simp [Registry.record,Array.getElem?_eq_none beyond]

namespace Planted
variable {path : Path} {files : Files} {r t : Registry}

theorem new (path : Path) : Planted path (.new path) where
  base := rfl
  main := rfl
  size := Nat.le_refl 2
  packages := ⟨rfl,rfl⟩
  entry := rfl
  ascends := by
    intro i j root
    rcases i with _ | _ | i
    · cases root
    · cases root
      exact Nat.one_pos
    · rw [record_beyond (Nat.le_add_left 2 i)] at root
      cases root

theorem alike (planted : Planted path r) (alike : Alike r t) : Planted path t where
  base := alike.base.trans planted.base
  main := alike.main.trans planted.main
  size := alike.size ▸ planted.size
  packages := ⟨(alike.root 0).trans planted.packages.1,(alike.path 0).trans planted.packages.2⟩
  entry := (alike.root 1).trans planted.entry
  ascends i j root := planted.ascends i j ((alike.root i).symm.trans root)

/-- A record is added that was required from a record which is there, or from none. -/
theorem add (planted : Planted path r) {m : Module} (known : ∀ j, m.root = some j → j < r.records.size) :
    Planted path (r.add m).2 := by
  have size := planted.size
  refine ⟨planted.base,planted.main,?_,?_,?_,fun i j root => ?_⟩
  · simp only [Registry.add,Array.size_push]
    omega
  · rw [record_add_of_lt (by omega)]
    exact planted.packages
  · rw [record_add_of_lt (by omega)]
    exact planted.entry
  · rcases Nat.lt_trichotomy i r.records.size with old | same | beyond
    · exact planted.ascends i j (record_add_of_lt old m ▸ root)
    · subst same
      rw [record_add] at root
      exact known j root
    · have outside : (r.add m).2.records.size ≤ i := by
        simp only [Registry.add,Array.size_push]
        omega
      rw [record_beyond outside] at root
      cases root

theorem insert (planted : Planted path r) (key : String) (i : Nat) : Planted path (r.insert key i) :=
  ⟨planted.base,planted.main,planted.size,planted.packages,planted.entry,planted.ascends⟩

theorem load (planted : Planted path r) {parent : Nat} (known : parent < r.records.size) (specifier : String)
    (file : Path) : Planted path (load files r parent specifier file).2 := by
  unfold Registry.load
  split
  · exact planted
  · split
    · exact planted
    · exact (planted.add fun j root => by cases root; exact known).insert _ _

theorem request (planted : Planted path r) {parent : Nat} (known : parent < r.records.size) (specifier : String) :
    Planted path (request files r parent specifier).2 := by
  unfold Registry.request requestRelative
  split
  · exact planted.load known specifier _
  · split
    · exact planted
    · split
      · exact planted
      · next spot _ =>
        have le := anchor_le planted.ascends parent
        have grown : Planted path (r.add (package r parent specifier spot)).2 := planted.add fun j root => by
          cases root
          omega
        exact grown.load (by simp [Registry.add]) _ _

end Planted

theorem Used.planted {path : Path} {r : Registry} (used : Used path r) : Planted path r := by
  induction used with
  | new => exact .new path
  | @resolve r files parent specifier before known planted =>
    obtain ⟨uses,resolved⟩ := resolve_request files r parent specifier
    rw [resolved]
    exact planted.request known specifier
  | register name body directory before planted =>
    unfold Registry.setModule
    refine (planted.add fun j root => ?_).insert _ _
    split at root <;> cases root
  | compile check i before planted => exact planted.alike (.compile check _ i)
  | mark i generation before planted => exact planted.alike (.update _ i fun m => ⟨rfl,rfl⟩)
  | setTransform t before planted => exact planted.alike ⟨rfl,rfl,rfl,fun _ => rfl,fun _ => rfl⟩
  | reset before planted => exact planted.alike (.reset _)

/-! ### Bare specifiers -/

/-- The key of the module to which a path leads: that of the file for which it stands, if there is a record of it or
it can be read. -/
def reached (files : Files) (r : Registry) (path : Path) : Option String :=
  if (r.find? (target files path).text).isSome then some (target files path).text else located files path

/-- The key of the module to which a bare specifier leads where packages are looked up below a directory. -/
def keyBelow (files : Files) (r : Registry) (directory : Path) (specifier : String) : Option String :=
  if (r.find? specifier).isSome then some specifier
  else match entry files (.directory "" directory "" none) specifier with
    | .error _ => none
    | .ok spot => reached files r (spot.1.join ⟨"./" ++ spot.2⟩).clean

section
variable {files : Files} {r : Registry}

theorem keyIn_load (sound : Sound r) (parent : Nat) (specifier : String) (path : Path) :
    keyIn (load files r parent specifier (target files path)) = reached files r path := by
  unfold load reached located
  cases found : r.find? (target files path).text with
  | some i => simp [keyIn,(sound _ _ found).2]
  | none =>
    cases files.read (target files path) with
    | error e => simp [keyIn]
    | ok body =>
      simp only [keyIn,record_insert,record_add]
      rfl

/-- The entry of a package depends on the directory below which it is looked up; only a failure names the module. -/
theorem entry_of_path {spot other : Module} (same : spot.path = other.path) (specifier : String) :
    (entry files spot specifier).toOption = (entry files other specifier).toOption := by
  unfold entry
  rw [same]
  simp only
  split
  · rfl
  · split
    · split <;> rfl
    · split
      · rfl
      · rfl
      · split <;> rfl

/-- A bare specifier is looked up below the directory at the end of the chain. -/
theorem keyOf_bare (sound : Sound r) (parent : Nat) {specifier : String} (bare : isRelative specifier = false) :
    keyOf files r parent specifier = keyBelow files r (r.record (r.anchor parent)).path specifier := by
  obtain ⟨uses,resolved⟩ := resolve_request files r parent specifier
  unfold keyOf keyBelow
  rw [resolved]
  show keyIn (request files r parent specifier) = _
  unfold request
  rw [bare,if_neg Bool.false_ne_true]
  cases found : r.find? specifier with
  | some i => simp [keyIn,(sound _ _ found).2]
  | none =>
    rw [Option.isSome_none,if_neg Bool.false_ne_true]
    generalize same : Module.directory "" (r.record (r.anchor parent)).path "" none = bottom
    have below : (r.record (r.anchor parent)).path = bottom.path := by rw [← same,Module.directory]
    have entries : (entry files _ specifier).toOption = (entry files bottom specifier).toOption :=
      entry_of_path below specifier
    revert entries
    cases entry files (r.record (r.anchor parent)) specifier with
    | error e =>
      cases entry files bottom specifier with
      | error e => exact fun _ => rfl
      | ok spot =>
        intro same
        cases same
    | ok spot =>
      cases entry files bottom specifier with
      | error e =>
        intro same
        cases same
      | ok other =>
        intro same
        cases same
        -- The record of the package is added, and no key leads to it.
        have grown : Sound (r.add (package r parent specifier spot)).2 := (Grows.add r rfl).sound sound
        show keyIn (requestRelative files (r.add (package r parent specifier spot)).2 r.records.size _) = _
        unfold requestRelative
        rw [keyIn_load grown,record_add]
        rfl

end

/-- A bare specifier means for a module what it means for the main module as long as no registered module stands in
the chain of those from which it was first required, one from another; packages are then looked up below the base
directory. Where a registered module stands there, it is looked up below the directory of that module instead. -/
theorem bare_by_origin {path : Path} {r : Registry} (used : Used path r) {i : Nat} (known : i < r.records.size)
    (files : Files) {specifier : String} (bare : isRelative specifier = false) :
    keyOf files r r.main specifier = keyBelow files r ((baseOf path).join ⟨"node_modules"⟩) specifier ∧
    ((∀ j, Descends r i j → ¬ Registered r j) → keyOf files r i specifier = keyOf files r r.main specifier) ∧
    ∀ j, Descends r i j → Registered r j →
      keyOf files r i specifier = keyBelow files r (r.record j).path specifier := by
  have planted := used.planted
  have sound := used.made.sound
  have main : r.anchor r.main = 0 := by
    rw [planted.main,anchor_of_root planted.ascends planted.entry,anchor_of_none planted.packages.1]
  have first : keyOf files r r.main specifier = keyBelow files r ((baseOf path).join ⟨"node_modules"⟩) specifier := by
    rw [keyOf_bare sound r.main bare,main,planted.packages.2]
  refine ⟨first,fun unregistered => ?_,fun j chain registered => ?_⟩
  · obtain ⟨chain,end_⟩ := descends_anchor planted.ascends i
    have le := anchor_le planted.ascends i
    have packages : r.anchor i = 0 := by
      match spot : r.anchor i with
      | 0 => rfl
      | 1 =>
        rw [spot,planted.entry] at end_
        cases end_
      | j+2 =>
        rw [spot] at chain end_ le
        exact absurd ⟨by omega,by omega,end_⟩ (unregistered (j+2) chain)
    rw [keyOf_bare sound i bare,keyOf_bare sound r.main bare,main,packages]
  · rw [keyOf_bare sound i bare,anchor_of_descends planted.ascends chain,anchor_of_none registered.2.2]

/-- A package, a script of the same name beside it, and a script that helps a registered module. -/
def sides : Files :=
  Tree.files ⟨[(⟨"/a/node_modules/left/index.js"⟩,.file "exports.a=1"),(⟨"/a/left.js"⟩,.file "exports.b=2"),
    (⟨"/a/help.js"⟩,.file "exports.c=3")]⟩

/-- The registry after a module has been registered and has required its helper. -/
def sidesUsed : Registry := (((Registry.new ⟨"/a"⟩).setModule (.named "plugin" "")).resolve sides 2 "./help.js").2.1

theorem sides_used : Used ⟨"/a"⟩ sidesUsed :=
  .resolve sides "./help.js" (.register "plugin" "" none .new)
    (by simp [Registry.setModule,Registry.add,Registry.insert,Registry.new])

theorem sides_records :
    sidesUsed.records.map (·.root) = #[none,some 0,none,some 2] ∧ isRelative "left" = false := by decide +kernel

theorem bare_by_origin_of_helper : Used ⟨"/a"⟩ sidesUsed ∧ Descends sidesUsed 3 2 ∧ Registered sidesUsed 2 ∧
    keyOf sides sidesUsed 3 "left" = keyBelow sides sidesUsed (sidesUsed.record 2).path "left" ∧
    keyOf sides sidesUsed sidesUsed.main "left" =
      keyBelow sides sidesUsed ((baseOf ⟨"/a"⟩).join ⟨"node_modules"⟩) "left" := by
  have roots := sides_records.1
  have size : sidesUsed.records.size = 4 := by simpa using congrArg Array.size roots
  have root : ∀ i, (sidesUsed.record i).root = (#[none,some 0,none,some 2][i]?).join := by
    intro i
    rw [← roots,Array.getElem?_map]
    unfold record
    cases sidesUsed.records[i]? <;> rfl
  have chain : Descends sidesUsed 3 2 := .single (root 3)
  have registered : Registered sidesUsed 2 := ⟨Nat.le_refl 2,by omega,root 2⟩
  have known : 3 < sidesUsed.records.size := by omega
  obtain ⟨main,-,other⟩ := bare_by_origin sides_used known sides sides_records.2
  exact ⟨sides_used,chain,registered,other 2 chain registered,main⟩

/-- One bare specifier leads the main module to the package, and a registered module and its helper to the script. -/
theorem packages_hidden_from_registered : Used ⟨"/a"⟩ sidesUsed ∧
    [sidesUsed.main,2,3].map (keyOf sides sidesUsed · "left") =
      [some "/a/node_modules/left/index.js",some "/a/left.js",some "/a/left.js"] :=
  ⟨sides_used,by decide +kernel⟩

end ScriptHost.Registry
