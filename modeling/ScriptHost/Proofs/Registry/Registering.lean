import ScriptHost.Proofs.Registry.Origin
/-!
What a registration changes. A registry knows modules by keys, which are names of registered modules and paths of files.
What a key leads to is told by the registrations, last one first, and otherwise by the files (`holds`), whatever was
resolved meanwhile (`Enrolled.faithful`). So the name of a registered module leads to the last one that was registered
under it, from everywhere, and a relative specifier leads where it would lead without the registration, to the same
module, unless it aims at a file whose path is spelled like the name. A bare specifier does so too where both registries
know it, or neither does, and look packages up in the same directory (`answers_beside_registration`).
-/
namespace ScriptHost.Registry

/-- What is told of a module: its key, its text, and the directory where its relative specifiers start. -/
structure Answer where
  key : String
  body : String
  directory : Path
  deriving DecidableEq

/-- What is told of a record. -/
def told (m : Module) : Answer := ⟨m.key,m.body,m.path⟩

/-- A registration: what is told of the module, and the index of its record. -/
structure Registration extends Answer where
  index : Nat

/-- The registries that resolves and registrations lead to from a new one, with the registrations, last one first. -/
inductive Enrolled (files : Files) (path : Path) : List Registration → Registry → Prop where
  | new : Enrolled files path [] (.new path)
  | resolve {regs : List Registration} {r : Registry} (parent : Nat) (specifier : String)
    (before : Enrolled files path regs r) (known : parent < r.records.size) :
    Enrolled files path regs (r.resolve files parent specifier).2.1
  | register {regs : List Registration} {r : Registry} (name body : String) (directory : Option Path)
    (before : Enrolled files path regs r) :
    Enrolled files path (⟨⟨name,body,(directory.filter (!·.text.isEmpty)).getD r.base⟩,r.records.size⟩ :: regs)
      (r.setModule (.named name body directory))

/-- The last registration under a name. -/
def lastUnder (regs : List Registration) (name : String) : Option Registration := regs.find? (·.key = name)

/-- What a key leads to: the module that was registered last under it, or else the file that it is the path of. -/
def holds (files : Files) (regs : List Registration) (key : String) : Option Answer :=
  match lastUnder regs key with
  | some g => some g.toAnswer
  | none =>
    match files.read ⟨key⟩ with
    | .ok body => some ⟨key,body,(Path.mk key).parent.getD ⟨""⟩⟩
    | .error _ => none

/-- What is known of a registry in use. -/
structure Faithful (files : Files) (path : Path) (regs : List Registration) (r : Registry) : Prop where
  sound : Sound r
  base : r.base = baseOf path
  main : r.main = 1
  size : 2 ≤ r.records.size
  packages : r.record 0 = .directory "node_modules" ((baseOf path).join ⟨"node_modules"⟩) "" none
  entry : r.record 1 = .directory "." (baseOf path) "" (some 0)
  registered : ∀ name g, lastUnder regs name = some g → r.find? name = some g.index
  kept : ∀ key i, r.find? key = some i → holds files regs key = some (told (r.record i))

namespace Faithful
variable {files : Files} {path : Path} {regs : List Registration} {r t : Registry}

theorem new : Faithful files path [] (.new path) where
  sound := (Made.new path).sound
  base := rfl
  main := rfl
  size := Nat.le_refl 2
  packages := rfl
  entry := rfl
  registered := nofun
  kept := nofun

/-- The registry grows by what files have. -/
theorem grown (faithful : Faithful files path regs r) (grows : Grows r t) (base : t.base = r.base) (main : t.main = r.main)
    (fresh : ∀ key i, r.find? key = none → t.find? key = some i →
      holds files regs key = some (told (t.record i))) : Faithful files path regs t where
  sound := grows.sound faithful.sound
  base := base.trans faithful.base
  main := main.trans faithful.main
  size := Nat.le_trans faithful.size grows.size
  packages := (grows.record (Nat.lt_of_lt_of_le Nat.zero_lt_two faithful.size)).trans faithful.packages
  entry := (grows.record (Nat.lt_of_lt_of_le Nat.one_lt_two faithful.size)).trans faithful.entry
  registered := fun name g last => grows.kept _ _ (faithful.registered name g last)
  kept := by
    intro key i found
    cases before : r.find? key with
    | none => exact fresh key i before found
    | some j =>
      cases (grows.kept key j before).symm.trans found
      rw [grows.record (faithful.sound key i before).1]
      exact faithful.kept key i before

theorem add (faithful : Faithful files path regs r) {m : Module} (unevaluated : m.evaluatedIn = 0) :
    Faithful files path regs (r.add m).2 :=
  faithful.grown (.add r unevaluated) rfl rfl fun _ _ none found => by cases none.symm.trans found

theorem load (faithful : Faithful files path regs r) (parent : Nat) (specifier : String) (file : Path) :
    Faithful files path regs (load files r parent specifier file).2 := by
  unfold Registry.load
  cases new : r.find? file.text with
  | some i => exact faithful
  | none =>
    cases reads : files.read file with
    | error e => exact faithful
    | ok body =>
      refine faithful.grown (.insert (m := .ofFile specifier file body parent) rfl new) rfl rfl fun key i none found => ?_
      rw [find_insert] at found
      split at found
      · next same =>
        subst same
        cases found
        have free : lastUnder regs file.text = Option.none := by
          cases last : lastUnder regs file.text with
          | none => rfl
          | some g => cases new.symm.trans (faithful.registered _ _ last)
        rw [record_insert,record_add]
        unfold holds
        rw [free]
        simp only [reads]
        rfl
      · cases none.symm.trans found

theorem request (faithful : Faithful files path regs r) (parent : Nat) (specifier : String) :
    Faithful files path regs (request files r parent specifier).2 := by
  unfold Registry.request requestRelative
  split
  · exact faithful.load _ _ _
  · split
    · exact faithful
    · split
      · exact faithful
      · exact (faithful.add rfl).load _ _ _

theorem register (faithful : Faithful files path regs r) (name body : String) (directory : Option Path) :
    Faithful files path (⟨⟨name,body,(directory.filter (!·.text.isEmpty)).getD r.base⟩,r.records.size⟩ :: regs)
      (r.setModule (.named name body directory)) := by
  obtain ⟨m,added,same⟩ : ∃ m, r.setModule (.named name body directory) = (r.add m).2.insert m.key r.records.size ∧
      told m = ⟨name,body,(directory.filter (!·.text.isEmpty)).getD r.base⟩ := by
    refine ⟨_,rfl,?_⟩
    unfold told
    cases directory with
    | none => rfl
    | some d => cases empty : d.text.isEmpty <;> simp [Module.named,Option.filter,empty]
  have found : ∀ key, (r.setModule (.named name body directory)).find? key =
      if key = name then some r.records.size else r.find? key := find_setModule r _
  have size := faithful.size
  have old : ∀ i, i < r.records.size → (r.setModule (.named name body directory)).record i = r.record i :=
    fun i lt => added ▸ record_add_of_lt lt m
  refine ⟨sound_setModule faithful.sound _,?_,?_,?_,?_,?_,fun key g last => ?_,fun key i hit => ?_⟩
  · rw [added]
    exact faithful.base
  · rw [added]
    exact faithful.main
  · rw [added]
    simp only [insert,Registry.add,Array.size_push]
    omega
  · rw [old 0 (by omega)]
    exact faithful.packages
  · rw [old 1 (by omega)]
    exact faithful.entry
  · rw [found]
    unfold lastUnder at last
    rw [List.find?_cons] at last
    by_cases own : key = name
    · subst own
      simp only [decide_true,Option.some.injEq] at last
      rw [if_pos rfl,← last]
    · have other : name ≠ key := fun same => own same.symm
      simp only [other,decide_false] at last
      rw [if_neg own]
      exact faithful.registered key g last
  · rw [found] at hit
    unfold holds lastUnder
    rw [List.find?_cons]
    split at hit
    · next own =>
      subst own
      cases hit
      simp only [decide_true]
      rw [added,record_insert,record_add,same]
    · next own =>
      have other : name ≠ key := fun same => own same.symm
      simp only [other,decide_false]
      rw [old i (faithful.sound key i hit).1]
      exact faithful.kept key i hit

end Faithful

theorem Enrolled.faithful {files : Files} {path : Path} {regs : List Registration} {r : Registry}
    (enrolled : Enrolled files path regs r) : Faithful files path regs r := by
  induction enrolled with
  | new => exact .new
  | @resolve regs r parent specifier before known faithful =>
    obtain ⟨uses,resolved⟩ := resolve_request files r parent specifier
    rw [resolved]
    exact faithful.request parent specifier
  | register name body directory before faithful => exact faithful.register name body directory

/-! ### Answers -/

/-- What is told of the record that a walk ends with, or its failure. -/
def answerIn (ends : Except Failure Nat × Registry) : Except Failure Answer := ends.1.map fun i => told (ends.2.record i)

/-- What is told of the record that a resolve ends with, or its failure. -/
def answer (files : Files) (r : Registry) (parent : Nat) (specifier : String) : Except Failure Answer :=
  answerIn ((r.resolve files parent specifier).1,(r.resolve files parent specifier).2.1)

/-- The file at which a specifier aims, with the module and the specifier that a failure to read it names. -/
structure Aim where
  asker : String
  specifier : String
  file : Path

/-- Where a specifier that is no key aims, as required from a record. -/
def aim (files : Files) (r : Registry) (parent : Nat) (specifier : String) : Except Failure Aim :=
  if isRelative specifier then
    .ok ⟨(r.record parent).key,specifier,target files ((r.record parent).path.join ⟨specifier⟩).clean⟩
  else (entry files (r.record (r.anchor parent)) specifier).map fun spot =>
    ⟨spot.1.text,"./" ++ spot.2,target files (spot.1.join ⟨"./" ++ spot.2⟩).clean⟩

/-- What is found where a specifier aims. -/
def Aim.hit (files : Files) (regs : List Registration) (a : Aim) : Except Failure Answer :=
  match lastUnder regs a.file.text with
  | some g => .ok g.toAnswer
  | none =>
    match files.read a.file with
    | .ok body => .ok ⟨a.file.text,body,a.file.parent.getD ⟨""⟩⟩
    | .error e => .error (.moduleNotFound a.specifier a.asker e)

namespace Faithful
variable {files : Files} {path : Path} {regs : List Registration} {r : Registry}

theorem answerIn_load (faithful : Faithful files path regs r) (parent : Nat) (specifier : String) (file : Path) :
    answerIn (Registry.load files r parent specifier file) = Aim.hit files regs ⟨(r.record parent).key,specifier,file⟩ := by
  unfold Registry.load Aim.hit
  cases found : r.find? file.text with
  | some i =>
    have held := faithful.kept file.text i found
    unfold holds at held
    show Except.ok (told (r.record i)) = _
    cases last : lastUnder regs file.text with
    | some g =>
      rw [last] at held
      exact congrArg Except.ok (Option.some.inj held).symm
    | none =>
      rw [last] at held
      simp only at held ⊢
      cases reads : files.read file with
      | ok body =>
        rw [reads] at held
        exact congrArg Except.ok (Option.some.inj held).symm
      | error e =>
        rw [reads] at held
        cases held
  | none =>
    have free : lastUnder regs file.text = Option.none := by
      cases last : lastUnder regs file.text with
      | none => rfl
      | some g => cases found.symm.trans (faithful.registered _ _ last)
    rw [free]
    cases files.read file with
    | error e => rfl
    | ok body =>
      show Except.ok (told (((r.add _).2.insert _ _).record r.records.size)) = _
      rw [record_insert,record_add]
      rfl

/-- What a resolve comes to is a matter of the registrations and the files, except for bare specifiers that are keys. -/
theorem answer_eq (faithful : Faithful files path regs r) (parent : Nat) (specifier : String) :
    answer files r parent specifier =
      match (if isRelative specifier then Option.none else r.find? specifier) with
      | some i => .ok (told (r.record i))
      | none => (aim files r parent specifier).bind (·.hit files regs) := by
  obtain ⟨uses,resolved⟩ := resolve_request files r parent specifier
  unfold answer aim
  rw [resolved]
  show answerIn (Registry.request files r parent specifier) = _
  unfold Registry.request
  cases relative : isRelative specifier with
  | true => exact faithful.answerIn_load _ _ _
  | false =>
    simp only [Bool.false_eq_true,if_false]
    cases r.find? specifier with
    | some i => rfl
    | none =>
      cases Registry.entry files (r.record (r.anchor parent)) specifier with
      | error e => rfl
      | ok spot =>
        -- The record of the package is added, and asks for the file.
        have asked : Faithful files path regs (r.add (package r parent specifier spot)).2 := faithful.add rfl
        have same := asked.answerIn_load r.records.size ("./" ++ spot.2)
          (target files (spot.1.join ⟨"./" ++ spot.2⟩).clean)
        show answerIn (requestRelative files (r.add (package r parent specifier spot)).2 r.records.size _) = _
        unfold requestRelative
        rw [record_add] at same ⊢
        exact same

end Faithful

/-! ### With and without a registration -/

/-- Records of two registries with the same key and directory. -/
def Twin (r t : Registry) (i j : Nat) : Prop := (r.record i).key = (t.record j).key ∧ (r.record i).path = (t.record j).path

/-- The last registrations under all names but one are of the same texts and directories. -/
def Beside (name : String) (regs others : List Registration) : Prop :=
  ∀ key, key ≠ name → (lastUnder regs key).map (·.toAnswer) = (lastUnder others key).map (·.toAnswer)

section
variable {files : Files} {path : Path} {regs others : List Registration} {r t : Registry} {name : String}

/-- The main modules are twins, and so are the ends of their chains. -/
theorem twin_main (one : Faithful files path regs r) (other : Faithful files path others t) :
    Twin r t r.main t.main ∧ Twin r t (r.anchor r.main) (t.anchor t.main) := by
  have anchored : ∀ {regs r}, Faithful files path regs r → r.anchor r.main = 0 := by
    intro regs r faithful
    rw [faithful.main]
    unfold anchor anchorIn
    rw [faithful.entry]
    show anchorIn r 1 0 = 0
    unfold anchorIn
    rw [faithful.packages]
    rfl
  rw [anchored one,anchored other,one.main,other.main]
  unfold Twin
  rw [one.entry,other.entry,one.packages,other.packages]
  exact ⟨⟨rfl,rfl⟩,rfl,rfl⟩

theorem aim_of_relative (twin : Twin r t i j) {specifier : String} (relative : isRelative specifier = true) :
    aim files r i specifier = aim files t j specifier := by
  unfold aim
  rw [relative,if_pos rfl,if_pos rfl,twin.1,twin.2]

theorem aim_of_bare (twin : Twin r t (r.anchor i) (t.anchor j)) {specifier : String}
    (bare : isRelative specifier = false) : aim files r i specifier = aim files t j specifier := by
  unfold aim entry
  rw [bare,twin.1,twin.2]
  rfl

theorem holds_beside (beside : Beside name regs others) {key : String} (apart : key ≠ name) :
    holds files regs key = holds files others key := by
  have same := beside key apart
  unfold holds
  revert same
  cases lastUnder regs key with
  | none =>
    cases lastUnder others key with
    | none => exact fun _ => rfl
    | some g => nofun
  | some g =>
    cases lastUnder others key with
    | none => nofun
    | some other => exact id

theorem hit_beside (beside : Beside name regs others) {a : Aim} (apart : a.file.text ≠ name) :
    a.hit files regs = a.hit files others := by
  have same := beside a.file.text apart
  unfold Aim.hit
  revert same
  cases lastUnder regs a.file.text with
  | none =>
    cases lastUnder others a.file.text with
    | none => exact fun _ => rfl
    | some g => nofun
  | some g =>
    cases lastUnder others a.file.text with
    | none => nofun
    | some other => exact fun same => congrArg Except.ok (Option.some.inj same)

/-- Where the aims agree, what is found there does too, unless it is a file whose path is spelled like the name. -/
theorem bind_hit_beside (beside : Beside name regs others) {aimed : Except Failure Aim}
    (apart : ∀ a, aimed = .ok a → a.file.text ≠ name) :
    aimed.bind (·.hit files regs) = aimed.bind (·.hit files others) := by
  cases aimed with
  | error e => rfl
  | ok a => exact hit_beside beside (apart a rfl)

end

/-- From everywhere the name of a registered module leads to the last one that was registered under it, whatever was
resolved meanwhile, and no file is looked at. From the main module, and from every module that is in both registries, a
relative specifier comes to what it comes to without the registration, unless it aims at a file whose path is spelled like
the name: it then leads to the registered module. Any other bare specifier comes to the same too, where both registries
know it or neither does, packages are looked up in the same directory, and the entry of the package is no such file. -/
theorem answers_beside_registration {files : Files} {path : Path} {regs : List Registration} {r : Registry}
    (enrolled : Enrolled files path regs r) {name : String} {g : Registration} (last : lastUnder regs name = some g) :
    told (r.record g.index) = g.toAnswer ∧
    (isRelative name = false → ∀ i, r.resolve files i name = (.ok g.index,r,[])) ∧
    ∀ others t, Enrolled files path others t → Beside name regs others →
      (Twin r t r.main t.main ∧ Twin r t (r.anchor r.main) (t.anchor t.main)) ∧
      ∀ i j specifier, Twin r t i j →
        (isRelative specifier = true → ∃ a, aim files r i specifier = .ok a ∧ aim files t j specifier = .ok a ∧
          answer files r i specifier = if a.file.text = name then .ok g.toAnswer else answer files t j specifier) ∧
        (isRelative specifier = false → specifier ≠ name → ((r.find? specifier).isSome ↔ (t.find? specifier).isSome) →
          Twin r t (r.anchor i) (t.anchor j) → (∀ a, aim files r i specifier = .ok a → a.file.text ≠ name) →
          answer files r i specifier = answer files t j specifier) := by
  have faithful := enrolled.faithful
  have found := faithful.registered name g last
  have known : told (r.record g.index) = g.toAnswer := by
    have held := faithful.kept name g.index found
    unfold holds at held
    rw [last] at held
    exact (Option.some.inj held).symm
  refine ⟨known,fun bare i => resolve_registered bare found,fun others t beyond beside => ?_⟩
  have other := beyond.faithful
  refine ⟨twin_main faithful other,fun i j specifier twin => ⟨fun relative => ?_,fun bare apart both anchors away => ?_⟩⟩
  · have same : aim files r i specifier = aim files t j specifier := aim_of_relative twin relative
    obtain ⟨a,aims⟩ : ∃ a, aim files r i specifier = .ok a := ⟨_,if_pos relative⟩
    refine ⟨a,aims,same ▸ aims,?_⟩
    rw [faithful.answer_eq,other.answer_eq,relative,if_pos rfl,if_pos rfl,← same,aims]
    show a.hit files regs = if a.file.text = name then _ else a.hit files others
    by_cases own : a.file.text = name
    · unfold Aim.hit
      rw [if_pos own,own,last]
    · rw [if_neg own]
      exact hit_beside beside own
  · rw [faithful.answer_eq,other.answer_eq,bare,if_neg Bool.false_ne_true,if_neg Bool.false_ne_true,
      ← aim_of_bare anchors bare]
    cases here : r.find? specifier with
    | some k =>
      obtain ⟨l,there⟩ := Option.isSome_iff_exists.mp (both.mp (here ▸ rfl))
      have same : told (r.record k) = told (t.record l) := Option.some.inj
        ((faithful.kept specifier k here).symm.trans ((holds_beside beside apart).trans (other.kept specifier l there)))
      rw [there]
      exact congrArg Except.ok same
    | none =>
      have there : t.find? specifier = none := Option.not_isSome_iff_eq_none.mp fun some => by
        have absent := both.mpr some
        rw [here] at absent
        cases absent
      rw [there]
      exact bind_hit_beside beside away

/-- A script in the base directory. -/
def single : Files := Tree.files ⟨[(⟨"util.js"⟩,.file "exports.a=1")]⟩

/-- The registry of the current directory after a module has been registered under a name. -/
def enrolledAs (name : String) : Registry := (Registry.new ⟨"."⟩).setModule (.named name "exports.b=2")

/-- The registration of that module. -/
def enrolment (name : String) : Registration := ⟨⟨name,"exports.b=2",⟨"."⟩⟩,2⟩

theorem enrolled_as (name : String) : Enrolled single ⟨"."⟩ [enrolment name] (enrolledAs name) :=
  .register name "exports.b=2" none .new

theorem beside_enrolment (name : String) : Beside name [enrolment name] [] := by
  intro key apart
  have other : (enrolment name).key ≠ key := fun same => apart same.symm
  simp [lastUnder,other]

theorem last_enrolment (name : String) : lastUnder [enrolment name] name = some (enrolment name) := by
  simp [lastUnder,enrolment]

theorem answers_beside_plugin : Enrolled single ⟨"."⟩ [enrolment "plugin"] (enrolledAs "plugin") ∧
    (enrolledAs "plugin").resolve single 1 "plugin" = (.ok 2,enrolledAs "plugin",[]) ∧
    (answer single (enrolledAs "plugin") 1 "./util").toOption = some ⟨"util.js","exports.a=1",⟨""⟩⟩ ∧
    answer single (enrolledAs "plugin") 1 "util" = answer single (.new ⟨"."⟩) 1 "util" := by
  obtain ⟨-,named,rest⟩ := answers_beside_registration (enrolled_as "plugin") (last_enrolment "plugin")
  obtain ⟨⟨twin,anchors⟩,each⟩ := rest [] (.new ⟨"."⟩) .new (beside_enrolment "plugin")
  refine ⟨enrolled_as "plugin",named (by decide +kernel) 1,?_,?_⟩
  · obtain ⟨a,-,aims,same⟩ := (each 1 1 "./util" twin).1 (by decide +kernel)
    have file : a.file.text = "util.js" := by
      have aimed : (aim single (.new ⟨"."⟩) 1 "./util").toOption.map (·.file.text) = some "util.js" := by decide +kernel
      rw [aims] at aimed
      exact Option.some.inj aimed
    rw [file,if_neg (by decide)] at same
    rw [same]
    decide +kernel
  · refine (each 1 1 "util" twin).2 (by decide +kernel) (by decide) (by decide +kernel) anchors fun a aims => ?_
    have aimed : (aim single (enrolledAs "plugin") 1 "util").toOption.map (·.file.text) =
        some "node_modules/util.js" := by decide +kernel
    rw [aims] at aimed
    have file : a.file.text = "node_modules/util.js" := Option.some.inj aimed
    rw [file]
    decide

/-- A module that is registered under the path of a script takes the place of the script. -/
theorem script_hidden_by_registration : Enrolled single ⟨"."⟩ [enrolment "util.js"] (enrolledAs "util.js") ∧
    Enrolled single ⟨"."⟩ [] (.new ⟨"."⟩) ∧ Beside "util.js" [enrolment "util.js"] [] ∧ isRelative "./util" = true ∧
    (answer single (enrolledAs "util.js") (enrolledAs "util.js").main "./util").toOption =
      some ⟨"util.js","exports.b=2",⟨"."⟩⟩ ∧
    (answer single (.new ⟨"."⟩) (Registry.new ⟨"."⟩).main "./util").toOption = some ⟨"util.js","exports.a=1",⟨""⟩⟩ :=
  ⟨enrolled_as "util.js",.new,beside_enrolment "util.js",by decide +kernel,by decide +kernel,by decide +kernel⟩

end ScriptHost.Registry
