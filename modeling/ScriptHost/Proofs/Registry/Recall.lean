import ScriptHost.Proofs.Registry.Growth
/-!
What earlier resolves do to later ones. The file that a specifier denotes is a matter of the files and of the
requiring record alone (`denoted`), and a fresh registry leads to it (`keyOf_afresh`). `Met` are the registries
after resolves from the main module or from modules that came out of earlier resolves. Their keys are those of
the modules that came out (`Recalls`), all of them paths of files that can be read, so a relative specifier leads
where it would lead without any resolve before it. A bare specifier does so too unless it is spelled like one of
these keys: then it leads to the file of that key, wherever the packages are.
-/
namespace ScriptHost.Registry

/-! ### What a specifier denotes -/

/-- The key of the file that a path stands for, if that file can be read. -/
def located (files : Files) (path : Path) : Option String :=
  match files.read (target files path) with
  | .ok _ => some (target files path).text
  | .error _ => none

/-- The key of the file that a specifier denotes for a record, going by the files alone. -/
def denoted (files : Files) (r : Registry) (parent : Nat) (specifier : String) : Option String :=
  if isRelative specifier then located files ((r.record parent).path.join ⟨specifier⟩).clean
  else match entry files (r.record (r.anchor parent)) specifier with
    | .error _ => none
    | .ok spot => located files (spot.1.join ⟨"./" ++ spot.2⟩).clean

/-- The key of the record that a request ends with, or none where it fails. -/
def keyIn : Except Failure Nat × Registry → Option String
  | (.ok i,t) => some (t.record i).key
  | (.error _,_) => none

/-- The key of the module that a resolve ends with, or none where it fails. -/
def keyOf (files : Files) (r : Registry) (parent : Nat) (specifier : String) : Option String :=
  keyIn ((r.resolve files parent specifier).1,(r.resolve files parent specifier).2.1)

/-- Every key that leads to a record is the path of a file that can be read. -/
def Backed (files : Files) (r : Registry) : Prop := ∀ key i, r.find? key = some i → ∃ body, files.read ⟨key⟩ = .ok body

section
variable {files : Files} {r t : Registry}

theorem record_congr (same : r.records = t.records) (i : Nat) : r.record i = t.record i := by
  unfold Registry.record
  rw [same]

theorem anchor_congr (same : r.records = t.records) (i : Nat) : r.anchor i = t.anchor i := by
  have walks : ∀ n i, anchorIn r n i = anchorIn t n i := by
    intro n
    induction n with
    | zero => exact fun _ => rfl
    | succ n ih =>
      intro i
      simp only [anchorIn,record_congr same i]
      split
      · exact ih _
      · rfl
  exact walks (i+1) i

/-- What a specifier denotes for a record depends on the records, not on the table. -/
theorem denoted_congr (same : r.records = t.records) (parent : Nat) (specifier : String) :
    denoted files r parent specifier = denoted files t parent specifier := by
  unfold denoted
  rw [record_congr same,anchor_congr same,record_congr same]

/-- A file that is kept in the table could be read from the files as well. -/
theorem requestRelative_key (sound : Sound r) (backed : Backed files r) (parent : Nat) (specifier : String) :
    keyIn (requestRelative files r parent specifier) =
      located files ((r.record parent).path.join ⟨specifier⟩).clean := by
  unfold requestRelative load located
  generalize target files ((r.record parent).path.join ⟨specifier⟩).clean = path
  cases found : r.find? path.text with
  | some i =>
    obtain ⟨body,reads⟩ := backed _ _ found
    simp only [reads,keyIn,(sound _ _ found).2]
  | none =>
    cases files.read path with
    | error e => rfl
    | ok body =>
      simp only [keyIn,record_insert,record_add]
      rfl

/-- A resolve ends with the file that the specifier denotes, unless the specifier is bare and a key itself. -/
theorem keyOf_eq (sound : Sound r) (backed : Backed files r) (parent : Nat) (specifier : String) :
    keyOf files r parent specifier =
      if isRelative specifier = false ∧ (r.find? specifier).isSome then some specifier
      else denoted files r parent specifier := by
  obtain ⟨uses,resolved⟩ := resolve_request files r parent specifier
  unfold keyOf denoted
  rw [resolved]
  show keyIn (request files r parent specifier) = _
  unfold request
  cases relative : isRelative specifier with
  | true => simpa using requestRelative_key sound backed parent specifier
  | false =>
    cases found : r.find? specifier with
    | some i => simp [keyIn,(sound _ _ found).2]
    | none =>
      simp only [Bool.false_eq_true,if_false,Option.isSome_none,and_false]
      cases entry files (r.record (r.anchor parent)) specifier with
      | error e => rfl
      | ok spot =>
        -- A record that is added leaves the table, so the package is looked for with the keys that were there.
        have grown : Sound (r.add (package r parent specifier spot)).2 := (Grows.add r rfl).sound sound
        have key := requestRelative_key grown backed r.records.size ("./" ++ spot.2)
        rw [record_add] at key
        exact key

end

/-! ### Histories -/

/-- A fresh registry to which the records of another one are known, although no key leads to them. -/
def afresh (path : Path) (r : Registry) : Registry := { Registry.new path with records := r.records }

/-- The registries after resolves from the main module or from modules that came out before, with the modules
that came out, last one first. -/
inductive Met (files : Files) (path : Path) : List Nat → Registry → Prop where
  | new : Met files path [] (.new path)
  | resolve {returned : List Nat} {r : Registry} (parent : Nat) (specifier : String)
    (before : Met files path returned r) (known : parent = r.main ∨ parent ∈ returned) :
    Met files path ((r.resolve files parent specifier).1.toOption.toList ++ returned)
      (r.resolve files parent specifier).2.1

/-- The keys of a registry are those of the modules that came out of it, and of files that can be read. -/
structure Recalls (files : Files) (returned : List Nat) (r : Registry) : Prop where
  sound : Sound r
  backed : Backed files r
  came : ∀ i ∈ returned, r.find? (r.record i).key = some i
  kept : ∀ key i, r.find? key = some i → i ∈ returned

namespace Recalls
variable {files : Files} {returned : List Nat} {r t : Registry}

theorem new (path : Path) : Recalls files [] (.new path) where
  sound := (Made.new path).sound
  backed key i found := by cases found
  came i member := by cases member
  kept key i found := by cases found

/-- Growth takes no module away. -/
theorem came_of_grows (recalls : Recalls files returned r) (grows : Grows r t) :
    ∀ i ∈ returned, t.find? (t.record i).key = some i := by
  intro i member
  have found := recalls.came i member
  rw [grows.record (recalls.sound _ _ found).1]
  exact grows.kept _ _ found

theorem add (recalls : Recalls files returned r) {m : Module} (unevaluated : m.evaluatedIn = 0) :
    Recalls files returned (r.add m).2 where
  sound := (Grows.add r unevaluated).sound recalls.sound
  backed := recalls.backed
  came := recalls.came_of_grows (Grows.add r unevaluated)
  kept := recalls.kept

theorem again (recalls : Recalls files returned r) {key : String} {i : Nat} (found : r.find? key = some i) :
    Recalls files (i :: returned) r := by
  refine ⟨recalls.sound,recalls.backed,fun j member => ?_,fun k j hit => List.mem_cons_of_mem i (recalls.kept k j hit)⟩
  rcases List.mem_cons.mp member with rfl | old
  · exact recalls.came j (recalls.kept key j found)
  · exact recalls.came j old

/-- A file that has been read goes into the table under its path. -/
theorem insert (recalls : Recalls files returned r) {m : Module} {body : String} (unevaluated : m.evaluatedIn = 0)
    (new : r.find? m.key = none) (reads : files.read ⟨m.key⟩ = .ok body) :
    Recalls files (r.records.size :: returned) ((r.add m).2.insert m.key r.records.size) := by
  have grows := Grows.insert unevaluated new
  have hit : ∀ {k j}, ((r.add m).2.insert m.key r.records.size).find? k = some j →
      (k = m.key ∧ j = r.records.size) ∨ r.find? k = some j := by
    intro k j found
    rw [find_insert] at found
    split at found
    · next same => exact .inl ⟨same,(Option.some.inj found).symm⟩
    · exact .inr found
  refine ⟨grows.sound recalls.sound,fun k j found => ?_,fun i member => ?_,fun k j found => ?_⟩
  · rcases hit found with ⟨rfl,-⟩ | old
    · exact ⟨body,reads⟩
    · exact recalls.backed k j old
  · rcases List.mem_cons.mp member with rfl | old
    · rw [record_insert,record_add,find_insert,if_pos rfl]
    · exact recalls.came_of_grows grows i old
  · rcases hit found with ⟨-,rfl⟩ | old
    · exact List.mem_cons_self
    · exact List.mem_cons_of_mem _ (recalls.kept k j old)

theorem load (recalls : Recalls files returned r) (parent : Nat) (specifier : String) (path : Path) :
    Recalls files ((load files r parent specifier path).1.toOption.toList ++ returned)
      (load files r parent specifier path).2 := by
  unfold Registry.load
  cases found : r.find? path.text with
  | some i => exact recalls.again found
  | none =>
    cases reads : files.read path with
    | error e => exact recalls
    | ok body => exact recalls.insert (m := .ofFile specifier path body parent) rfl found reads

theorem request (recalls : Recalls files returned r) (parent : Nat) (specifier : String) :
    Recalls files ((request files r parent specifier).1.toOption.toList ++ returned)
      (request files r parent specifier).2 := by
  unfold Registry.request
  split
  · exact recalls.load parent specifier _
  · cases found : r.find? specifier with
    | some i => exact recalls.again found
    | none =>
      cases entry files (r.record (r.anchor parent)) specifier with
      | error e => exact recalls
      | ok spot => exact (recalls.add rfl).load _ _ _

/-- A key is in the table exactly when a module with that key has come out. -/
theorem isSome_iff (recalls : Recalls files returned r) (key : String) :
    (r.find? key).isSome ↔ key ∈ returned.map fun i => (r.record i).key := by
  rw [Option.isSome_iff_exists,List.mem_map]
  constructor
  · rintro ⟨i,found⟩
    exact ⟨i,recalls.kept key i found,(recalls.sound key i found).2⟩
  · rintro ⟨i,member,rfl⟩
    exact ⟨i,recalls.came i member⟩

end Recalls

section
variable {files : Files} {path : Path} {returned : List Nat} {r : Registry}

theorem Met.recalls (met : Met files path returned r) : Recalls files returned r := by
  induction met with
  | new => exact .new path
  | @resolve returned r parent specifier before known recalls =>
    obtain ⟨uses,resolved⟩ := resolve_request files r parent specifier
    rw [resolved]
    exact recalls.request parent specifier

theorem find_afresh (key : String) : (afresh path r).find? key = none := rfl

/-- A fresh registry leads to the file that the specifier denotes. -/
theorem keyOf_afresh (parent : Nat) (specifier : String) :
    keyOf files (afresh path r) parent specifier = denoted files r parent specifier := by
  have sound : Sound (afresh path r) := fun key i found => by simp [find_afresh] at found
  have backed : Backed files (afresh path r) := fun key i found => by simp [find_afresh] at found
  have same : (afresh path r).records = r.records := rfl
  have free : ¬ (isRelative specifier = false ∧ ((afresh path r).find? specifier).isSome) := by
    rw [find_afresh]
    simp
  rw [keyOf_eq sound backed,if_neg free]
  exact denoted_congr same parent specifier

/-- After any resolves, a specifier leads to the file to which it leads in a fresh registry, except for a bare
specifier that is the key of a module that has come out: that one leads to the file of that key. -/
theorem keyOf_after_resolves (met : Met files path returned r) (parent : Nat) (specifier : String) :
    keyOf files r parent specifier =
      if isRelative specifier = false ∧ specifier ∈ returned.map (fun i => (r.record i).key) then some specifier
      else keyOf files (afresh path r) parent specifier := by
  rw [keyOf_eq met.recalls.sound met.recalls.backed,keyOf_afresh]
  simp only [met.recalls.isSome_iff]

end

/-- A script in the base directory and a package file of the same name. -/
def twins : Files :=
  Tree.files ⟨[(⟨"util.js"⟩,.file "exports.a=1"),(⟨"node_modules/util.js"⟩,.file "exports.b=2")]⟩

/-- The registry of the current directory after the script has been resolved. -/
def twinsMet : Registry := ((Registry.new ⟨"."⟩).resolve twins 1 "./util").2.1

theorem twins_met : Met twins ⟨"."⟩ [2] twinsMet := by
  have met : Met twins ⟨"."⟩ _ twinsMet := .resolve 1 "./util" .new (.inl rfl)
  have came : ((Registry.new ⟨"."⟩).resolve twins 1 "./util").1.toOption = some 2 := by decide +kernel
  rw [came] at met
  exact met

theorem keyOf_after_twins : Met twins ⟨"."⟩ [2] twinsMet ∧
    keyOf twins twinsMet twinsMet.main "util.js" = some "util.js" ∧
    keyOf twins twinsMet twinsMet.main "./util.js" = some "util.js" := by
  refine ⟨twins_met,?_,?_⟩
  · rw [keyOf_after_resolves twins_met,if_pos (by decide +kernel)]
  · rw [keyOf_after_resolves twins_met,if_neg (by decide +kernel)]
    decide +kernel

/-- The package file is found by its name only as long as the script has not been resolved. -/
theorem package_hidden_by_script : Met twins ⟨"."⟩ [2] twinsMet ∧
    keyOf twins twinsMet twinsMet.main "util.js" = some "util.js" ∧
    keyOf twins (afresh ⟨"."⟩ twinsMet) twinsMet.main "util.js" = some "node_modules/util.js" :=
  ⟨twins_met,by decide +kernel,by decide +kernel⟩

end ScriptHost.Registry
