import ScriptHost.Proofs.Registry.Destination
/-!
How a registry grows. A resolve adds records behind the others and lets keys lead to them that led nowhere
before; it never changes a record or a key that is there (`Grows`). In a registry that was made by the
operations on registries every key leads to a record with that very key (`Sound`).
-/
namespace ScriptHost.Registry

theorem lookup_filter {α : Type} (l : List (String × α)) {key k : String} (apart : k ≠ key) :
    (l.filter (·.1 ≠ key)).lookup k = l.lookup k := by
  induction l with
  | nil => rfl
  | cons entry l ih =>
    obtain ⟨name,value⟩ := entry
    rw [List.filter_cons,List.lookup_cons]
    by_cases same : name = key
    · have other : (k == name) = false := by simpa [same] using apart
      simp only [same,ne_eq,not_true_eq_false,decide_false,Bool.false_eq_true,if_false]
      rw [ih,← same,other]
    · simp only [same,ne_eq,not_false_eq_true,decide_true,if_true]
      rw [List.lookup_cons,ih]

theorem find_insert (r : Registry) (key k : String) (i : Nat) :
    (r.insert key i).find? k = if k = key then some i else r.find? k := by
  unfold find? insert
  rw [List.lookup_cons]
  by_cases same : k = key
  · simp [same]
  · rw [if_neg same,lookup_filter r.table same]
    have other : (k == key) = false := by simpa using same
    rw [other]

/-- Every key leads to a record that it is the key of. -/
def Sound (r : Registry) : Prop := ∀ key i, r.find? key = some i → i < r.records.size ∧ (r.record i).key = key

/-- What a resolve may do to a registry. -/
structure Grows (r t : Registry) : Prop where
  records : ∃ new : Array Module, t.records = r.records ++ new ∧ ∀ m ∈ new, m.evaluatedIn = 0
  kept : ∀ key i, r.find? key = some i → t.find? key = some i
  fresh : ∀ key i, r.find? key = none → t.find? key = some i →
    r.records.size ≤ i ∧ i < t.records.size ∧ (t.record i).key = key

namespace Grows
variable {r t u : Registry}

theorem refl (r : Registry) : Grows r r :=
  ⟨⟨#[],by simp,by simp⟩,fun _ _ found => found,fun key i none found => by simp [none] at found⟩

theorem record (grows : Grows r t) {i : Nat} (old : i < r.records.size) : t.record i = r.record i := by
  obtain ⟨new,same,-⟩ := grows.records
  unfold Registry.record
  rw [same,Array.getElem?_append_left old]

theorem size (grows : Grows r t) : r.records.size ≤ t.records.size := by
  obtain ⟨new,same,-⟩ := grows.records
  rw [same,Array.size_append]
  exact Nat.le_add_right _ _

/-- A record that was added has not been evaluated. -/
theorem evaluatedIn (grows : Grows r t) {i : Nat} (new : r.records.size ≤ i) : (t.record i).evaluatedIn = 0 := by
  obtain ⟨added,same,unevaluated⟩ := grows.records
  unfold Registry.record
  rw [same,Array.getElem?_append_right new]
  cases found : added[i-r.records.size]? with
  | none => rfl
  | some m => exact unevaluated m (Array.mem_of_getElem? found)

theorem trans (first : Grows r t) (second : Grows t u) : Grows r u := by
  obtain ⟨new,same,unevaluated⟩ := first.records
  obtain ⟨more,also,unevaluated'⟩ := second.records
  refine ⟨⟨new ++ more,by rw [also,same,Array.append_assoc],fun m member => ?_⟩,
    fun key i found => second.kept key i (first.kept key i found),fun key i none found => ?_⟩
  · rcases Array.mem_append.mp member with old | later
    · exact unevaluated m old
    · exact unevaluated' m later
  · cases between : t.find? key with
    | none =>
      obtain ⟨le,lt,same⟩ := second.fresh key i between found
      exact ⟨Nat.le_trans first.size le,lt,same⟩
    | some j =>
      have same : some j = some i := (second.kept key j between).symm.trans found
      cases same
      obtain ⟨le,lt,same⟩ := first.fresh key i none between
      exact ⟨le,Nat.lt_of_lt_of_le lt second.size,by rw [second.record lt,same]⟩

theorem sound (grows : Grows r t) (sound : Sound r) : Sound t := by
  intro key i found
  cases before : r.find? key with
  | none => exact (grows.fresh key i before found).2
  | some j =>
    have same : some j = some i := (grows.kept key j before).symm.trans found
    cases same
    obtain ⟨lt,same⟩ := sound key i before
    exact ⟨Nat.lt_of_lt_of_le lt grows.size,by rw [grows.record lt,same]⟩

/-- A record is added, and at most its own key leads to it. -/
theorem add (r : Registry) {m : Module} (unevaluated : m.evaluatedIn = 0) : Grows r (r.add m).2 :=
  ⟨⟨#[m],by simp [Registry.add],by simpa using unevaluated⟩,fun _ _ found => found,
    fun key i none found => by cases none.symm.trans found⟩

theorem insert {r : Registry} {m : Module} (unevaluated : m.evaluatedIn = 0) (new : r.find? m.key = none) :
    Grows r ((r.add m).2.insert m.key r.records.size) := by
  refine ⟨(add r unevaluated).records,fun key i found => ?_,fun key i none found => ?_⟩
  · rw [find_insert]
    split
    · next same => cases (same ▸ found).symm.trans new
    · exact found
  · rw [find_insert] at found
    split at found
    · next same =>
      cases found
      refine ⟨Nat.le_refl _,?_,?_⟩
      · simp [Registry.insert,Registry.add]
      · simp [Registry.insert,Registry.add,Registry.record,same]
    · cases none.symm.trans found

end Grows

/-! ### Resolving -/

section
variable {r : Registry}

@[simp] theorem record_add (r : Registry) (m : Module) : (r.add m).2.record r.records.size = m := by
  simp [Registry.record,Registry.add]

theorem record_add_of_lt {i : Nat} (old : i < r.records.size) (m : Module) : (r.add m).2.record i = r.record i := by
  simp [Registry.add,Registry.record,Array.getElem?_push,Nat.ne_of_lt old]

@[simp] theorem record_insert (r : Registry) (key : String) (i j : Nat) : (r.insert key i).record j = r.record j := rfl

/-- The registry grows, and a walk that ends with a record ends with one to which its key leads. -/
def Leads (r : Registry) : Except Failure Nat × Registry → Prop
  | (outcome,t) => Grows r t ∧ ∀ i, outcome = .ok i → t.find? (t.record i).key = some i

theorem leads_found (sound : Sound r) {key : String} {i : Nat} (found : r.find? key = some i) : Leads r (.ok i,r) := by
  refine ⟨.refl r,fun j done => ?_⟩
  cases done
  rw [(sound key i found).2,found]

theorem leads_error (r : Registry) (e : Failure) : Leads r (.error e,r) := ⟨.refl r,nofun⟩

theorem leads_load (files : Files) (sound : Sound r) (parent : Nat) (specifier : String) (path : Path) :
    Leads r (load files r parent specifier path) := by
  unfold load
  cases new : r.find? path.text with
  | some i => exact leads_found sound new
  | none =>
    cases files.read path with
    | error e => exact leads_error r _
    | ok body =>
      refine ⟨Grows.insert (m := .ofFile specifier path body parent) rfl new,fun i done => ?_⟩
      cases done
      rw [record_insert,record_add,find_insert]
      exact if_pos rfl

theorem leads_request (files : Files) (sound : Sound r) (parent : Nat) (specifier : String) :
    Leads r (request files r parent specifier) := by
  unfold request
  split
  · exact leads_load files sound _ _ _
  · cases found : r.find? specifier with
    | some i => exact leads_found sound found
    | none =>
      cases entry files (r.record (r.anchor parent)) specifier with
      | error e => exact leads_error r e
      | ok spot =>
        -- The record of the package is added first, and no key leads to it.
        have grows : Grows r (r.add (package r parent specifier spot)).2 := Grows.add r rfl
        obtain ⟨more,leads⟩ := leads_load files (grows.sound sound) r.records.size ("./" ++ spot.2) _
        exact ⟨grows.trans more,leads⟩

/-- A resolve only makes the registry grow, and ends with a record to which its key leads. -/
theorem resolve_grows {files : Files} {t : Registry} {parent : Nat} {specifier : String}
    {outcome : Except Failure Nat} {accesses : List Access} (sound : Sound r)
    (resolved : r.resolve files parent specifier = (outcome,t,accesses)) :
    Grows r t ∧ ∀ i, outcome = .ok i → t.find? (t.record i).key = some i := by
  obtain ⟨uses,same⟩ := resolve_request files r parent specifier
  cases resolved.symm.trans same
  exact leads_request files sound parent specifier

/-- A key that is no relative specifier leads to its record, and nothing is looked up. -/
theorem resolve_registered {files : Files} {parent i : Nat} {specifier : String}
    (bare : isRelative specifier = false) (found : r.find? specifier = some i) :
    r.resolve files parent specifier = (.ok i,r,[]) := by
  have ends : (resolveFrom parent specifier).outcome files ⟨r,[]⟩ = (.ok i,⟨r,[]⟩) := by
    unfold resolveFrom resolveBare
    rw [bare]
    show (Lookup.registry >>= _).outcome files ⟨r,[]⟩ = _
    rw [Lookup.outcome_bind]
    have registry : Lookup.registry.outcome files ⟨r,[]⟩ = (.ok r,⟨r,[]⟩) := rfl
    rw [registry]
    simp only [found]
    rfl
  unfold Lookup.outcome at ends
  unfold resolve
  rw [ends]
  rfl

/-! ### The other operations -/

@[simp] theorem size_update (r : Registry) (i : Nat) (f : Module → Module) :
    (r.update i f).records.size = r.records.size := Array.size_modify

theorem record_update (r : Registry) {i : Nat} (f : Module → Module) (old : i < r.records.size) (j : Nat) :
    (r.update i f).record j = if i = j then f (r.record j) else r.record j := by
  unfold Registry.record update
  rw [Array.getElem?_modify]
  by_cases same : i = j
  · subst same
    simp [old]
  · simp [same]

/-- A change that leaves the key of every record. -/
theorem key_update (r : Registry) (i : Nat) {f : Module → Module} (keeps : ∀ m, (f m).key = m.key) (j : Nat) :
    ((r.update i f).record j).key = (r.record j).key := by
  unfold Registry.record update
  rw [Array.getElem?_modify]
  by_cases same : i = j
  · subst same
    cases found : r.records[i]? with
    | none => simp
    | some m => simpa using keeps m
  · simp [same]

theorem sound_update {i : Nat} {f : Module → Module} (sound : Sound r) (keeps : ∀ m, (f m).key = m.key) :
    Sound (r.update i f) := by
  intro key j found
  obtain ⟨lt,same⟩ := sound key j found
  exact ⟨by simpa using lt,by rw [key_update r i keeps,same]⟩

/-- What a compilation does to a registry: nothing, or it keeps a program in the record. -/
theorem compile_eq (check : Checker) (r : Registry) (i : Nat) :
    (compileModule check r i).2 = r ∨
      ∃ p serial, (compileModule check r i).2 = { r.update i ({ · with program := some p }) with serial } := by
  simp only [compileModule]
  split
  · exact .inl rfl
  · split
    · exact .inr ⟨_,_,rfl⟩
    · split
      · exact .inl rfl
      · split
        · exact .inl rfl
        · split
          · exact .inr ⟨_,_,rfl⟩
          · exact .inl rfl

/-- A body that parses compiles. -/
theorem compile_ok {check : Checker} {i : Nat}
    (parses : check (r.record i).key (Module.wrap (r.record i).body) = .ok ()) :
    ∃ p t, r.compileModule check i = (.ok p,t) := by
  simp only [compileModule,parses]
  split
  · exact ⟨_,_,rfl⟩
  · exact ⟨_,_,rfl⟩

theorem compile_keeps (check : Checker) (r : Registry) (i j : Nat) :
    ((compileModule check r i).2.record j).key = (r.record j).key ∧
      ((compileModule check r i).2.record j).evaluatedIn = (r.record j).evaluatedIn := by
  rcases compile_eq check r i with same | ⟨p,serial,same⟩
  · rw [same]
    exact ⟨rfl,rfl⟩
  · rw [same]
    show ((r.update i _).record j).key = _ ∧ ((r.update i _).record j).evaluatedIn = _
    unfold Registry.record update
    rw [Array.getElem?_modify]
    by_cases own : i = j
    · subst own
      cases found : r.records[i]? with
      | none => simp
      | some m => simp
    · simp [own]

theorem compile_find (check : Checker) (r : Registry) (i : Nat) (key : String) :
    (compileModule check r i).2.find? key = r.find? key := by
  rcases compile_eq check r i with same | ⟨p,serial,same⟩
  · rw [same]
  · rw [same]
    rfl

theorem compile_size (check : Checker) (r : Registry) (i : Nat) :
    (compileModule check r i).2.records.size = r.records.size := by
  rcases compile_eq check r i with same | ⟨p,serial,same⟩
  · rw [same]
  · rw [same]
    exact size_update r i _

theorem sound_compile (sound : Sound r) (check : Checker) (i : Nat) : Sound (compileModule check r i).2 := by
  intro key j found
  rw [compile_find] at found
  obtain ⟨lt,same⟩ := sound key j found
  exact ⟨by rwa [compile_size],by rw [(compile_keeps check r i j).1,same]⟩

theorem sound_mark (sound : Sound r) (i generation : Nat) : Sound (r.markEvaluated i generation) :=
  sound_update sound fun _ => rfl

theorem sound_insert (sound : Sound r) (m : Module) : Sound ((r.add m).2.insert m.key r.records.size) := by
  intro key i found
  rw [find_insert] at found
  split at found
  · next same =>
    cases found
    simp [Registry.insert,Registry.add,Registry.record,same]
  · obtain ⟨lt,same⟩ := sound key i found
    have old : ((r.add m).2.insert m.key r.records.size).record i = r.record i := record_add_of_lt lt m
    exact ⟨by simpa [Registry.insert,Registry.add] using Nat.lt_succ_of_lt lt,by rw [old,same]⟩

theorem sound_setModule (sound : Sound r) (m : Module) : Sound (r.setModule m) := sound_insert sound _

theorem find_setModule (r : Registry) (m : Module) (key : String) :
    (r.setModule m).find? key = if key = m.key then some r.records.size else r.find? key := by
  have same : (if m.path.text.isEmpty then { m with path := r.base } else m).key = m.key := by split <;> rfl
  refine (find_insert (r.add _).2 _ key r.records.size).trans ?_
  rw [same]
  rfl

theorem sound_reset (sound : Sound r) : Sound r.reset := by
  unfold reset
  generalize r.table = entries
  induction entries generalizing r with
  | nil => exact sound
  | cons entry entries ih => exact ih (sound_update sound fun _ => rfl)

end

/-- What a require may do to a registry. -/
inductive Change (files : Files) (check : Checker) (r : Registry) : Registry → Prop where
  | resolve (parent : Nat) (specifier : String) : Change files check r (r.resolve files parent specifier).2.1
  | compile (i : Nat) : Change files check r (compileModule check r i).2
  | mark (i generation : Nat) : Change files check r (r.markEvaluated i generation)

/-- The registries that there can be. -/
inductive Made : Registry → Prop where
  | new (path : Path) : Made (.new path)
  | setModule {r : Registry} (m : Module) (before : Made r) : Made (r.setModule m)
  | setTransform {r : Registry} (t : Option Transform) (before : Made r) : Made { r with transform := t }
  | reset {r : Registry} (before : Made r) : Made r.reset
  | change {r t : Registry} {files : Files} {check : Checker} (before : Made r)
    (change : Change files check r t) : Made t

theorem Change.sound {files : Files} {check : Checker} {r t : Registry} (sound : Sound r)
    (change : Change files check r t) : Sound t := by
  cases change with
  | resolve parent specifier => exact (resolve_grows sound rfl).1.sound sound
  | compile i => exact sound_compile sound check i
  | mark i generation => exact sound_mark sound i generation

theorem Made.sound {r : Registry} (made : Made r) : Sound r := by
  induction made with
  | new path => exact fun key i found => by cases found
  | setModule m before sound => exact sound_setModule sound m
  | setTransform t before sound => exact sound
  | reset before sound => exact sound_reset sound
  | change before change sound => exact change.sound sound

end ScriptHost.Registry
