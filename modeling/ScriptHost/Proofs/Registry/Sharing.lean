import Mathlib.Logic.Relation
import ScriptHost.Proofs.Registry.Stepping
/-!
One registry under many threads. Each resolve makes one step after another (`Point.next`), and between any two of them
other resolves may make theirs, modules may be registered, compiled and evaluated, the interpreter may be restarted,
and the files may change (`Shared.Move`). What is read lies between a lookup and an entry, so several threads may read
one file; but the entry is made only where there is still none (`Point.Step.entered`), so they all end with the one
record that was entered first (`one_record_for_key`).
-/
namespace ScriptHost

/-- A module without the traces of its compilation and its evaluations. -/
def Module.source (m : Module) : Module := { m with program := none, evaluatedIn := 0 }

theorem Module.key_of_source {m n : Module} (same : m.source = n.source) : m.key = n.key := by
  show m.source.key = n.source.key
  rw [same]

theorem Module.body_of_source {m n : Module} (same : m.source = n.source) : m.body = n.body := by
  show m.source.body = n.source.body
  rw [same]

namespace Registry

theorem source_update (r : Registry) (i : Nat) {f : Module → Module} (keeps : ∀ m, (f m).source = m.source) (j : Nat) :
    ((r.update i f).record j).source = (r.record j).source := by
  unfold Registry.record update
  rw [Array.getElem?_modify]
  by_cases same : i = j
  · subst same
    cases found : r.records[i]? with
    | none => simp
    | some m => simpa using keeps m
  · simp [same]

/-- What may become of a registry other than by resolves: modules are registered under some names, and the records that
are there are not replaced. -/
structure Touched (names : List String) (r t : Registry) : Prop where
  sound : Sound r → Sound t
  size : r.records.size ≤ t.records.size
  source : ∀ i < r.records.size, (t.record i).source = (r.record i).source
  find : ∀ key, key ∉ names → t.find? key = r.find? key
  cached : ∀ key, (r.find? key).isSome → (t.find? key).isSome

namespace Touched
variable {r t u : Registry}

theorem refl (r : Registry) : Touched [] r r :=
  ⟨id,Nat.le_refl _,fun _ _ => rfl,fun _ _ => rfl,fun _ => id⟩

theorem trans (first : Touched [] r t) (second : Touched [] t u) : Touched [] r u where
  sound sound := second.sound (first.sound sound)
  size := Nat.le_trans first.size second.size
  source i old := (second.source i (Nat.lt_of_lt_of_le old first.size)).trans (first.source i old)
  find key free := (second.find key free).trans (first.find key free)
  cached key some := second.cached key (first.cached key some)

theorem update (r : Registry) (i : Nat) {f : Module → Module} (keeps : ∀ m, (f m).source = m.source) :
    Touched [] r (r.update i f) where
  sound sound := sound_update sound fun m => Module.key_of_source (keeps m)
  size := Nat.le_of_eq (size_update r i f).symm
  source j _ := source_update r i keeps j
  find _ _ := rfl
  cached _ := id

theorem compile (check : Checker) (r : Registry) (i : Nat) : Touched [] r (compileModule check r i).2 := by
  rcases compile_eq check r i with same | ⟨p,serial,same⟩
  · rw [same]
    exact refl r
  · rw [same]
    have touched : Touched [] r (r.update i ({ · with program := some p })) := update r i fun m => rfl
    exact ⟨touched.sound,touched.size,touched.source,touched.find,touched.cached⟩

theorem reset (r : Registry) : Touched [] r r.reset := by
  unfold Registry.reset
  generalize r.table = entries
  induction entries generalizing r with
  | nil => exact refl r
  | cons entry entries ih => exact (update r entry.2 (f := ({ · with evaluatedIn := 0 })) fun m => rfl).trans (ih _)

theorem register (r : Registry) (m : Module) : Touched [m.key] r (r.setModule m) where
  sound sound := sound_setModule sound m
  size := by simp [Registry.setModule,Registry.add,Registry.insert]
  source i old := congrArg Module.source (record_add_of_lt old _)
  find key other := by
    rw [find_setModule,if_neg fun same => other (List.mem_singleton.mpr same)]
  cached key some := by
    rw [find_setModule]
    split
    · rfl
    · exact some

end Touched

/-! ### The system -/

/-- A resolve that was asked for, and how far it has come. -/
structure Asked where
  specifier : String
  point : Point

/-- A registry that threads resolve from: the resolves that were asked for, by their numbers; what has been read by
which of them, last one first; and the names under which modules were registered. -/
structure Shared where
  registry : Registry
  asked : List Asked
  reads : List (Nat × Path × Except IoFailure String)
  registered : List String

namespace Shared

def new (path : Path) : Shared := ⟨.new path,[],[],[]⟩

/-- A thread starts to resolve. -/
def ask (s : Shared) (parent : Nat) (specifier : String) : Shared :=
  { s with asked := s.asked ++ [⟨specifier,.start parent specifier⟩] }

/-- What a use of the files leaves in the record of reads. -/
def noted (files : Files) (n : Nat) : Option Access → List (Nat × Path × Except IoFailure String)
  | some (.read path) => [(n,path,files.read path)]
  | _ => []

/-- A resolve makes its next step. -/
def go (s : Shared) (files : Files) (n : Nat) (a : Asked) : Shared where
  registry := (a.point.next files s.registry).2.1
  asked := s.asked.set n ⟨a.specifier,(a.point.next files s.registry).1⟩
  reads := noted files n (a.point.next files s.registry).2.2 ++ s.reads
  registered := s.registered

/-- What happens next: a thread starts to resolve or goes on with it, whatever the files are at that time; a module is
registered, compiled or marked as evaluated; the transform is set, or the interpreter is restarted. -/
inductive Move : Shared → Shared → Prop where
  | ask {s : Shared} (parent : Nat) (specifier : String) : Move s (s.ask parent specifier)
  | go {s : Shared} (files : Files) {n : Nat} {a : Asked} (here : s.asked[n]? = some a) : Move s (s.go files n a)
  | register {s : Shared} (name body : String) (directory : Option Path) :
    Move s { s with
      registry := s.registry.setModule (.named name body directory)
      registered := name :: s.registered }
  | compile {s : Shared} (check : Checker) (i : Nat) :
    Move s { s with registry := (s.registry.compileModule check i).2 }
  | mark {s : Shared} (i generation : Nat) : Move s { s with registry := s.registry.markEvaluated i generation }
  | setTransform {s : Shared} (t : Option Transform) : Move s { s with registry := { s.registry with transform := t } }
  | restart {s : Shared} : Move s { s with registry := s.registry.reset }

/-- One moment comes after another one. -/
def Leads : Shared → Shared → Prop := Relation.ReflTransGen Move

/-- A resolve has ended with a record. -/
def Returned (s : Shared) (i : Nat) : Prop := ∃ (n : Nat) (a : Asked), s.asked[n]? = some a ∧ a.point = .done (.ok i)

section
variable {s t : Shared}

/-- Moves are of three kinds. -/
theorem Move.kinds (move : Move s t) : (∃ parent specifier, t = s.ask parent specifier) ∨
    (∃ files n a, s.asked[n]? = some a ∧ t = s.go files n a) ∨
    ∃ names, Touched names s.registry t.registry ∧ t.asked = s.asked ∧ t.reads = s.reads ∧
      t.registered = names ++ s.registered := by
  cases move with
  | ask parent specifier => exact .inl ⟨parent,specifier,rfl⟩
  | go files here => exact .inr (.inl ⟨files,_,_,here,rfl⟩)
  | register name body directory => exact .inr (.inr ⟨[name],.register _ (.named name body directory),rfl,rfl,rfl⟩)
  | compile check i => exact .inr (.inr ⟨[],.compile check _ i,rfl,rfl,rfl⟩)
  | mark i generation => exact .inr (.inr ⟨[],.update _ i fun m => rfl,rfl,rfl,rfl⟩)
  | setTransform t => exact .inr (.inr ⟨[],⟨id,Nat.le_refl _,fun _ _ => rfl,fun _ _ => rfl,fun _ => id⟩,rfl,rfl,rfl⟩)
  | restart => exact .inr (.inr ⟨[],.reset _,rfl,rfl,rfl⟩)

/-- The resolves after a step: the one that made it has come further, and the others have not. -/
theorem asked_go {files : Files} {n m : Nat} {a b : Asked} (here : s.asked[n]? = some a)
    (there : (s.go files n a).asked[m]? = some b) :
    (m = n ∧ b = ⟨a.specifier,(a.point.next files s.registry).1⟩) ∨ (m ≠ n ∧ s.asked[m]? = some b) := by
  unfold go at there
  rw [List.getElem?_set] at there
  by_cases same : n = m
  · subst same
    rw [if_pos rfl,if_pos (List.getElem?_eq_some_iff.mp here).1] at there
    exact .inl ⟨rfl,(Option.some.inj there).symm⟩
  · rw [if_neg same] at there
    exact .inr ⟨fun also => same also.symm,there⟩

theorem asked_ask {parent n : Nat} {specifier : String} {a : Asked}
    (there : (s.ask parent specifier).asked[n]? = some a) :
    s.asked[n]? = some a ∨ (n = s.asked.length ∧ a = ⟨specifier,.start parent specifier⟩) := by
  unfold ask at there
  rw [List.getElem?_append] at there
  split at there
  · exact .inl there
  · next beyond =>
    have last : n-s.asked.length < 1 := (List.getElem?_eq_some_iff.mp there).1
    have same : n = s.asked.length := by omega
    subst same
    exact .inr ⟨rfl,by simpa using there.symm⟩

theorem mem_noted {files : Files} {n m : Nat} {use : Option Access} {path : Path} {x : Except IoFailure String} :
    (m,path,x) ∈ noted files n use ↔ m = n ∧ use = some (.read path) ∧ x = files.read path := by
  unfold noted
  split
  · next p =>
    rw [List.mem_singleton]
    constructor
    · intro same
      cases same
      exact ⟨rfl,rfl,rfl⟩
    · rintro ⟨rfl,same,rfl⟩
      cases same
      rfl
  · next other =>
    exact ⟨fun member => (List.not_mem_nil member).elim,fun ⟨_,same,_⟩ => (other path same).elim⟩

/-! ### What is true at any time -/

/-- Every key but those of registered modules leads to what was read of its file, and the resolves that ended with
that key ended with the record to which it leads. -/
structure Traced (s : Shared) : Prop where
  sound : Sound s.registry
  brought : ∀ {n : Nat} {a : Asked} {parent : Nat} {specifier : String} {file : Path} {body : String},
    s.asked[n]? = some a → a.point = .enter parent specifier file body → (n,file,.ok body) ∈ s.reads
  backed : ∀ {key : String} {i : Nat}, key ∉ s.registered → s.registry.find? key = some i →
    ∃ n, (n,⟨key⟩,.ok (s.registry.record i).body) ∈ s.reads
  came : ∀ {n : Nat} {a : Asked} {i : Nat}, s.asked[n]? = some a → a.point = .done (.ok i) → i < s.registry.records.size ∧
    ((s.registry.record i).key ∉ s.registered → s.registry.find? (s.registry.record i).key = some i)
  numbered : ∀ {n : Nat} {path : Path} {x : Except IoFailure String}, (n,path,x) ∈ s.reads → n < s.asked.length

namespace Traced

theorem new (path : Path) : Traced (new path) where
  sound := (Made.new path).sound
  brought there := by cases there
  backed _ found := by cases found
  came there := by cases there
  numbered read := by cases read

theorem ask (traced : Traced s) (parent : Nat) (specifier : String) : Traced (s.ask parent specifier) where
  sound := traced.sound
  brought there enters := by
    rcases asked_ask there with old | ⟨-,rfl⟩
    · exact traced.brought old enters
    · rcases Point.start_cases parent specifier with same | same <;> cases same.symm.trans enters
  backed := traced.backed
  came there ends := by
    rcases asked_ask there with old | ⟨-,rfl⟩
    · exact traced.came old ends
    · rcases Point.start_cases parent specifier with same | same <;> cases same.symm.trans ends
  numbered read := by
    have before := traced.numbered read
    simp only [Shared.ask,List.length_append]
    omega

theorem go (traced : Traced s) (files : Files) {n : Nat} {a : Asked} (here : s.asked[n]? = some a) :
    Traced (s.go files n a) where
  sound := (Point.step_next files s.registry a.point).grows.sound traced.sound
  brought there enters := by
    rcases asked_go here there with ⟨rfl,rfl⟩ | ⟨-,old⟩
    · obtain ⟨use,read⟩ := (Point.step_next files s.registry a.point).read_of_enter enters
      exact List.mem_append_left _ (mem_noted.mpr ⟨rfl,use,read.symm⟩)
    · exact List.mem_append_right _ (traced.brought old enters)
  backed {key i} free found := by
    have step := Point.step_next files s.registry a.point
    rcases step.entered_of_find found with old | ⟨parent,specifier,enters⟩
    · obtain ⟨m,read⟩ := traced.backed free old
      refine ⟨m,List.mem_append_right _ ?_⟩
      have same := step.grows.record (traced.sound key i old).1
      exact same ▸ read
    · exact ⟨n,List.mem_append_right _ (traced.brought here enters)⟩
  came {m b i} there ends := by
    have step := Point.step_next files s.registry a.point
    have kept : ∀ {m : Nat} {b : Asked}, s.asked[m]? = some b → b.point = .done (.ok i) →
        i < (s.go files n a).registry.records.size ∧
        (((s.go files n a).registry.record i).key ∉ s.registered →
          (s.go files n a).registry.find? ((s.go files n a).registry.record i).key = some i) := by
      intro m b old ends
      obtain ⟨inside,leads⟩ := traced.came old ends
      have same : (s.go files n a).registry.record i = s.registry.record i := step.grows.record inside
      refine ⟨Nat.lt_of_lt_of_le inside step.grows.size,fun free => ?_⟩
      rw [same] at free ⊢
      exact step.grows.kept _ i (leads free)
    rcases asked_go here there with ⟨rfl,rfl⟩ | ⟨-,old⟩
    · rcases step.find_of_done traced.sound ends with before | found
      · exact kept here before
      · exact ⟨(step.grows.sound traced.sound _ i found).1,fun _ => found⟩
    · exact kept old ends
  numbered read := by
    have inside : n < s.asked.length := (List.getElem?_eq_some_iff.mp here).1
    simp only [Shared.go,List.length_set]
    rcases List.mem_append.mp read with new | old
    · exact (mem_noted.mp new).1 ▸ inside
    · exact traced.numbered old

theorem touch (traced : Traced s) {names : List String} (touched : Touched names s.registry t.registry)
    (asked : t.asked = s.asked) (reads : t.reads = s.reads) (registered : t.registered = names ++ s.registered) :
    Traced t where
  sound := touched.sound traced.sound
  brought there enters := reads ▸ traced.brought (asked ▸ there) enters
  backed {key i} free found := by
    rw [registered] at free
    rw [touched.find key fun named => free (List.mem_append_left _ named)] at found
    obtain ⟨n,read⟩ := traced.backed (fun old => free (List.mem_append_right _ old)) found
    have same := touched.source i (traced.sound key i found).1
    have body : (t.registry.record i).body = (s.registry.record i).body := Module.body_of_source same
    rw [reads,body]
    exact ⟨n,read⟩
  came {n a i} there ends := by
    obtain ⟨inside,leads⟩ := traced.came (asked ▸ there) ends
    have same := touched.source i inside
    have key : (t.registry.record i).key = (s.registry.record i).key := Module.key_of_source same
    refine ⟨Nat.lt_of_lt_of_le inside touched.size,fun free => ?_⟩
    rw [key,registered] at *
    rw [touched.find _ fun named => free (List.mem_append_left _ named)]
    exact leads fun old => free (List.mem_append_right _ old)
  numbered read := by
    rw [asked]
    exact traced.numbered (reads ▸ read)

theorem move (traced : Traced s) (move : Move s t) : Traced t := by
  rcases move.kinds with ⟨parent,specifier,rfl⟩ | ⟨files,n,a,here,rfl⟩ | ⟨names,touched,asked,reads,registered⟩
  · exact traced.ask parent specifier
  · exact traced.go files here
  · exact traced.touch touched asked reads registered

theorem leads (traced : Traced s) (leads : Leads s t) : Traced t := by
  induction leads with
  | refl => exact traced
  | tail before move traced => exact traced.move move

end Traced

/-! ### From one moment to a later one -/

/-- What is there stays there: the records, and the keys that lead to them unless they are registered. -/
structure Follows (s t : Shared) : Prop where
  size : s.registry.records.size ≤ t.registry.records.size
  source : ∀ i < s.registry.records.size, (t.registry.record i).source = (s.registry.record i).source
  find : ∀ {key i}, key ∉ t.registered → s.registry.find? key = some i → t.registry.find? key = some i
  registered : s.registered ⊆ t.registered
  reads : s.reads ⊆ t.reads

theorem Move.follows (move : Move s t) : Follows s t := by
  rcases move.kinds with ⟨parent,specifier,rfl⟩ | ⟨files,n,a,here,rfl⟩ | ⟨names,touched,asked,reads,registered⟩
  · exact ⟨Nat.le_refl _,fun _ _ => rfl,fun _ found => found,List.Subset.refl _,List.Subset.refl _⟩
  · have grows := (Point.step_next files s.registry a.point).grows
    exact ⟨grows.size,fun i old => congrArg Module.source (grows.record old),fun {key i} _ => grows.kept key i,
      List.Subset.refl _,List.subset_append_right _ _⟩
  · refine ⟨touched.size,touched.source,fun {key i} free found => ?_,?_,?_⟩
    · rw [registered] at free
      rw [touched.find key fun named => free (List.mem_append_left _ named)]
      exact found
    · rw [registered]
      exact List.subset_append_right _ _
    · rw [reads]
      exact List.Subset.refl _

theorem Leads.follows (leads : Leads s t) : Follows s t := by
  induction leads with
  | refl => exact ⟨Nat.le_refl _,fun _ _ => rfl,fun _ found => found,List.Subset.refl _,List.Subset.refl _⟩
  | tail before move first =>
    have second := move.follows
    exact ⟨Nat.le_trans first.size second.size,
      fun i old => (second.source i (Nat.lt_of_lt_of_le old first.size)).trans (first.source i old),
      fun free found => second.find free (first.find (fun old => free (second.registered old)) found),
      List.Subset.trans first.registered second.registered,List.Subset.trans first.reads second.reads⟩

/-- A key that leads to a record, and the file of that key, which no relative resolve has read that was asked for
after so many others. -/
structure Spared (key : String) (first : Nat) (s : Shared) : Prop where
  cached : (s.registry.find? key).isSome
  plain : ∀ {n a}, first ≤ n → s.asked[n]? = some a → isRelative a.specifier = true → a.point.Plain
  away : ∀ {n a parent specifier}, first ≤ n → s.asked[n]? = some a → isRelative a.specifier = true →
    a.point ≠ .fetch parent specifier ⟨key⟩
  unread : ∀ {n a x}, first ≤ n → s.asked[n]? = some a → isRelative a.specifier = true → (n,⟨key⟩,x) ∉ s.reads

namespace Spared
variable {key : String} {first : Nat}

/-- No resolve has been asked for later than all of them. -/
theorem now (cached : (s.registry.find? key).isSome) : Spared key s.asked.length s where
  cached := cached
  plain le there := absurd (List.getElem?_eq_some_iff.mp there).1 (Nat.not_lt.mpr le)
  away le there := absurd (List.getElem?_eq_some_iff.mp there).1 (Nat.not_lt.mpr le)
  unread le there := absurd (List.getElem?_eq_some_iff.mp there).1 (Nat.not_lt.mpr le)

theorem ask (spared : Spared key first s) (traced : Traced s) (parent : Nat) (specifier : String) :
    Spared key first (s.ask parent specifier) where
  cached := spared.cached
  plain le there relative := by
    rcases asked_ask there with old | ⟨-,rfl⟩
    · exact spared.plain le old relative
    · exact Point.plain_start relative
  away le there relative := by
    rcases asked_ask there with old | ⟨-,rfl⟩
    · exact spared.away le old relative
    · intro fetches
      rcases Point.start_cases parent specifier with same | same <;> cases same.symm.trans fetches
  unread le there relative read := by
    rcases asked_ask there with old | ⟨rfl,-⟩
    · exact spared.unread le old relative read
    · exact absurd (traced.numbered read) (Nat.lt_irrefl _)

theorem go (spared : Spared key first s) (files : Files) {n : Nat} {a : Asked} (here : s.asked[n]? = some a) :
    Spared key first (s.go files n a) := by
  have step := Point.step_next files s.registry a.point
  have cached : ((a.point.next files s.registry).2.1.find? key).isSome := by
    obtain ⟨i,found⟩ := Option.isSome_iff_exists.mp spared.cached
    exact Option.isSome_iff_exists.mpr ⟨i,step.grows.kept key i found⟩
  refine ⟨cached,fun le there relative => ?_,fun le there relative => ?_,fun le there relative read => ?_⟩
  · rcases asked_go here there with ⟨rfl,rfl⟩ | ⟨-,old⟩
    · exact step.plain (spared.plain le here relative)
    · exact spared.plain le old relative
  · rcases asked_go here there with ⟨rfl,rfl⟩ | ⟨-,old⟩
    · intro fetches
      rw [step.new_of_fetch fetches] at cached
      cases cached
    · exact spared.away le old relative
  · rcases asked_go here there with ⟨rfl,rfl⟩ | ⟨other,old⟩
    · rcases List.mem_append.mp read with new | before
      · obtain ⟨parent,specifier,fetches⟩ :=
          step.fetch_of_read (spared.plain le here relative) (mem_noted.mp new).2.1
        exact spared.away le here relative fetches
      · exact spared.unread le here relative before
    · rcases List.mem_append.mp read with new | before
      · exact other (mem_noted.mp new).1
      · exact spared.unread le old relative before

theorem move (spared : Spared key first s) (traced : Traced s) (move : Move s t) : Spared key first t := by
  rcases move.kinds with ⟨parent,specifier,rfl⟩ | ⟨files,n,a,here,rfl⟩ | ⟨names,touched,asked,reads,registered⟩
  · exact spared.ask traced parent specifier
  · exact spared.go files here
  · exact ⟨touched.cached key spared.cached,fun le there => spared.plain le (asked ▸ there),
      fun le there => spared.away le (asked ▸ there),fun le there relative =>
        reads ▸ spared.unread le (asked ▸ there) relative⟩

theorem leads (spared : Spared key first s) (traced : Traced s) (leads : Leads s t) : Spared key first t := by
  induction leads with
  | refl => exact spared
  | tail before move spared => exact spared.move (traced.leads before) move

end Spared

/-- Whatever threads do at the same time, and whatever becomes of the files, all resolves that end with a key that no
module is registered under end with the same record, now and at any later time, and its body is what one of them has
read. A step of a resolve leaves every record, and every key leads to the record to which it led before. As soon as a
key leads to a record, no relative resolve that is asked for reads its file any more. -/
theorem one_record_for_key {path : Path} (reached : Leads (new path) s) (later : Leads s t) {key : String}
    (unregistered : key ∉ t.registered) :
    (∀ i, s.Returned i → (s.registry.record i).key = key →
      t.registry.find? key = some i ∧ (t.registry.record i).source = (s.registry.record i).source ∧
      (∃ n, (n,⟨key⟩,.ok (s.registry.record i).body) ∈ s.reads) ∧
      ∀ j, t.Returned j → (t.registry.record j).key = key → j = i) ∧
    (∀ files n a, s.asked[n]? = some a → ∀ k i, s.registry.find? k = some i →
      (s.go files n a).registry.find? k = some i ∧ (s.go files n a).registry.record i = s.registry.record i) ∧
    ((s.registry.find? key).isSome → ∀ n a, s.asked.length ≤ n → t.asked[n]? = some a →
      isRelative a.specifier = true → ∀ x, (n,⟨key⟩,x) ∉ t.reads) := by
  have traced : Traced s := (Traced.new path).leads reached
  have traced' : Traced t := traced.leads later
  have follows := later.follows
  have free : key ∉ s.registered := fun old => unregistered (follows.registered old)
  refine ⟨fun i => ?_,fun files n a here k i found => ?_,fun cached n a le there relative x => ?_⟩
  · rintro ⟨n,a,here,ends⟩ rfl
    obtain ⟨inside,leads⟩ := traced.came here ends
    have found := follows.find unregistered (leads free)
    refine ⟨found,follows.source i inside,traced.backed free (leads free),?_⟩
    rintro j ⟨m,b,there,ends'⟩ same
    have found' := (traced'.came there ends').2 (same ▸ unregistered)
    rw [same,found] at found'
    exact (Option.some.inj found').symm
  · have grows := (Point.step_next files s.registry a.point).grows
    exact ⟨grows.kept k i found,grows.record (traced.sound k i found).1⟩
  · exact ((Spared.now cached).leads traced later).unread le there relative

/-- The resolve of a number makes its next step, if there is one. -/
def turn (s : Shared) (files : Files) (n : Nat) : Shared :=
  match s.asked[n]? with
  | some a => s.go files n a
  | none => s

/-- Resolves take turns. -/
def turns (s : Shared) : List (Files × Nat) → Shared
  | [] => s
  | (files,n) :: rest => (s.turn files n).turns rest

theorem leads_turns (s : Shared) (l : List (Files × Nat)) : Leads s (s.turns l) := by
  induction l generalizing s with
  | nil => exact .refl
  | cons next rest ih =>
    refine Relation.ReflTransGen.trans ?_ (ih _)
    unfold turn
    split
    · next a here => exact .single (.go next.1 here)
    · exact .refl

/-- The records with which the resolves have ended. -/
def outcomes (s : Shared) : List (Option Nat) :=
  s.asked.map fun a => match a.point with
    | .done outcome => outcome.toOption
    | _ => none

theorem returned_of_outcomes {i : Nat} (member : some i ∈ s.outcomes) : s.Returned i := by
  obtain ⟨a,inside,ends⟩ := List.mem_map.mp member
  obtain ⟨n,here⟩ := List.mem_iff_getElem?.mp inside
  refine ⟨n,a,here,?_⟩
  split at ends
  · next outcome point =>
    rw [point]
    cases outcome with
    | ok j => cases ends; rfl
    | error e => cases ends
  · cases ends

end

/-- A script with a text. -/
def scriptOf (text : String) : Files := Tree.files ⟨[(⟨"/a/x.js"⟩,.file text)]⟩

/-- Two threads resolve a script that changes meanwhile: both miss it, each reads another text, and the second one
enters it first. -/
def raced : Shared :=
  ((((new ⟨"/a"⟩).ask 1 "./x.js").ask 1 "./x.js").turns
    [(scriptOf "1",0),(scriptOf "1",1),(scriptOf "1",0),(scriptOf "1",1),(scriptOf "1",0),(scriptOf "2",1)]).turns
    [(scriptOf "2",1),(scriptOf "2",0)]

/-- Then the interpreter is restarted, and the script is resolved once more. -/
def racedAgain : Shared :=
  (({ raced with registry := raced.registry.reset } : Shared).ask 1 "./x.js").turns [(.none,2),(.none,2)]

theorem raced_leads : Leads (new ⟨"/a"⟩) raced ∧ Leads raced racedAgain := by
  constructor
  · exact .trans (.trans (.tail (.single (.ask 1 "./x.js")) (.ask 1 "./x.js")) (leads_turns _ _)) (leads_turns _ _)
  · exact .trans (.tail (.single .restart) (.ask 1 "./x.js")) (leads_turns _ _)

theorem one_record_for_key_of_race : Leads (new ⟨"/a"⟩) raced ∧ Leads raced racedAgain ∧
    "/a/x.js" ∉ racedAgain.registered ∧ raced.outcomes = [some 2,some 2] ∧ racedAgain.outcomes = [some 2,some 2,some 2] ∧
    racedAgain.registry.find? "/a/x.js" = some 2 ∧
    (∃ n, (n,⟨"/a/x.js"⟩,.ok (raced.registry.record 2).body) ∈ raced.reads) ∧
    (∀ x, (2,⟨"/a/x.js"⟩,x) ∉ racedAgain.reads) := by
  have free : "/a/x.js" ∉ racedAgain.registered := by decide +kernel
  have ends : raced.outcomes = [some 2,some 2] ∧ racedAgain.outcomes = [some 2,some 2,some 2] ∧
      (raced.registry.record 2).key = "/a/x.js" ∧ raced.asked.length = 2 ∧
      (raced.registry.find? "/a/x.js").isSome ∧
      racedAgain.asked.map (·.specifier) = ["./x.js","./x.js","./x.js"] ∧ isRelative "./x.js" = true := by
    decide +kernel
  obtain ⟨ends,again,key,two,cached,asked,relative⟩ := ends
  obtain ⟨same,-,unread⟩ := one_record_for_key raced_leads.1 raced_leads.2 free
  have returned : raced.Returned 2 := returned_of_outcomes (ends ▸ List.mem_cons_self)
  obtain ⟨found,-,read,-⟩ := same 2 returned key
  refine ⟨raced_leads.1,raced_leads.2,free,ends,again,found,read,?_⟩
  obtain ⟨a,here,specifier⟩ : ∃ a, racedAgain.asked[2]? = some a ∧ a.specifier = "./x.js" := by
    have third : (racedAgain.asked.map (·.specifier))[2]? = some "./x.js" := by rw [asked]; rfl
    rw [List.getElem?_map] at third
    exact Option.map_eq_some_iff.mp third
  exact unread cached 2 a (Nat.le_of_eq two) here (specifier ▸ relative)

end Shared

end Registry

end ScriptHost
