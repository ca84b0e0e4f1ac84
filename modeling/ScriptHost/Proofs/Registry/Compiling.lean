import ScriptHost.Proofs.Registry.Growth
/-!
The programs of modules over the whole life of a registry. A call that compiles a module comes to what the program that
is kept, the check and the transform in force make of its body (`Ruling`), and it runs the transform at most once. The
events of a registry are the transforms that were set and the calls (`Life`). What is in force and what is kept can be
read off them: a record has the program of its first call that succeeded, and every later call returns that very
program, whatever was set, required, registered or started again in between (`life_ledger`).
-/
namespace ScriptHost.Registry

/-! ### One call -/

/-- A text becomes the program of a record. -/
def keep (r : Registry) (i : Nat) (source : String) : Except Failure Program × Registry :=
  (.ok ⟨(r.record i).key,source,r.serial⟩,
    { r.update i ({ · with program := some ⟨(r.record i).key,source,r.serial⟩ }) with serial := r.serial + 1 })

/-- The wrapper of a module, where what the transform makes of the body is asked for. -/
def compileAsking {m : Type → Type} [Monad m] (check : Checker) (ask : Transform → String → m (Except String String))
    (r : Registry) (i : Nat) : m (Except Failure Program × Registry) :=
  match (r.record i).program with
  | some p => return (.ok p,r)
  | none =>
    match check (r.record i).key (Module.wrap (r.record i).body) with
    | .ok () => return keep r i (Module.wrap (r.record i).body)
    | .error refusal =>
      match r.transform with
      | none => return (.error refusal,r)
      | some t => do
        match ← ask t (r.record i).body with
        | .error text => return (.error (.transform text),r)
        | .ok body =>
          match check (r.record i).key (Module.wrap body) with
          | .ok () => return keep r i (Module.wrap body)
          | .error e => return (.error e,r)

/-- Apply a transform, and note the text that it is run on. -/
def noting (t : Transform) (body : String) : StateM (List String) (Except String String) :=
  fun noted => (t body,body :: noted)

/-- The texts that the transform is run on when a module is compiled. -/
def runs (check : Checker) (r : Registry) (i : Nat) : List String := ((compileAsking check noting r i).run []).2

/-- What a call comes to, by the key and the body of the module, the program kept for it and the transform in force: the
texts that the transform is run on, and the outcome. -/
inductive Ruling (check : Checker) (key body : String) :
    Option Program → Option Transform → List String → Except Failure Program → Prop where
  /-- What was kept is returned. -/
  | again (p : Program) (t : Option Transform) : Ruling check key body (some p) t [] (.ok p)
  /-- The body in the wrapper parses. -/
  | plain (t : Option Transform) (serial : Nat) (parses : check key (Module.wrap body) = .ok ()) :
    Ruling check key body none t [] (.ok ⟨key,Module.wrap body,serial⟩)
  /-- It does not, and no transform is set. -/
  | alone {refusal : Failure} (refused : check key (Module.wrap body) = .error refusal) :
    Ruling check key body none none [] (.error refusal)
  /-- The transform fails. -/
  | failed {refusal : Failure} {t : Transform} {text : String} (refused : check key (Module.wrap body) = .error refusal)
    (fails : t body = .error text) : Ruling check key body none (some t) [body] (.error (.transform text))
  /-- What the transform made of the body parses in the wrapper. -/
  | changed {refusal : Failure} {t : Transform} {other : String} (serial : Nat)
    (refused : check key (Module.wrap body) = .error refusal) (changes : t body = .ok other)
    (parses : check key (Module.wrap other) = .ok ()) :
    Ruling check key body none (some t) [body] (.ok ⟨key,Module.wrap other,serial⟩)
  /-- It does not. -/
  | spoilt {refusal again : Failure} {t : Transform} {other : String}
    (refused : check key (Module.wrap body) = .error refusal) (changes : t body = .ok other)
    (spoils : check key (Module.wrap other) = .error again) :
    Ruling check key body none (some t) [body] (.error again)

section
variable {check : Checker} {r : Registry} {i : Nat}

theorem compileAsking_id (check : Checker) (r : Registry) (i : Nat) :
    compileAsking (m := Id) check (fun t body => t body) r i = compileModule check r i := rfl

/-- A call, as the texts that the transform is run on and the outcome, follows the rules. -/
theorem compile_ruling (check : Checker) (r : Registry) (i : Nat) :
    Ruling check (r.record i).key (r.record i).body (r.record i).program r.transform (runs check r i)
      (compileModule check r i).1 := by
  rw [← compileAsking_id]
  unfold runs compileAsking
  cases (r.record i).program with
  | some p => exact .again p _
  | none =>
    cases own : check (r.record i).key (Module.wrap (r.record i).body) with
    | ok => exact .plain _ _ own
    | error refusal =>
      cases r.transform with
      | none => exact .alone own
      | some t =>
        simp only [noting,StateT.run,bind,StateT.bind,pure]
        cases changes : t (r.record i).body with
        | error text => exact .failed own changes
        | ok body =>
          cases parses : check (r.record i).key (Module.wrap body) with
          | ok =>
            simp only [parses]
            exact .changed _ own changes parses
          | error other =>
            simp only [parses]
            exact .spoilt own changes parses

/-- A call returns what is kept, or fails and changes nothing, or keeps a program where there was none. -/
theorem compile_shape (check : Checker) (r : Registry) (i : Nat) :
    (∃ p, (r.record i).program = some p ∧ compileModule check r i = (.ok p,r)) ∨
      (∃ e, compileModule check r i = (.error e,r)) ∨
      (r.record i).program = none ∧ ∃ source, compileModule check r i = keep r i source := by
  rw [← compileAsking_id]
  unfold compileAsking
  cases (r.record i).program with
  | some p => exact .inl ⟨p,rfl,rfl⟩
  | none =>
    refine .inr ?_
    cases check (r.record i).key (Module.wrap (r.record i).body) with
    | ok => exact .inr ⟨rfl,_,rfl⟩
    | error refusal =>
      cases r.transform with
      | none => exact .inl ⟨_,rfl⟩
      | some t =>
        simp only [bind,pure]
        cases t (r.record i).body with
        | error text => exact .inl ⟨_,rfl⟩
        | ok body =>
          cases parses : check (r.record i).key (Module.wrap body) with
          | ok => exact .inr ⟨trivial,Module.wrap body,by simp only [parses]⟩
          | error other => exact .inl ⟨other,by simp only [parses]⟩

/-- A call that fails stores nothing. -/
theorem compile_failed {e : Failure} (failed : (compileModule check r i).1 = .error e) :
    (compileModule check r i).2 = r := by
  rcases compile_shape check r i with ⟨p,-,same⟩ | ⟨e',same⟩ | ⟨-,source,same⟩
  · rw [same]
  · rw [same]
  · rw [same] at failed
    cases failed

end

/-! ### The other operations -/

/-- What an operation that compiles nothing does to a registry. -/
structure Quiet (r t : Registry) : Prop where
  size : r.records.size ≤ t.records.size
  known : ∀ i < r.records.size, (t.record i).key = (r.record i).key ∧ (t.record i).body = (r.record i).body ∧
    (t.record i).program = (r.record i).program
  fresh : ∀ i, r.records.size ≤ i → (t.record i).program = none
  serial : t.serial = r.serial
  transform : t.transform = r.transform

theorem record_of_le {r : Registry} {i : Nat} (unknown : r.records.size ≤ i) : r.record i = default := by
  unfold record
  rw [Array.getElem?_eq_none unknown]
  rfl

namespace Quiet
variable {r t u : Registry}

theorem refl (r : Registry) : Quiet r r where
  size := Nat.le_refl _
  known _ _ := ⟨rfl,rfl,rfl⟩
  fresh i unknown := by rw [record_of_le unknown]; rfl
  serial := rfl
  transform := rfl

theorem trans (first : Quiet r t) (second : Quiet t u) : Quiet r u where
  size := Nat.le_trans first.size second.size
  known i known := by
    obtain ⟨key,body,program⟩ := first.known i known
    obtain ⟨key',body',program'⟩ := second.known i (Nat.lt_of_lt_of_le known first.size)
    exact ⟨key'.trans key,body'.trans body,program'.trans program⟩
  fresh i unknown := by
    by_cases later : i < t.records.size
    · rw [(second.known i later).2.2,first.fresh i unknown]
    · exact second.fresh i (Nat.not_lt.mp later)
  serial := second.serial.trans first.serial
  transform := second.transform.trans first.transform

theorem insert (r : Registry) (key : String) (i : Nat) : Quiet r (r.insert key i) :=
  { refl r with }

theorem add (r : Registry) {m : Module} (plain : m.program = none) : Quiet r (r.add m).2 where
  size := by simp [Registry.add]
  known i known := by rw [record_add_of_lt known]; exact ⟨rfl,rfl,rfl⟩
  fresh i unknown := by
    rcases Nat.eq_or_lt_of_le unknown with rfl | later
    · rw [record_add,plain]
    · rw [record_of_le (by simpa [Registry.add] using Nat.succ_le_of_lt later)]
      rfl
  serial := rfl
  transform := rfl

theorem update (r : Registry) (i : Nat) {f : Module → Module}
    (keeps : ∀ m, (f m).key = m.key ∧ (f m).body = m.body ∧ (f m).program = m.program) : Quiet r (r.update i f) where
  size := by simp
  known j known := by
    unfold Registry.update record
    rw [Array.getElem?_modify]
    split
    · next same =>
      subst same
      simpa [known] using keeps _
    · exact ⟨rfl,rfl,rfl⟩
  fresh j unknown := by
    rw [record_of_le (by simpa using unknown)]
    rfl
  serial := rfl
  transform := rfl

theorem mark (r : Registry) (i generation : Nat) : Quiet r (r.markEvaluated i generation) :=
  update r i fun _ => ⟨rfl,rfl,rfl⟩

theorem reset (r : Registry) : Quiet r r.reset := by
  unfold Registry.reset
  generalize r.table = entries
  induction entries generalizing r with
  | nil => exact refl r
  | cons entry entries ih =>
    rw [List.foldl_cons]
    have forgets : Quiet r (r.update entry.2 ({ · with evaluatedIn := 0 })) := update r entry.2 fun _ => ⟨rfl,rfl,rfl⟩
    exact forgets.trans (ih _)

theorem setModule (r : Registry) {m : Module} (plain : m.program = none) : Quiet r (r.setModule m) := by
  have placed : (if m.path.text.isEmpty then { m with path := r.base } else m).program = none := by
    split <;> exact plain
  exact (add r placed).trans (insert _ _ _)

theorem load (files : Files) (r : Registry) (parent : Nat) (specifier : String) (path : Path) :
    Quiet r (Registry.load files r parent specifier path).2 := by
  unfold Registry.load
  split
  · exact refl r
  · split
    · exact refl r
    · exact (add r rfl).trans (insert _ _ _)

theorem request (files : Files) (r : Registry) (parent : Nat) (specifier : String) :
    Quiet r (Registry.request files r parent specifier).2 := by
  unfold Registry.request
  split
  · exact load files r _ _ _
  · split
    · exact refl r
    · split
      · exact refl r
      · exact (add r rfl).trans (load files _ _ _ _)

theorem resolve (files : Files) (r : Registry) (parent : Nat) (specifier : String) :
    Quiet r (r.resolve files parent specifier).2.1 := by
  obtain ⟨uses,same⟩ := resolve_request files r parent specifier
  rw [same]
  exact request files r parent specifier

end Quiet

/-! ### Histories -/

/-- A call that compiled a module: the record, the texts that the transform was run on, and the outcome. -/
structure Compilation where
  record : Nat
  runs : List String
  outcome : Except Failure Program

/-- What bears on the programs of a registry. -/
inductive Event where
  | transformSet (t : Option Transform)
  | compiled (c : Compilation)

/-- The transform that was set last; the events are listed last one first. -/
def inForce : List Event → Option Transform
  | [] => none
  | .transformSet t :: _ => t
  | .compiled _ :: before => inForce before

/-- The program of the first call for a record that succeeded. -/
def kept (i : Nat) : List Event → Option Program
  | [] => none
  | .transformSet _ :: before => kept i before
  | .compiled c :: before => (kept i before).or (if c.record = i then c.outcome.toOption else none)

/-- The lives of a registry, with their events. Transforms that answer differently each time are among them, as any may be
set before each call. -/
inductive Life (check : Checker) : List Event → Registry → Prop where
  | new (path : Path) : Life check [] (.new path)
  | setTransform {events : List Event} {r : Registry} (t : Option Transform) (before : Life check events r) :
    Life check (.transformSet t :: events) { r with transform := t }
  | compile {events : List Event} {r : Registry} {i : Nat} (known : i < r.records.size) (before : Life check events r) :
    Life check (.compiled ⟨i,runs check r i,(compileModule check r i).1⟩ :: events) (compileModule check r i).2
  | resolve {events : List Event} {r : Registry} (files : Files) (parent : Nat) (specifier : String)
    (before : Life check events r) : Life check events (r.resolve files parent specifier).2.1
  | register {events : List Event} {r : Registry} (name body : String) (path : Option Path)
    (before : Life check events r) : Life check events (r.setModule (.named name body path))
  | mark {events : List Event} {r : Registry} (i generation : Nat) (before : Life check events r) :
    Life check events (r.markEvaluated i generation)
  | reset {events : List Event} {r : Registry} (before : Life check events r) : Life check events r.reset

/-- Every event of a life obeys the rules, and the records have the programs that the events tell of. -/
structure Ledger (check : Checker) (events : List Event) (r : Registry) : Prop where
  force : r.transform = inForce events
  stored : ∀ i < r.records.size, (r.record i).program = kept i events
  ruled : ∀ after c before, events = after ++ .compiled c :: before →
    c.record < r.records.size ∧ Ruling check (r.record c.record).key (r.record c.record).body (kept c.record before)
      (inForce before) c.runs c.outcome
  numbered : ∀ i p, kept i events = some p → p.serial < r.serial
  apart : ∀ i j p q, kept i events = some p → kept j events = some q → p.same q = true → i = j

/-- What holds of the last event and of all earlier calls, with the events before them, holds of all calls. -/
theorem forall_call_cons {P : Compilation → List Event → Prop} {event : Event} {events : List Event}
    (last : ∀ c, event = .compiled c → P c events)
    (earlier : ∀ after c before, events = after ++ .compiled c :: before → P c before) :
    ∀ after c before, event :: events = after ++ .compiled c :: before → P c before := by
  intro after c before same
  cases after with
  | nil =>
    obtain ⟨head,rfl⟩ := List.cons.inj same
    exact last c head
  | cons _ after => exact earlier after c before (List.cons.inj same).2

/-- Nothing is kept just if no call for the record succeeded. -/
theorem kept_eq_none_iff {i : Nat} {events : List Event} :
    kept i events = none ↔ ∀ c, .compiled c ∈ events → c.record = i → ∃ e, c.outcome = .error e := by
  induction events with
  | nil => simp [kept]
  | cons event before ih =>
    cases event with
    | transformSet t => simpa [kept] using ih
    | compiled c =>
      rw [kept,Option.or_eq_none_iff,ih]
      constructor
      · rintro ⟨earlier,own⟩ d called same
        rcases List.mem_cons.mp called with last | called
        · cases last
          rw [if_pos same] at own
          cases outcome : c.outcome with
          | error e => exact ⟨e,rfl⟩
          | ok p =>
            rw [outcome] at own
            cases own
        · exact earlier d called same
      · intro failing
        refine ⟨fun d called => failing d (List.mem_cons_of_mem _ called),?_⟩
        split
        · next same =>
          obtain ⟨e,outcome⟩ := failing c List.mem_cons_self same
          rw [outcome]
          rfl
        · rfl

/-- What is kept was returned by a call before which nothing was kept. -/
theorem kept_eq_some {i : Nat} {p : Program} {events : List Event} (stored : kept i events = some p) :
    ∃ after c before, events = after ++ .compiled c :: before ∧ c.record = i ∧ c.outcome = .ok p ∧
      kept i before = none := by
  induction events with
  | nil => cases stored
  | cons event before ih =>
    have earlier (old : kept i before = some p) : ∃ after c rest, event :: before = after ++ .compiled c :: rest ∧
        c.record = i ∧ c.outcome = .ok p ∧ kept i rest = none := by
      obtain ⟨after,c,rest,same,facts⟩ := ih old
      exact ⟨event :: after,c,rest,congrArg (event :: ·) same,facts⟩
    cases event with
    | transformSet t => exact earlier stored
    | compiled c =>
      cases old : kept i before with
      | some q =>
        rw [kept,old,Option.some_or] at stored
        exact earlier (old.trans stored)
      | none =>
        rw [kept,old,Option.none_or] at stored
        split at stored
        · next same =>
          refine ⟨[],c,before,rfl,same,?_,old⟩
          cases outcome : c.outcome with
          | ok q =>
            rw [outcome] at stored
            cases stored
            rfl
          | error e =>
            rw [outcome] at stored
            cases stored
        · cases stored

/-- Later events do not change what is kept. -/
theorem kept_append {i : Nat} {p : Program} {before : List Event} (stored : kept i before = some p) :
    ∀ after, kept i (after ++ before) = some p
  | [] => stored
  | .transformSet _ :: after => kept_append stored after
  | .compiled _ :: after => by rw [List.cons_append,kept,kept_append stored after,Option.some_or]

namespace Ledger
variable {check : Checker} {events : List Event} {r t : Registry}

/-- What is kept is kept for a record that there is. -/
theorem known (ledger : Ledger check events r) {i : Nat} {p : Program} (stored : kept i events = some p) :
    i < r.records.size := by
  obtain ⟨after,c,before,same,rfl,-⟩ := kept_eq_some stored
  exact (ledger.ruled after c before same).1

theorem new (path : Path) : Ledger check [] (.new path) where
  force := rfl
  stored i known := by
    obtain rfl | rfl : i = 0 ∨ i = 1 := by simp [Registry.new] at known; omega
    · rfl
    · rfl
  ruled after c before same := by simp at same
  numbered i p stored := by cases stored
  apart i j p q stored := by cases stored

/-- An operation that compiles nothing is not an event. -/
theorem quiet (ledger : Ledger check events r) (quiet : Quiet r t) : Ledger check events t where
  force := quiet.transform.trans ledger.force
  stored i known := by
    by_cases old : i < r.records.size
    · rw [(quiet.known i old).2.2,ledger.stored i old]
    · rw [quiet.fresh i (Nat.not_lt.mp old)]
      cases stored : kept i events with
      | none => rfl
      | some p => exact absurd (ledger.known stored) old
  ruled after c before same := by
    obtain ⟨old,ruling⟩ := ledger.ruled after c before same
    obtain ⟨key,body,-⟩ := quiet.known c.record old
    exact ⟨Nat.lt_of_lt_of_le old quiet.size,by rwa [key,body]⟩
  numbered i p stored := by
    rw [quiet.serial]
    exact ledger.numbered i p stored
  apart := ledger.apart

theorem setTransform (ledger : Ledger check events r) (t : Option Transform) :
    Ledger check (.transformSet t :: events) { r with transform := t } where
  force := rfl
  stored := ledger.stored
  ruled := forall_call_cons (fun c same => by cases same) ledger.ruled
  numbered := ledger.numbered
  apart := ledger.apart

/-- A call that keeps nothing new. -/
theorem idle (ledger : Ledger check events r) {c : Compilation} (known : c.record < r.records.size)
    (ruling : Ruling check (r.record c.record).key (r.record c.record).body (kept c.record events) (inForce events) c.runs
      c.outcome)
    (adds : ∀ i, kept i (.compiled c :: events) = kept i events) : Ledger check (.compiled c :: events) r where
  force := ledger.force
  stored i old := by rw [adds,ledger.stored i old]
  ruled := forall_call_cons (fun d same => by cases same; exact ⟨known,ruling⟩) ledger.ruled
  numbered i p stored := ledger.numbered i p (adds i ▸ stored)
  apart i j p q stored stored' := ledger.apart i j p q (adds i ▸ stored) (adds j ▸ stored')

/-- A call that keeps a program. -/
theorem keeps (ledger : Ledger check events r) {i : Nat} {texts : List String} {source : String} (known : i < r.records.size)
    (unkept : kept i events = none)
    (ruling : Ruling check (r.record i).key (r.record i).body (kept i events) (inForce events) texts (keep r i source).1) :
    Ledger check (.compiled ⟨i,texts,(keep r i source).1⟩ :: events) (keep r i source).2 := by
  have record (j : Nat) : (keep r i source).2.record j =
      if i = j then { r.record j with program := some ⟨(r.record i).key,source,r.serial⟩ } else r.record j :=
    record_update r _ known j
  have size : (keep r i source).2.records.size = r.records.size := size_update r i _
  have same (j : Nat) : ((keep r i source).2.record j).key = (r.record j).key ∧
      ((keep r i source).2.record j).body = (r.record j).body := by
    rw [record]
    split <;> exact ⟨rfl,rfl⟩
  have own : kept i (.compiled ⟨i,texts,(keep r i source).1⟩ :: events) = some ⟨(r.record i).key,source,r.serial⟩ := by
    rw [kept,unkept,if_pos rfl]
    rfl
  have other {j : Nat} (apart : i ≠ j) :
      kept j (.compiled ⟨i,texts,(keep r i source).1⟩ :: events) = kept j events := by
    rw [kept,if_neg apart,Option.or_none]
  refine ⟨ledger.force,fun j old => ?_,?_,fun j p stored => ?_,fun j k p q stored stored' alike => ?_⟩
  · rw [record]
    by_cases here : i = j
    · rw [← here,own,if_pos rfl]
    · rw [other here,if_neg here,ledger.stored j (size ▸ old)]
  · refine forall_call_cons (fun c last => ?_) fun after c before split => ?_
    · cases last
      rw [size,(same i).1,(same i).2]
      exact ⟨known,ruling⟩
    · rw [size,(same c.record).1,(same c.record).2]
      exact ledger.ruled after c before split
  · by_cases here : i = j
    · rw [← here,own] at stored
      cases stored
      exact Nat.lt_succ_self _
    · rw [other here] at stored
      exact Nat.lt_succ_of_lt (ledger.numbered j p stored)
  -- The new program has a number that no earlier one has.
  · have serial : p.serial = q.serial := by simpa [Program.same] using alike
    by_cases here : i = j
    · by_cases there : i = k
      · exact here.symm.trans there
      · rw [← here,own] at stored
        rw [other there] at stored'
        cases stored
        exact absurd serial (Nat.ne_of_gt (ledger.numbered k q stored'))
    · rw [other here] at stored
      by_cases there : i = k
      · rw [← there,own] at stored'
        cases stored'
        exact absurd serial (Nat.ne_of_lt (ledger.numbered j p stored))
      · rw [other there] at stored'
        exact ledger.apart j k p q stored stored' alike

theorem compile (ledger : Ledger check events r) {i : Nat} (known : i < r.records.size) :
    Ledger check (.compiled ⟨i,runs check r i,(compileModule check r i).1⟩ :: events) (compileModule check r i).2 := by
  have ruling := compile_ruling check r i
  rw [ledger.stored i known,ledger.force] at ruling
  rcases compile_shape check r i with ⟨p,stored,same⟩ | ⟨e,same⟩ | ⟨unkept,source,same⟩
  · rw [same] at ruling ⊢
    refine ledger.idle known ruling fun j => ?_
    rw [kept]
    split
    · next here =>
      cases here
      rw [← ledger.stored i known,stored,Option.some_or]
    · exact Option.or_none
  · rw [same] at ruling ⊢
    refine ledger.idle known ruling fun j => ?_
    rw [kept]
    split <;> exact Option.or_none
  · rw [same] at ruling ⊢
    exact ledger.keeps known ((ledger.stored i known).symm.trans unkept) ruling

end Ledger

theorem Life.ledger {check : Checker} {events : List Event} {r : Registry} (life : Life check events r) :
    Ledger check events r := by
  induction life with
  | new path => exact .new path
  | setTransform t before ledger => exact ledger.setTransform t
  | compile known before ledger => exact ledger.compile known
  | resolve files parent specifier before ledger => exact ledger.quiet (.resolve files _ parent specifier)
  | register name body path before ledger => exact ledger.quiet (.setModule _ rfl)
  | mark i generation before ledger => exact ledger.quiet (.mark _ i generation)
  | reset before ledger => exact ledger.quiet (.reset _)

/-- Where the program of a record is from, and what became of it. -/
structure Compiled (check : Checker) (events : List Event) (m : Module) (i : Nat) (p : Program) : Prop where
  name : p.name = m.key
  accepted : check m.key p.source = .ok ()
  plain : check m.key (Module.wrap m.body) = .ok () → p.source = Module.wrap m.body
  /-- The first call that succeeded, between the ones that failed and the ones that return the same program. -/
  first : ∃ after c before, events = after ++ .compiled c :: before ∧ c.record = i ∧ c.outcome = .ok p ∧
    (∀ d, .compiled d ∈ before → d.record = i → ∃ e, d.outcome = .error e) ∧
    (∀ d, .compiled d ∈ after → d.record = i → d.outcome = .ok p ∧ d.runs = []) ∧
    ∀ refusal, check m.key (Module.wrap m.body) = .error refusal →
      ∃ t body, inForce before = some t ∧ t m.body = .ok body ∧ p.source = Module.wrap body

namespace Ledger
variable {check : Checker} {events : List Event} {r : Registry}

/-- Once a program is kept, the calls return it and do not run the transform. -/
theorem again (ledger : Ledger check events r) {after before : List Event} {c d : Compilation} {p : Program}
    (same : events = after ++ .compiled c :: before) (stored : kept c.record (.compiled c :: before) = some p)
    (called : .compiled d ∈ after) (own : d.record = c.record) : d.outcome = .ok p ∧ d.runs = [] := by
  obtain ⟨later,between,rfl⟩ := List.append_of_mem called
  have ruling := (ledger.ruled later d (between ++ .compiled c :: before) (by simpa using same)).2
  rw [own,kept_append stored between] at ruling
  generalize d.runs = texts at ruling
  generalize d.outcome = outcome at ruling
  cases ruling with
  | again => exact ⟨rfl,rfl⟩

theorem compiled (ledger : Ledger check events r) {i : Nat} {p : Program} (known : i < r.records.size)
    (stored : (r.record i).program = some p) : Compiled check events (r.record i) i p := by
  rw [ledger.stored i known] at stored
  obtain ⟨after,c,before,same,rfl,outcome,unkept⟩ := kept_eq_some stored
  have here : kept c.record (.compiled c :: before) = some p := by
    rw [kept,unkept,if_pos rfl,outcome]
    rfl
  have failing := kept_eq_none_iff.mp unkept
  have returning := fun d called own => ledger.again same here (d := d) called own
  have ruling := (ledger.ruled after c before same).2
  rw [outcome,unkept] at ruling
  -- Nothing was kept, so the call that succeeded had the body pass the check, or what the transform made of it.
  generalize force : inForce before = t at ruling
  generalize c.runs = texts at ruling
  cases ruling with
  | plain t serial parses =>
    exact ⟨rfl,parses,fun _ => rfl,after,c,before,same,rfl,outcome,failing,returning,
      fun _ refused => nomatch parses.symm.trans refused⟩
  | changed serial refused changes parses =>
    exact ⟨rfl,parses,(fun plain => nomatch refused.symm.trans plain),after,c,before,same,rfl,outcome,failing,returning,
      fun _ _ => ⟨_,_,force,changes,rfl⟩⟩

end Ledger

/-- In every life of a registry, each call follows the rules, and a program is stored by the first call for its record that
succeeds and by nothing else; it passed the check, and no other record has it. A call that fails stores nothing. -/
theorem life_ledger {check : Checker} {events : List Event} {r : Registry} (life : Life check events r) :
    Ledger check events r ∧
      (∀ i p, i < r.records.size → (r.record i).program = some p → Compiled check events (r.record i) i p) ∧
      ∀ i e, (compileModule check r i).1 = .error e → (compileModule check r i).2 = r :=
  ⟨life.ledger,fun _ _ known stored => life.ledger.compiled known stored,fun _ _ failed => compile_failed failed⟩

/-- A check that only one wrapper passes. -/
def picky : Checker := fun name source =>
  if source = Module.wrap "1" then .ok () else .error (.malformed name 2 "refused")

/-- A first transform fails, a second one makes a body that passes, and after a restart without any the program is there. -/
theorem life_ledger_retried :
    ∃ events r, Life picky events r ∧ inForce events = none ∧ events.length = 6 ∧
      (r.record 2).program = some ⟨"a",Module.wrap "1",0⟩ ∧
      Compiled picky events (r.record 2) 2 ⟨"a",Module.wrap "1",0⟩ := by
  have registered : Life picky [] ((Registry.new ⟨"/app"⟩).setModule (.named "a" "x")) := .register "a" "x" none (.new _)
  have refused := (registered.setTransform (some fun _ => .error "no")).compile (i := 2) (by decide +kernel)
  have changed := (refused.setTransform (some fun _ => .ok "1")).compile (i := 2) (by decide +kernel)
  have returned := (changed.setTransform none).reset.compile (i := 2) (by decide +kernel)
  refine ⟨_,_,returned,rfl,rfl,by decide +kernel,?_⟩
  exact (life_ledger returned).2.1 2 _ (by decide +kernel) (by decide +kernel)

end ScriptHost.Registry
