import ScriptHost.Proofs.Registry.Generation
/-!
The exports that requires answer. The table of exports goes by keys, the mark of an evaluation by records. As long as
keys are plain properties of the table, the table holds what the evaluation of a module of that key came to that ended
last (`latest`), and that is what requires answer. So all requires that lead to one record answer the exports of one
evaluation of it, unless another evaluation of the same key encloses it and ends later (`one_value_of_record`): then
its exports replace those that have been answered. That takes a body which requires its own key by the `require` of
another module. With the setter of a prototype, as `__proto__` is one, the table does not even hold the exports.
-/
namespace ScriptHost.Registry
variable {σ Value : Type}

/-! ### Logs -/

/-- The exports of the evaluation of a key that ended last. -/
def latest (key : String) : List (Report Value) → Option Value
  | [] => none
  | .ended _ _ k v :: earlier => if k = key then some v else latest key earlier
  | .began .. :: earlier => latest key earlier
  | .answered .. :: earlier => latest key earlier

/-- The reports on a key are in order: a record is evaluated that has not been evaluated before, and none that has
been replaced; what ends has begun; and answers are the exports of the evaluation that ended last, given by that very
evaluation or to a require that led to a record which has been evaluated and not been replaced. -/
def Orderly (key : String) : List (Report Value) → Prop
  | [] => True
  | .began _ i k :: earlier =>
    (k = key → ∀ m j v, .ended m j key v ∈ earlier → j < i) ∧ Orderly key earlier
  | .ended n i k _ :: earlier => (k = key → .began n i key ∈ earlier) ∧ Orderly key earlier
  | .answered i k v :: earlier =>
    (k = key → latest key earlier = some v ∧ (∃ m u, .ended m i key u ∈ earlier) ∧
      ((∃ n rest, earlier = .ended n i key v :: rest) ∨ ∀ m j u, .ended m j key u ∈ earlier → j ≤ i)) ∧
    Orderly key earlier

/-- The number of an evaluation that began. -/
def Report.began? : Report Value → Option Nat
  | .began n _ _ => some n
  | _ => none

/-- Evaluations that begin have numbers of their own, below a bound. -/
def Numbered (bound : Nat) (log : List (Report Value)) : Prop :=
  (∀ n ∈ log.filterMap Report.began?, n < bound) ∧ (log.filterMap Report.began?).Nodup

theorem Numbered.other {bound : Nat} {log : List (Report Value)} (numbered : Numbered bound log)
    {report : Report Value} (none : report.began? = none) : Numbered bound (report :: log) := by
  unfold Numbered
  rw [List.filterMap_cons_none none]
  exact numbered

theorem Numbered.begin {bound : Nat} {log : List (Report Value)} (numbered : Numbered bound log) (i : Nat)
    (key : String) : Numbered (bound+1) (.began bound i key :: log) := by
  unfold Numbered
  rw [List.filterMap_cons_some (show (Report.began bound i key : Report Value).began? = some bound from rfl)]
  refine ⟨fun n member => ?_,List.nodup_cons.mpr ⟨fun member => Nat.lt_irrefl _ (numbered.1 _ member),numbered.2⟩⟩
  rcases List.mem_cons.mp member with rfl | older
  · exact Nat.lt_succ_self n
  · exact Nat.lt_succ_of_lt (numbered.1 n older)

/-- An evaluation of a key was in progress when one of the record ended, and ended later. -/
def Enclosed (log : List (Report Value)) (i : Nat) (key : String) : Prop :=
  ∃ n j v m u after between before, log = after ++ .ended n j key v :: between ++ .ended m i key u :: before ∧
    .began n j key ∈ before

section
variable {key : String} {later earlier log : List (Report Value)} {i : Nat} {u v : Value}

theorem Orderly.suffix (orderly : Orderly key (later ++ earlier)) : Orderly key earlier := by
  induction later with
  | nil => exact orderly
  | cons report later ih => cases report <;> exact ih orderly.2

/-- Where the exports that are latest come from. -/
theorem latest_eq_some (found : latest key log = some v) : ∃ n j after before,
    log = after ++ .ended n j key v :: before ∧ ∀ m i u, .ended m i key u ∉ after := by
  induction log with
  | nil => cases found
  | cons report log ih =>
    have skip : latest key log = some v → (∀ m i u, report ≠ .ended m i key u) → ∃ n j after before,
        report :: log = after ++ .ended n j key v :: before ∧ ∀ m i u, .ended m i key u ∉ after := by
      intro found other
      obtain ⟨n,j,after,before,rfl,free⟩ := ih found
      refine ⟨n,j,report :: after,before,rfl,fun m i u member => ?_⟩
      rcases List.mem_cons.mp member with same | deeper
      · exact other m i u same.symm
      · exact free m i u deeper
    cases report with
    | began n j k => exact skip found nofun
    | answered j k w => exact skip found nofun
    | ended n j k w =>
      rw [latest] at found
      split at found
      · next same =>
        cases found
        cases same
        exact ⟨n,j,[],log,rfl,fun _ _ _ => List.not_mem_nil⟩
      · next other =>
        refine skip found fun m i u same => other ?_
        cases same
        rfl

theorem ended_of_latest (none : latest key log = none) {m : Nat} : .ended m i key u ∉ log := by
  intro member
  induction log with
  | nil => cases member
  | cons report log ih =>
    cases report with
    | began n j k => exact ih none ((List.mem_cons.mp member).resolve_left nofun)
    | answered j k w => exact ih none ((List.mem_cons.mp member).resolve_left nofun)
    | ended n j k w =>
      rw [latest] at none
      split at none
      · cases none
      · next other =>
        refine ih none ((List.mem_cons.mp member).resolve_left fun same => other ?_)
        cases same
        rfl

/-- An answer is the exports of every evaluation of the record that ended before, unless that one was enclosed. -/
theorem Orderly.answer (orderly : Orderly key (.answered i key v :: earlier)) {m : Nat}
    (ended : .ended m i key u ∈ earlier) : v = u ∨ Enclosed earlier i key := by
  obtain ⟨⟨found,-,leads⟩,orderly⟩ := And.imp_left (· rfl) orderly
  obtain ⟨n,j,after,before,rfl,free⟩ := latest_eq_some found
  rcases List.mem_append.mp ended with newer | member
  · exact absurd newer (free m i u)
  · rcases List.mem_cons.mp member with same | older
    · cases same
      exact .inl rfl
    · right
      obtain ⟨between,first,rfl⟩ := List.append_of_mem older
      have last := orderly.suffix
      have began := last.1 rfl
      rcases List.mem_append.mp began with inner | outer
      · -- An evaluation that began after that of the record had ended would be of a record that replaced it.
        exfalso
        obtain ⟨a,b,rfl⟩ := List.append_of_mem inner
        have start := last.2
        rw [List.append_assoc] at start
        have less : i < j := start.suffix.1 rfl m i u (List.mem_append_right b List.mem_cons_self)
        rcases leads with ⟨n',rest,same⟩ | leads
        · cases after with
          | nil =>
            cases same
            exact Nat.lt_irrefl _ less
          | cons report after =>
            cases same
            exact free n' i v List.mem_cons_self
        · exact Nat.lt_irrefl _ (Nat.lt_of_lt_of_le less (leads n j v (List.mem_append_right _ List.mem_cons_self)))
      · rcases List.mem_cons.mp outer with same | outer
        · cases same
        · exact ⟨n,j,v,m,u,after,between,first,by simp,outer⟩

theorem Enclosed.append (enclosed : Enclosed earlier i key) (later : List (Report Value)) :
    Enclosed (later ++ earlier) i key := by
  obtain ⟨n,j,v,m,u,after,between,before,rfl,began⟩ := enclosed
  exact ⟨n,j,v,m,u,later ++ after,between,before,by simp,began⟩

/-- An answer is the exports of an evaluation of the record, and so is every later one. -/
theorem Orderly.answers (orderly : Orderly key (.answered i key v :: earlier)) :
    (∃ m, .ended m i key v ∈ earlier ∧ ∀ w, .answered i key w ∈ earlier → v = w) ∨ Enclosed earlier i key := by
  obtain ⟨m,u,ended⟩ := (orderly.1 rfl).2.1
  by_cases enclosed : Enclosed earlier i key
  · exact .inr enclosed
  · have own := (orderly.answer ended).resolve_right enclosed
    subst own
    refine .inl ⟨m,ended,fun w member => ?_⟩
    obtain ⟨between,before,rfl⟩ := List.append_of_mem member
    have past : Orderly key (.answered i key w :: before) := orderly.2.suffix
    obtain ⟨n,u,older⟩ := (past.1 rfl).2.1
    have left := (orderly.answer (List.mem_append_right _ (List.mem_cons_of_mem _ older))).resolve_right enclosed
    have right := (past.answer older).resolve_right fun inner => enclosed ((inner.append [_]).append between)
    exact left.trans right.symm

/-- All answers for a record are the exports of one evaluation of it, unless one was enclosed. -/
theorem Orderly.one_value (orderly : Orderly key log) {w : Value} (first : .answered i key v ∈ log)
    (second : .answered i key w ∈ log) : (v = w ∧ ∃ m, .ended m i key v ∈ log) ∨ Enclosed log i key := by
  by_cases enclosed : Enclosed log i key
  · exact .inr enclosed
  · have answers : ∀ {v later earlier}, log = later ++ .answered i key v :: earlier →
        ∃ m, .ended m i key v ∈ earlier ∧ ∀ w, .answered i key w ∈ earlier → v = w := by
      rintro v later earlier rfl
      exact orderly.suffix.answers.resolve_right fun inner => enclosed ((inner.append [_]).append later)
    left
    obtain ⟨later,earlier,split⟩ := List.append_of_mem first
    obtain ⟨m,ended,same⟩ := answers split
    refine ⟨?_,m,split ▸ List.mem_append_right _ (List.mem_cons_of_mem _ ended)⟩
    rw [split] at second
    rcases List.mem_append.mp second with newer | older
    · obtain ⟨a,b,rfl⟩ := List.append_of_mem newer
      obtain ⟨-,-,same⟩ := answers (split.trans (List.append_assoc a _ _))
      exact (same v (List.mem_append_right b List.mem_cons_self)).symm
    · rcases List.mem_cons.mp older with here | older
      · cases here
        rfl
      · exact same w older

end

/-! ### What is true at any time -/

/-- What becomes of a registry in a generation: records keep their keys and marks, new ones have no marks, and where a
key leads elsewhere, it leads to a newer record. -/
structure Evolves (r t : Registry) : Prop where
  sound : Sound t
  size : r.records.size ≤ t.records.size
  record : ∀ i < r.records.size,
    (t.record i).key = (r.record i).key ∧ (t.record i).evaluatedIn = (r.record i).evaluatedIn
  fresh : ∀ i, r.records.size ≤ i → (t.record i).evaluatedIn = 0
  newer : ∀ key j, r.find? key = some j → ∃ k, t.find? key = some k ∧ j ≤ k

namespace Evolves
variable {r t : Registry}

theorem of_grows (sound : Sound r) (grows : Grows r t) : Evolves r t where
  sound := grows.sound sound
  size := grows.size
  record i old := by
    rw [grows.record old]
    exact ⟨rfl,rfl⟩
  fresh i new := grows.evaluatedIn new
  newer key j found := ⟨j,grows.kept key j found,Nat.le_refl j⟩

theorem compile (sound : Sound r) (check : Checker) (i : Nat) : Evolves r (compileModule check r i).2 where
  sound := sound_compile sound check i
  size := Nat.le_of_eq (compile_size check r i).symm
  record j _ := compile_keeps check r i j
  fresh j new := by
    rw [(compile_keeps check r i j).2,Registry.record,Array.getElem?_eq_none new]
    rfl
  newer key j found := ⟨j,(compile_find check r i key).trans found,Nat.le_refl j⟩

theorem register (sound : Sound r) {m : Module} (unevaluated : m.evaluatedIn = 0) : Evolves r (r.setModule m) where
  sound := sound_setModule sound m
  size := by simp [Registry.setModule,Registry.add,Registry.insert]
  record i old := by
    have same : (r.setModule m).record i = r.record i := record_add_of_lt old _
    rw [same]
    exact ⟨rfl,rfl⟩
  fresh i new := by
    have placed : (if m.path.text.isEmpty then { m with path := r.base } else m).evaluatedIn = 0 := by
      split <;> exact unevaluated
    revert placed
    unfold Registry.setModule
    generalize (if m.path.text.isEmpty then { m with path := r.base } else m) = placed
    intro unevaluated
    exact (Grows.add r unevaluated).evaluatedIn new
  newer key j found := by
    rw [find_setModule]
    split
    · exact ⟨_,rfl,Nat.le_of_lt (sound key j found).1⟩
    · exact ⟨j,found,Nat.le_refl j⟩

end Evolves

/-- The table and the marks have of a key what the log says. -/
structure Told (e : Realm σ Value) (key : String) (s : Era σ Value) : Prop where
  sound : Sound s.registry
  own : s.exports.lookup key = latest key s.log
  marked : ∀ i, (s.registry.record i).key = key → (s.registry.record i).evaluatedIn = e.generation →
    ∃ n v, .ended n i key v ∈ s.log
  ended : ∀ n i v, .ended n i key v ∈ s.log → i < s.registry.records.size ∧ (s.registry.record i).key = key ∧
    (s.registry.record i).evaluatedIn = e.generation ∧ ∃ j, s.registry.find? key = some j ∧ i ≤ j
  orderly : Orderly key s.log
  numbered : Numbered s.begun s.log

/-- A later time of a generation. -/
structure Onward (e : Realm σ Value) (key : String) (s t : Era σ Value) : Prop where
  told : Told e key t
  log : s.log <:+ t.log
  size : s.registry.records.size ≤ t.registry.records.size
  record : ∀ i < s.registry.records.size, (t.registry.record i).key = (s.registry.record i).key
  newer : ∀ j, s.registry.find? key = some j → ∃ k, t.registry.find? key = some k ∧ j ≤ k

section
variable {e : Realm σ Value} {key : String} {s t u : Era σ Value} {i n : Nat} {v : Value}

theorem Onward.trans (first : Onward e key s t) (second : Onward e key t u) : Onward e key s u where
  told := second.told
  log := first.log.trans second.log
  size := Nat.le_trans first.size second.size
  record i old := (second.record i (Nat.lt_of_lt_of_le old first.size)).trans (first.record i old)
  newer j found := by
    obtain ⟨k,found,le⟩ := first.newer j found
    obtain ⟨l,found,le'⟩ := second.newer k found
    exact ⟨l,found,Nat.le_trans le le'⟩

namespace Told

theorem refl (told : Told e key s) : Onward e key s s :=
  ⟨told,List.suffix_refl _,Nat.le_refl _,fun _ _ => rfl,fun j found => ⟨j,found,Nat.le_refl j⟩⟩

theorem evolve (told : Told e key s) {r : Registry} (evolves : Evolves s.registry r) :
    Onward e key s { s with registry := r } := by
  refine ⟨⟨evolves.sound,told.own,fun i same evaluated => ?_,fun n i v ended => ?_,told.orderly,
    told.numbered⟩,List.suffix_refl _,evolves.size,fun i old => (evolves.record i old).1,evolves.newer key⟩
  · by_cases old : i < s.registry.records.size
    · obtain ⟨key,mark⟩ := evolves.record i old
      exact told.marked i (key.symm.trans same) (mark.symm.trans evaluated)
    · have started := e.started
      have zero : (0 : Nat) = e.generation := (evolves.fresh i (Nat.not_lt.mp old)).symm.trans evaluated
      omega
  · obtain ⟨old,same,evaluated,j,found,le⟩ := told.ended n i v ended
    obtain ⟨key,mark⟩ := evolves.record i old
    obtain ⟨k,found,le'⟩ := evolves.newer _ j found
    exact ⟨Nat.lt_of_lt_of_le old evolves.size,key.trans same,mark.trans evaluated,k,found,Nat.le_trans le le'⟩

/-- Where the table has nothing for the record to which the key leads, only older records have been evaluated. -/
theorem newer (told : Told e key s) (leads : s.registry.find? key = some i) (named : (s.registry.record i).key = key)
    (missing : (s.registry.record i).evaluatedIn = e.generation → s.exports.lookup key = none) :
    ∀ n j v, .ended n j key v ∈ s.log → j < i := by
  intro n j v ended
  obtain ⟨-,-,evaluated,k,found,le⟩ := told.ended n j v ended
  cases leads.symm.trans found
  rcases Nat.lt_or_eq_of_le le with less | rfl
  · exact less
  · exact absurd ended (ended_of_latest (told.own.symm.trans (missing evaluated)))

/-- Records of other keys may be marked. -/
theorem mark (told : Told e key s) (other : (s.registry.record i).key ≠ key) :
    Onward e key s { s with registry := s.registry.markEvaluated i e.generation } := by
  have keys : ∀ j, ((s.registry.markEvaluated i e.generation).record j).key = (s.registry.record j).key :=
    key_update s.registry i fun _ => rfl
  have marks : ∀ j, (s.registry.record j).key = key →
      (s.registry.markEvaluated i e.generation).record j = s.registry.record j := by
    intro j same
    have apart : i ≠ j := by
      rintro rfl
      exact other same
    unfold Registry.record markEvaluated update
    rw [Array.getElem?_modify,if_neg apart]
  have size : (s.registry.markEvaluated i e.generation).records.size = s.registry.records.size := size_update _ _ _
  refine ⟨⟨sound_mark told.sound i e.generation,told.own,fun j same evaluated => ?_,fun n j v ended => ?_,
    told.orderly,told.numbered⟩,List.suffix_refl _,Nat.le_of_eq size.symm,fun j _ => keys j,
    fun j found => ⟨j,found,Nat.le_refl j⟩⟩
  · rw [keys] at same
    rw [marks j same] at evaluated
    exact told.marked j same evaluated
  · obtain ⟨old,same,evaluated,leads⟩ := told.ended n j v ended
    refine ⟨size ▸ old,(keys j).trans same,?_,leads⟩
    rw [marks j same]
    exact evaluated

/-- A report that is none of the end of an evaluation of the key. -/
theorem report (told : Told e key s) {x : Report Value} {begun : Nat} (other : ∀ n i v, x ≠ .ended n i key v)
    (orderly : Orderly key (x :: s.log)) (numbered : Numbered begun (x :: s.log)) :
    Onward e key s { s with begun, log := x :: s.log } := by
  have same : latest key (x :: s.log) = latest key s.log := by
    cases x with
    | ended n i k v =>
      rw [latest,if_neg]
      rintro rfl
      exact other n i v rfl
    | _ => rfl
  refine ⟨⟨told.sound,told.own.trans same.symm,fun i same evaluated => ?_,fun n i v ended => ?_,orderly,
    numbered⟩,List.suffix_cons _ _,Nat.le_refl _,fun _ _ => rfl,fun j found => ⟨j,found,Nat.le_refl j⟩⟩
  · obtain ⟨n,v,ended⟩ := told.marked i same evaluated
    exact ⟨n,v,List.mem_cons_of_mem _ ended⟩
  · exact told.ended n i v ((List.mem_cons.mp ended).resolve_left fun same => other n i v same.symm)

/-- A module of another key may be kept in the table. -/
theorem keep (told : Told e key s) {k : String} (other : k ≠ key) (v : Value) :
    Onward e key s { s with exports := (k,v) :: s.exports.filter (·.1 ≠ k) } := by
  have same : ((k,v) :: s.exports.filter (·.1 ≠ k)).lookup key = s.exports.lookup key := by
    rw [List.lookup_cons,lookup_filter _ (Ne.symm other)]
    have apart : (key == k) = false := by simpa using Ne.symm other
    rw [apart]
  exact ⟨⟨told.sound,same.trans told.own,told.marked,told.ended,told.orderly,told.numbered⟩,List.suffix_refl _,Nat.le_refl _,
    fun _ _ => rfl,fun j found => ⟨j,found,Nat.le_refl j⟩⟩

/-- An evaluation of the key ends: its exports are kept, and the record is marked. -/
theorem finish (told : Told e key s) (inside : i < s.registry.records.size)
    (same : (s.registry.record i).key = key) (began : .began n i key ∈ s.log)
    (leads : ∃ j, s.registry.find? key = some j ∧ i ≤ j) (v : Value) :
    Onward e key s { s with
      registry := s.registry.markEvaluated i e.generation
      exports := (key,v) :: s.exports.filter (·.1 ≠ key)
      log := .ended n i key v :: s.log } := by
  have keys : ∀ j, ((s.registry.markEvaluated i e.generation).record j).key = (s.registry.record j).key :=
    key_update s.registry i fun _ => rfl
  have record : ∀ j, (s.registry.markEvaluated i e.generation).record j =
      if i = j then { s.registry.record j with evaluatedIn := e.generation } else s.registry.record j :=
    record_update s.registry _ inside
  have size : (s.registry.markEvaluated i e.generation).records.size = s.registry.records.size := size_update _ _ _
  refine ⟨⟨sound_mark told.sound i e.generation,?_,fun j named evaluated => ?_,fun m j w ended => ?_,
    ⟨fun _ => began,told.orderly⟩,told.numbered.other rfl⟩,List.suffix_cons _ _,Nat.le_of_eq size.symm,fun j _ => keys j,
    fun j found => ⟨j,found,Nat.le_refl j⟩⟩
  · rw [latest,if_pos rfl,List.lookup_cons_self]
  · by_cases own : i = j
    · subst own
      exact ⟨n,v,List.mem_cons_self⟩
    · rw [record,if_neg own] at named evaluated
      obtain ⟨m,w,ended⟩ := told.marked j named evaluated
      exact ⟨m,w,List.mem_cons_of_mem _ ended⟩
  · rcases List.mem_cons.mp ended with here | older
    · cases here
      refine ⟨size ▸ inside,(keys _).trans same,?_,leads⟩
      rw [record,if_pos rfl]
    · obtain ⟨old,named,evaluated,leads⟩ := told.ended m j w older
      refine ⟨size ▸ old,(keys j).trans named,?_,leads⟩
      rw [record]
      split
      · rfl
      · exact evaluated

end Told

/-! ### Runs -/

/-- A step after which the table and the marks have still what the log says. -/
def Keeps {α : Type} (e : Realm σ Value) (key : String) (x : Deed σ Value α) : Prop :=
  ∀ s, Told e key s → Onward e key s (x.outcome s).2

theorem keeps_play {ask : Nat → List String → String → Deed σ Value Value}
    (asks : ∀ parent chain specifier, Keeps e key (ask parent chain specifier)) (code : Code σ Value) :
    Keeps e key (code.play ask) := by
  induction code with
  | ends result => exact fun s told => told.refl
  | requires parent chain specifier next ih =>
    intro s told
    have first := asks parent chain specifier s told
    exact first.trans (ih _ _ first.told)
  | registers name body directory next ih =>
    intro s told
    have first := told.evolve (.register (m := .named name body directory) told.sound rfl)
    exact first.trans (ih _ first.told)
  | lists next ih => exact fun s told => ih _ s told
  | looks next ih => exact fun s told => ih _ s told
  | changes world next ih =>
    intro s told
    have first : Onward e key s { s with world } :=
      ⟨⟨told.sound,told.own,told.marked,told.ended,told.orderly,told.numbered⟩,List.suffix_refl _,Nat.le_refl _,fun _ _ => rfl,
        fun j found => ⟨j,found,Nat.le_refl j⟩⟩
    exact first.trans (ih _ first.told)

/-- Whatever becomes of a module of another key in the table. -/
theorem onward_keep {ask : Nat → List String → String → Deed σ Value Value}
    (asks : ∀ parent chain specifier, Keeps e key (ask parent chain specifier)) (told : Told e key s) {k : String}
    (other : k ≠ key) (v : Value) : Onward e key s (((e.runner ask).keep e.table k v).outcome s).2 := by
  rcases Realm.keep_cases (s := s) (e := e) ask k v with kept | ⟨code,-,assigned⟩
  · rw [kept]
    exact told.keep other v
  · rw [assigned,Deed.state_map]
    exact keeps_play asks code s told

/-- What the log needs for an answer to be in order. -/
def Due (key : String) (s : Era σ Value) (i : Nat) (v : Value) : Prop :=
  latest key s.log = some v ∧ (∃ m u, .ended m i key u ∈ s.log) ∧
    ((∃ n rest, s.log = .ended n i key v :: rest) ∨ ∀ m j u, .ended m j key u ∈ s.log → j ≤ i)

/-- An evaluation that begins. -/
theorem Told.begin (told : Told e key s) {k : String}
    (new : k = key → ∀ m j v, .ended m j key v ∈ s.log → j < i) :
    Onward e key s { s with begun := s.begun+1, log := .began s.begun i k :: s.log } :=
  told.report nofun ⟨new,told.orderly⟩ (told.numbered.begin i k)

/-- What the evaluation of a module comes to. -/
theorem onward_renew {ask : Nat → List String → String → Deed σ Value Value} (plain : ∀ w v, e.assigns w key v = none)
    (asks : ∀ parent chain specifier, Keeps e key (ask parent chain specifier)) (chain : List String)
    (told : Told e key s) (inside : i < s.registry.records.size)
    (leads : s.registry.find? (s.registry.record i).key = some i)
    (missing : (s.registry.record i).evaluatedIn = e.generation → s.exports.lookup (s.registry.record i).key = none) :
    Onward e key s ((e.renew ask chain i (s.registry.record i)).outcome s).2 ∧
      ∀ v, ((e.renew ask chain i (s.registry.record i)).outcome s).1 = .ok v → (s.registry.record i).key = key →
        Due key ((e.renew ask chain i (s.registry.record i)).outcome s).2 i v := by
  generalize same : s.registry.record i = m at *
  rcases compiled : s.registry.compileModule e.check i with ⟨found,r⟩
  have first : Onward e key s { s with registry := r } := by
    have evolves := Evolves.compile told.sound e.check i
    rw [compiled] at evolves
    exact told.evolve evolves
  cases found with
  | error f =>
    rw [Realm.outcome_renew_uncompiled ask compiled]
    exact ⟨first,nofun⟩
  | ok p =>
    by_cases active : m.key ∈ chain
    · rw [Realm.outcome_renew_loops ask compiled active]
      exact ⟨first,nofun⟩
    · have named : (r.record i).key = m.key := same ▸ first.record i inside
      have new : m.key = key → ∀ n j v, .ended n j key v ∈ s.log → j < i := by
        rintro rfl
        exact told.newer (same ▸ leads) (by rw [same]) (same ▸ missing)
      have second := first.told.begin (k := m.key) new
      have third := keeps_play asks (e.body p i (chain ++ [m.key])) _ second.told
      rw [Realm.outcome_renew ask compiled active,Realm.outcome_evaluate,named]
      revert third
      rcases ((e.body p i (chain ++ [m.key])).play ask).outcome { s with
        registry := r, begun := s.begun+1, log := .began s.begun i m.key :: s.log } with ⟨x | v,u⟩
      · exact fun third => ⟨first.trans (second.trans third),nofun⟩
      · intro third
        have before := first.trans (second.trans third)
        have still : i < u.registry.records.size := Nat.lt_of_lt_of_le inside before.size
        have keyed : (u.registry.record i).key = m.key := same ▸ before.record i inside
        by_cases own : m.key = key
        · subst own
          have began : .began s.begun i m.key ∈ u.log := third.log.subset List.mem_cons_self
          have last := third.told.finish still keyed began (before.newer i leads) v
          simp only [Realm.outcome_keep ask fun _ => plain _ _]
          refine ⟨before.trans last,fun w done _ => ?_⟩
          cases done
          exact ⟨if_pos rfl,⟨_,_,List.mem_cons_self⟩,.inl ⟨_,_,rfl⟩⟩
        · have ended := third.told.report (x := .ended s.begun i m.key v)
            (fun n j w same => own (by cases same; rfl)) ⟨fun same => absurd same own,third.told.orderly⟩
            (third.told.numbered.other rfl)
          have fifth := onward_keep asks ended.told own v
          revert fifth
          simp only
          rcases ((e.runner ask).keep e.table m.key v).outcome
            { u with log := .ended s.begun i m.key v :: u.log } with ⟨x | y,w⟩
          · exact fun fifth => ⟨before.trans (ended.trans fifth),nofun⟩
          · intro fifth
            have all := before.trans (ended.trans fifth)
            have other : (w.registry.record i).key ≠ key := by
              rw [all.record i inside,same]
              exact own
            exact ⟨all.trans (fifth.told.mark other),fun _ _ same => absurd same own⟩

/-- What serving a module comes to that a specifier leads to. -/
theorem onward_serve {ask : Nat → List String → String → Deed σ Value Value} (plain : ∀ w v, e.assigns w key v = none)
    (asks : ∀ parent chain specifier, Keeps e key (ask parent chain specifier)) (chain : List String)
    (told : Told e key s) (inside : i < s.registry.records.size)
    (leads : s.registry.find? (s.registry.record i).key = some i) :
    Onward e key s ((e.serve ask chain i).outcome s).2 ∧
      ∀ v, ((e.serve ask chain i).outcome s).1 = .ok v → (s.registry.record i).key = key →
        Due key ((e.serve ask chain i).outcome s).2 i v := by
  rcases Realm.serve_cases (e := e) (s := s) ask chain i with
    ⟨v,evaluated,own,served⟩ | ⟨code,evaluated,unset,-,served⟩ | ⟨missing,served⟩
  · rw [served]
    refine ⟨told.refl,fun w done same => ?_⟩
    cases done
    obtain ⟨n,u,ended⟩ := told.marked i same evaluated
    refine ⟨told.own.symm.trans (same ▸ own),⟨n,u,ended⟩,.inr fun m j u ended => ?_⟩
    obtain ⟨-,-,-,k,found,le⟩ := told.ended m j u ended
    cases (same ▸ leads).symm.trans found
    exact le
  · -- The table would have the exports of a module of the key.
    have other : (s.registry.record i).key ≠ key := by
      intro same
      obtain ⟨n,u,ended⟩ := told.marked i same evaluated
      exact ended_of_latest (told.own.symm.trans (same ▸ unset)) ended
    rw [served]
    exact ⟨keeps_play asks code s told,fun _ _ same => absurd same other⟩
  · rw [served]
    exact onward_renew plain asks chain told inside leads missing

theorem keeps_ask (plain : ∀ w v, e.assigns w key v = none) (depth parent : Nat) (chain : List String)
    (specifier : String) : Keeps e key (e.ask depth parent chain specifier) := by
  induction depth generalizing parent chain specifier with
  | zero => exact fun s told => told.refl
  | succ depth asks =>
    intro s told
    cases blank : Text.allBlank specifier with
    | true =>
      rw [Realm.outcome_ask_blank blank]
      exact told.refl
    | false =>
      rcases resolved : s.registry.resolve (e.files s.world) parent specifier with ⟨found,r,accesses⟩
      obtain ⟨grows,leads⟩ := resolve_grows told.sound resolved
      have first := told.evolve (.of_grows told.sound grows)
      cases found with
      | error f =>
        rw [Realm.outcome_ask_unresolved blank resolved]
        exact first
      | ok i =>
        have found : r.find? (r.record i).key = some i := leads i rfl
        have inside := (first.told.sound _ i found).1
        have served := onward_serve plain asks chain first.told inside found
        rw [Realm.outcome_ask blank resolved]
        revert served
        rcases (e.serve (e.ask depth) chain i).outcome { s with registry := r } with ⟨x | v,t⟩
        · exact fun served => first.trans served.1
        · rintro ⟨second,due⟩
          have keyed : (t.registry.record i).key = (r.record i).key := second.record i inside
          refine first.trans (second.trans
            (second.told.report nofun ⟨fun same => ?_,second.told.orderly⟩ (second.told.numbered.other rfl)))
          exact due v rfl (keyed.symm.trans same)

/-! ### The theorem -/

/-- A generation begins: nothing is marked in it, its table is empty, and nothing has happened. -/
structure Begins (e : Realm σ Value) (s : Era σ Value) : Prop where
  made : Made s.registry
  unmarked : ∀ i, (s.registry.record i).evaluatedIn ≠ e.generation
  exports : s.exports = []
  log : s.log = []

theorem Begins.told (begins : Begins e s) (key : String) : Told e key s where
  sound := begins.made.sound
  own := by
    rw [begins.exports,begins.log]
    rfl
  marked i _ evaluated := absurd evaluated (begins.unmarked i)
  ended n i v ended := by
    rw [begins.log] at ended
    cases ended
  orderly := by
    rw [begins.log]
    trivial
  numbered := by
    rw [begins.log]
    exact ⟨fun n member => absurd member List.not_mem_nil,List.nodup_nil⟩

theorem Begins.told_after (begins : Begins e s) (plain : ∀ w v, e.assigns w key v = none) (depth : Nat)
    (code : Code σ Value) : Told e key (e.after depth code s) :=
  (keeps_play (keeps_ask plain depth) code s (begins.told key)).told

/-- In a generation, whatever its scripts and modules ask by which `require` and register in between: if a key is a
plain property of the table of exports, then every answer for a module of the key is the exports of the evaluation of
the key that ended last; and all answers for one record are the exports of one evaluation of it, unless an evaluation
of the key was in progress when one of the record ended, and ended later. No number is that of two evaluations. -/
theorem one_value_of_record (begins : Begins e s) (plain : ∀ w v, e.assigns w key v = none) (depth : Nat)
    (code : Code σ Value) (i : Nat) :
    (∀ v later earlier, (e.after depth code s).log = later ++ .answered i key v :: earlier →
      latest key earlier = some v) ∧
    (∀ v w, .answered i key v ∈ (e.after depth code s).log → .answered i key w ∈ (e.after depth code s).log →
      (v = w ∧ ∃ n, .ended n i key v ∈ (e.after depth code s).log) ∨ Enclosed (e.after depth code s).log i key) ∧
    ((e.after depth code s).log.filterMap Report.began?).Nodup := by
  have told := begins.told_after plain depth code
  refine ⟨fun v later earlier same => ?_,fun v w first second => told.orderly.one_value first second,told.numbered.2⟩
  have orderly := told.orderly
  rw [same] at orderly
  exact (orderly.suffix.1 rfl).1

end

/-! ### Requires that answer otherwise -/

/-- A generation in which values are numbers, or the prototype of all objects. One body requires its own module by the
`require` of the main script; one registers another module in its place and requires that one; every other one ends
with a number. A number that is assigned to `__proto__` is not kept, and there is always a prototype. -/
def wayward : Realm Nat (Option Nat) where
  files _ := .none
  check _ _ := .ok ()
  generation := 1
  started := Nat.one_pos
  body program _ _ :=
    if program.source = Module.wrap "again" then
      .looks fun visits =>
        if visits = 0 then .changes 1 (.requires 1 [] "a" fun _ => .ends (.ok (some 10)))
        else .ends (.ok (some 20))
    else if program.source = Module.wrap "replace" then
      .registers "a" "" none (.requires 1 [] "a" fun _ => .ends (.ok (some 10)))
    else .ends (.ok (some 5))
  table := none
  inherits _ key := if key = prototypeKey then some (.ends (.ok none)) else none
  assigns _ key _ := if key = prototypeKey then some (.ends (.ok none)) else none

/-- A generation begins in which one module is registered. -/
def waywardStart (name body : String) : Era Nat (Option Nat) where
  registry := (Registry.new ⟨"/"⟩).setModule (.named name body)
  world := 0
  exports := []
  begun := 0
  log := []

/-- The log after the main script has required a module twice. -/
def waywardLog (name body : String) : List (Report (Option Nat)) :=
  (wayward.after 3 (.requires 1 [] name fun _ => .requires 1 [] name .ends) (waywardStart name body)).log

theorem wayward_begins (name body : String) : Begins wayward (waywardStart name body) where
  made := .setModule _ (.new _)
  unmarked i := by
    have evolves : Evolves (.new ⟨"/"⟩) (waywardStart name body).registry :=
      .register (m := .named name body) (Made.new ⟨"/"⟩).sound rfl
    have unmarked : ((waywardStart name body).registry.record i).evaluatedIn = 0 := by
      by_cases old : i < 2
      · rw [(evolves.record i old).2]
        rcases i with _ | _ | i
        · rfl
        · rfl
        · omega
      · exact evolves.fresh i (Nat.not_lt.mp old)
    rw [unmarked]
    exact Nat.zero_ne_one
  exports := rfl
  log := rfl

theorem one_value_of_record_of_again : Begins wayward (waywardStart "a" "again") ∧
    (∀ w v, wayward.assigns w "a" v = none) ∧ Enclosed (waywardLog "a" "again") 2 "a" := by
  have plain : ∀ w v, wayward.assigns w "a" v = none := by simp [wayward,prototypeKey]
  obtain ⟨-,same,-⟩ := one_value_of_record (wayward_begins "a" "again") plain 3
    (.requires 1 [] "a" fun _ => .requires 1 [] "a" .ends) 2
  have answers : Report.answered 2 "a" (some 10) ∈ waywardLog "a" "again" ∧
      .answered 2 "a" (some 20) ∈ waywardLog "a" "again" := by decide +kernel
  refine ⟨wayward_begins "a" "again",plain,(same (some 10) (some 20) answers.1 answers.2).resolve_left ?_⟩
  rintro ⟨same,-⟩
  cases same

/-- Requires that lead to one record answer different values: where a body requires its own module by another `require`,
where a module is replaced while its body runs, and where the table does not keep the exports. -/
theorem values_of_one_record :
    waywardLog "a" "again" = [.answered 2 "a" (some 10),.answered 2 "a" (some 10),.ended 0 2 "a" (some 10),
      .answered 2 "a" (some 20),.ended 1 2 "a" (some 20),.began 1 2 "a",.began 0 2 "a"] ∧
    waywardLog "a" "replace" = [.answered 3 "a" (some 10),.answered 2 "a" (some 10),.ended 0 2 "a" (some 10),
      .answered 3 "a" (some 5),.ended 1 3 "a" (some 5),.began 1 3 "a",.began 0 2 "a"] ∧
    waywardLog prototypeKey "" = [.answered 2 prototypeKey none,.answered 2 prototypeKey (some 5),
      .ended 0 2 prototypeKey (some 5),.began 0 2 prototypeKey] := by
  decide +kernel

end ScriptHost.Registry
