import Mathlib.Data.List.Perm.Subperm
import ScriptHost.Proofs.Registry.Nesting
/-!
Requires over whole graphs of modules. A require from the main script goes through the modules just as the
depth-first walk does: `Follows` is what the state of the engine has to do with the log of a walk, every
require takes a walk from one point to another one (`Comes`), and what the end of the walk tells about the
graph is what the require returns.
-/
namespace ScriptHost.Registry
variable {Value : Type}

/-- What the requires of the modules of a graph do to a registry. -/
inductive Visit (e : Engine Value) (G : Graph Value) (r : Registry) : Registry → Prop where
  | resolve {k s : String} {i : Nat} (member : k ∈ G.keys) (found : r.find? k = some i) (called : s ∈ G.calls k) :
    Visit e G r (r.resolve e.files i s).2.1
  | compile {k : String} {i : Nat} (member : k ∈ G.keys) (found : r.find? k = some i) :
    Visit e G r (r.compileModule e.check i).2
  | mark {k : String} {i : Nat} (member : k ∈ G.keys) (found : r.find? k = some i) :
    Visit e G r (r.markEvaluated i e.generation)

/-- What such requires may have made of a registry. -/
def Later (e : Engine Value) (G : Graph Value) : Registry → Registry → Prop := Relation.ReflTransGen (Visit e G)

/-- The files and the registry are those of a graph: a specifier of the main script leads to its root, and
    whenever one of its modules is run, it compiles to a body that makes the calls of the graph, and these
    lead where the graph says. -/
structure Serves (e : Engine Value) (G : Graph Value) (r : Registry) (specifier root : String) : Prop where
  proper : prototypeKey ∉ G.keys
  visible : Text.allBlank specifier = false ∧ ∀ k ∈ G.keys, ∀ s ∈ G.calls k, Text.allBlank s = false
  entry : root ∈ G.keys
  begins : ∃ i t accesses, r.resolve e.files r.main specifier = (.ok i,t,accesses) ∧ (t.record i).key = root
  leads : ∀ t, Later e G (r.resolve e.files r.main specifier).2.1 t → ∀ k ∈ G.keys, ∀ i, t.find? k = some i →
    ∀ s ∈ G.calls k, ∃ j u accesses, t.resolve e.files i s = (.ok j,u,accesses) ∧ (u.record j).key = G.target k s
  compiles : ∀ t, Later e G (r.resolve e.files r.main specifier).2.1 t → ∀ k ∈ G.keys, ∀ i, t.find? k = some i →
    ∃ p u, t.compileModule e.check i = (.ok p,u) ∧ e.script p = .plain (G.ending k) (G.calls k)

section
variable {e : Engine Value} {G : Graph Value} {r t u : Registry}

theorem Visit.change (visit : Visit e G r t) : Change e.files e.check r t := by
  cases visit with
  | resolve => exact .resolve _ _
  | compile => exact .compile _
  | mark => exact .mark _ _

theorem Later.sound (later : Later e G r t) (sound : Sound r) : Sound t := by
  induction later with
  | refl => exact sound
  | tail before visit sound => exact visit.change.sound sound

theorem Later.find (later : Later e G r t) (sound : Sound r) {key : String} {i : Nat}
    (found : r.find? key = some i) : t.find? key = some i := by
  induction later with
  | refl => exact found
  | tail before visit found =>
    have sound := Later.sound before sound
    cases visit with
    | resolve => exact (resolve_grows sound rfl).1.kept key i found
    | compile => rw [compile_find]; exact found
    | mark => exact found

end

/-- What the state of an engine has to do with the log of a walk: the modules of the graph that have run to
    their ends are the ones that are marked, and the table has their exports. `first` and `old` are the
    registry and the log at the beginning. -/
structure Follows (e : Engine Value) (G : Graph Value) (first : Registry) (old : List Happening)
    (st : Stage Value) (log : List Happening) : Prop where
  later : Later e G first st.registry
  logged : st.log = log ++ old
  marked : ∀ k ∈ G.keys, ∀ i, st.registry.find? k = some i →
    ((st.registry.record i).evaluatedIn = e.generation ↔ .ended k ∈ log)
  kept : ∀ k ∈ G.keys, .ended k ∈ log →
    ∃ i v, st.registry.find? k = some i ∧ G.ending k = .ok v ∧ st.exports.lookup k = some v

namespace Follows
variable {e : Engine Value} {G : Graph Value} {first : Registry} {old log : List Happening} {st : Stage Value}

/-- Records that a resolve adds are of modules that have not run. -/
theorem resolve (sound : Sound first) (follows : Follows e G first old st log) {k s : String} {i j : Nat}
    {t : Registry} {accesses : List Access} (member : k ∈ G.keys) (found : st.registry.find? k = some i)
    (called : s ∈ G.calls k) (resolved : st.registry.resolve e.files i s = (.ok j,t,accesses)) :
    Follows e G first old { st with registry := t } log := by
  have grows := (resolve_grows (follows.later.sound sound) resolved).1
  have visit : Visit e G st.registry t := by
    have visit := Visit.resolve (e := e) member found called
    rwa [resolved] at visit
  refine ⟨follows.later.tail visit,follows.logged,fun key inside h lead => ?_,fun key inside ended => ?_⟩
  · cases before : st.registry.find? key with
    | none =>
      have unevaluated := grows.evaluatedIn (grows.fresh key h before lead).1
      have started := e.started
      constructor
      · intro evaluated
        have zero : (0 : Nat) = e.generation := unevaluated.symm.trans evaluated
        omega
      · intro ended
        obtain ⟨h',v,also,-⟩ := follows.kept key inside ended
        cases before.symm.trans also
    | some h' =>
      have same : some h' = some h := (grows.kept key h' before).symm.trans lead
      cases same
      rw [grows.record (follows.later.sound sound key h before).1]
      exact follows.marked key inside h before
  · obtain ⟨h,v,lead,ending,exports⟩ := follows.kept key inside ended
    exact ⟨h,v,grows.kept key h lead,ending,exports⟩

theorem compile (follows : Follows e G first old st log) {k : String} {i : Nat} (member : k ∈ G.keys)
    (found : st.registry.find? k = some i) :
    Follows e G first old { st with registry := (st.registry.compileModule e.check i).2 } log := by
  refine ⟨follows.later.tail (.compile member found),follows.logged,fun key inside h lead => ?_,
    fun key inside ended => ?_⟩
  · rw [compile_find] at lead
    rw [(compile_keeps e.check st.registry i h).2]
    exact follows.marked key inside h lead
  · obtain ⟨h,v,lead,rest⟩ := follows.kept key inside ended
    exact ⟨h,v,by rwa [compile_find],rest⟩

theorem began (follows : Follows e G first old st log) (k : String) :
    Follows e G first old { st with log := .began k :: st.log } (.began k :: log) := by
  refine ⟨follows.later,congrArg (_ :: ·) follows.logged,fun key inside h lead => ?_,fun key inside ended => ?_⟩
  · rw [follows.marked key inside h lead]
    simp
  · exact follows.kept key inside (by simpa using ended)

/-- The exports of a module are kept, and it is marked. -/
theorem ended (sound : Sound first) (follows : Follows e G first old st log) {k : String} {i : Nat} {v : Value}
    (member : k ∈ G.keys) (found : st.registry.find? k = some i) (ending : G.ending k = .ok v) :
    Follows e G first old
      { st with
        registry := st.registry.markEvaluated i e.generation
        exports := (k,v) :: st.exports.filter (·.1 ≠ k)
        log := .ended k :: st.log }
      (.ended k :: log) := by
  have sound := follows.later.sound sound
  obtain ⟨lt,own⟩ := sound k i found
  refine ⟨follows.later.tail (.mark member found),congrArg (_ :: ·) follows.logged,fun key inside h lead => ?_,
    fun key inside ended => ?_⟩
  · have lead : st.registry.find? key = some h := lead
    show ((st.registry.update i _).record h).evaluatedIn = _ ↔ _
    rw [record_update _ _ lt]
    by_cases same : i = h
    · subst same
      have same : key = k := (sound key i lead).2.symm.trans own
      simp [same]
    · have other : key ≠ k := fun equal => same (Option.some.inj (found.symm.trans (equal ▸ lead)))
      rw [if_neg same,follows.marked key inside h lead]
      simp [other]
  · by_cases same : key = k
    · subst same
      exact ⟨i,v,found,ending,by simp⟩
    · obtain ⟨h,w,lead,fine,exports⟩ := follows.kept key inside (by simpa [same] using ended)
      refine ⟨h,w,lead,fine,?_⟩
      have other : (key == k) = false := by simpa using same
      rw [List.lookup_cons,other]
      exact (lookup_filter st.exports same).trans exports

end Follows

/-! ### Requires take walks further -/

/-- What a walk that cannot go on is blamed for. -/
def Blames (G : Graph Value) (w : Walk) : Thrown Value → Prop
  | .failure f => ∃ m, f = .requireLoop m ∧ w.Loops G m
  | .value v => w.Throws G v
  | .overflow => False

/-- What a part of a run comes to takes a walk to the point at which the modules in progress are `frames`,
    with a value that is as it should be, or to a point that what was thrown is to be blamed on; or else the
    stack is not deep enough. -/
inductive Comes (e : Engine Value) (G : Graph Value) (deep : Prop) (first : Registry) (old : List Happening)
    (st : Stage Value) (w : Walk) (frames : List (String × List String)) (good : Value → Prop) :
    Except (Thrown Value) Value × Stage Value → Prop where
  | done {v : Value} {u : Stage Value} {log : List Happening} (reaches : w.Reaches G ⟨frames,log⟩)
    (later : Later e G st.registry u.registry) (follows : Follows e G first old u log) (value : good v) :
    Comes e G deep first old st w frames good (.ok v,u)
  | thrown {x : Thrown Value} {u : Stage Value} {stuck : Walk} (reaches : w.Reaches G stuck)
    (blames : Blames G stuck x) (logged : u.log = stuck.log ++ old) :
    Comes e G deep first old st w frames good (.error x,u)
  | overflow {u : Stage Value} (shallow : ¬ deep) : Comes e G deep first old st w frames good (.error .overflow,u)

section
variable {e : Engine Value} {G : Graph Value} {first : Registry} {old log : List Happening} {st : Stage Value}
  {root : String} {deep : Prop}

theorem Comes.after {u : Stage Value} {w x : Walk} {frames : List (String × List String)} {good wide : Value → Prop}
    {result : Except (Thrown Value) Value × Stage Value} (comes : Comes e G deep first old u x frames good result)
    (before : w.Reaches G x) (earlier : Later e G st.registry u.registry) (widens : ∀ v, good v → wide v) :
    Comes e G deep first old st w frames wide result := by
  cases comes with
  | overflow shallow => exact .overflow shallow
  | done reaches later follows value =>
    exact .done (before.trans reaches) (earlier.trans later) follows (widens _ value)
  | thrown reaches blames logged => exact .thrown (before.trans reaches) blames logged

/-- The modules in progress are modules of the graph. -/
theorem Walk.Sound.members {w : Walk} (sound : w.Sound G root) (entry : root ∈ G.keys) :
    ∀ k ∈ w.active, k ∈ G.keys := by
  have reached : ∀ k, G.Reach root k → k ∈ G.keys := by
    intro k reach
    induction reach with
    | refl => exact entry
    | tail path edge member =>
      obtain ⟨s,called,rfl⟩ := edge
      exact G.closed _ member s called
  exact fun k active => reached k (sound.reached k ((sound.begun k).mpr (.inr active)))

/-- There are no more modules in progress than modules. -/
theorem Walk.Sound.active_le {w : Walk} (sound : w.Sound G root) (entry : root ∈ G.keys) :
    w.frames.length ≤ G.keys.length := by
  have le := (List.subperm_of_subset sound.nodup (sound.members entry)).length_le
  rwa [Walk.active,List.length_map] at le

/-- The bodies of the graph, run at a depth of requires, take walks to the points at which they end. -/
def Runs (e : Engine Value) (G : Graph Value) (first : Registry) (old : List Happening) (root : String)
    (deep : Prop) (depth : Nat) : Prop :=
  ∀ k specifiers frames log i st, Walk.Sound G root ⟨(k,specifiers) :: frames,log⟩ →
    Follows e G first old st log → st.registry.find? k = some i →
    (deep → G.keys.length ≤ depth+(frames.length+1)) → Comes e G deep first old st ⟨(k,specifiers) :: frames,log⟩
      ((k,[]) :: frames) (fun v => G.ending k = .ok v)
      (((Script.plain (G.ending k) specifiers).run
        (e.ask (e.evaluate depth) i (k :: frames.map Prod.fst).reverse)).outcome st)

/-- The wrapper of a module that is required for the first time is run, and its exports are kept. -/
theorem comes_fresh (sound : Sound first) (entry : root ∈ G.keys) (depth : Nat)
    (frames : List (String × List String)) (runs : ∀ less, depth = less+1 → Runs e G first old root deep less)
    {t : String} {j : Nat} {p : Program}
    (walk : Walk.Sound G root ⟨(t,G.calls t) :: frames,.began t :: log⟩)
    (follows : Follows e G first old st log) (found : st.registry.find? t = some j)
    (script : e.script p = .plain (G.ending t) (G.calls t)) (fits : deep → G.keys.length ≤ depth+frames.length) :
    Comes e G deep first old st ⟨(t,G.calls t) :: frames,.began t :: log⟩ frames (fun v => G.ending t = .ok v)
      (match (e.evaluate depth p j ((frames.map Prod.fst).reverse ++ [t])).outcome st with
      | (.error x,u) => (.error x,u)
      | (.ok v,u) => (.ok v,{ u with
        exports := (t,v) :: u.exports.filter (·.1 ≠ t)
        registry := u.registry.markEvaluated j e.generation })) := by
  have member : t ∈ G.keys := walk.members entry t List.mem_cons_self
  have own : (st.registry.record j).key = t := (follows.later.sound sound t j found).2
  have active := walk.active_le entry
  simp only [List.length_cons] at active
  rcases Nat.eq_zero_or_pos depth with rfl | positive
  · refine .overflow fun enough => ?_
    have room := fits enough
    omega
  obtain ⟨less,rfl⟩ : ∃ less, depth = less+1 := ⟨depth-1,by omega⟩
  have chain : (frames.map Prod.fst).reverse ++ [t] = (t :: frames.map Prod.fst).reverse := by simp
  rw [evaluate_succ,own,script,chain]
  have comes := runs less rfl t (G.calls t) frames (.began t :: log) j _ walk (follows.began t) found
    fun enough => Nat.le_trans (fits enough) (by omega)
  cases ran : ((Script.plain (G.ending t) (G.calls t)).run
      (e.ask (e.evaluate less) j (t :: frames.map Prod.fst).reverse)).outcome
        { st with log := .began t :: st.log } with
  | mk result u =>
    rw [ran] at comes
    cases comes with
    | thrown reaches blames logged => exact .thrown reaches blames logged
    | overflow shallow => exact .overflow shallow
    | @done v u log' reaches later after ending =>
      have found : u.registry.find? t = some j := Later.find later (follows.later.sound sound) found
      exact .done (reaches.tail (.leave ending)) (later.tail (.mark member found))
        (after.ended sound member found ending) ending

/-- A body makes its next require. -/
theorem comes_ask {r : Registry} {specifier : String} (serves : Serves e G r specifier root)
    (same : first = (r.resolve e.files r.main specifier).2.1) (sound : Sound first) {depth : Nat}
    (runs : ∀ less, depth = less+1 → Runs e G first old root deep less) {k s : String} {rest : List String}
    {frames : List (String × List String)} {i : Nat} (walk : Walk.Sound G root ⟨(k,s :: rest) :: frames,log⟩)
    (follows : Follows e G first old st log) (found : st.registry.find? k = some i)
    (fits : deep → G.keys.length ≤ depth+(frames.length+1)) :
    Comes e G deep first old st ⟨(k,s :: rest) :: frames,log⟩ ((k,rest) :: frames) (fun _ => True)
      ((e.ask (e.evaluate depth) i (k :: frames.map Prod.fst).reverse s).outcome st) := by
  have member : k ∈ G.keys := walk.members serves.entry k List.mem_cons_self
  have called : s ∈ G.calls k := walk.pending.1 s List.mem_cons_self
  have visible := serves.visible.2 k member s called
  obtain ⟨j,t,accesses,resolved,own⟩ := serves.leads st.registry (same ▸ follows.later) k member i found s called
  have target : G.target k s ∈ G.keys := G.closed k member s called
  have lead : t.find? (G.target k s) = some j := by
    rw [← own]
    exact (resolve_grows (follows.later.sound sound) resolved).2 j rfl
  have after := follows.resolve sound member found called resolved
  have resolution : Visit e G st.registry t := by
    have visit := Visit.resolve (e := e) member found called
    rwa [resolved] at visit
  have marked : (t.record j).evaluatedIn = e.generation ↔ .ended (G.target k s) ∈ log :=
    after.marked _ target j lead
  by_cases ended : .ended (G.target k s) ∈ log
  · -- The module is done: its exports are found in the table.
    obtain ⟨h,v,-,-,exports⟩ := after.kept _ target ended
    have proper : (t.record j).key ≠ prototypeKey := by
      rw [own]
      exact fun equal => serves.proper (equal ▸ target)
    rw [ask_known visible resolved (marked.mpr ended) proper (own ▸ exports)]
    exact .done (.single (.known ended)) (.single resolution) after trivial
  · have unevaluated : (t.record j).evaluatedIn ≠ e.generation := fun evaluated => ended (marked.mp evaluated)
    obtain ⟨p,u,compiled,script⟩ := serves.compiles t (same ▸ after.later) _ target j lead
    by_cases active : G.target k s ∈ k :: frames.map Prod.fst
    · -- The module is in progress.
      have chained : (t.record j).key ∈ (k :: frames.map Prod.fst).reverse := by
        rw [own]
        exact List.mem_reverse.mpr active
      rw [ask_loops visible resolved unevaluated compiled chained]
      exact .thrown .refl ⟨_,rfl,k,s,rest,frames,rfl,own.symm,own ▸ active⟩ follows.logged
    · -- The module is required for the first time.
      have apart : (t.record j).key ∉ (k :: frames.map Prod.fst).reverse := by
        rw [own]
        exact fun chained => active (List.mem_reverse.mp chained)
      have proper : (t.record j).key ≠ prototypeKey := by
        rw [own]
        exact fun equal => serves.proper (equal ▸ target)
      have compilation : Visit e G t u := by
        have visit := Visit.compile (e := e) target lead
        rwa [compiled] at visit
      have ready : Follows e G first old { st with registry := u } log := by
        have ready := after.compile target lead
        simpa only [compiled] using ready
      have kept : u.find? (G.target k s) = some j := by
        have kept := compile_find e.check t j (G.target k s)
        rw [compiled] at kept
        exact kept.trans lead
      have step : Walk.Step G ⟨(k,s :: rest) :: frames,log⟩ _ := .enter ended active
      have inner := comes_fresh sound serves.entry depth ((k,rest) :: frames) runs
        (Walk.sound_step walk step) ready kept script (by simpa using fits)
      rw [ask_fresh visible resolved unevaluated compiled apart proper,own]
      exact inner.after (.single step) ((Relation.ReflTransGen.single resolution).tail compilation)
        fun _ _ => trivial

/-- Bodies take walks to their ends, whatever the depth at which they run. -/
theorem runs_of_serves {r : Registry} {specifier : String} (serves : Serves e G r specifier root)
    (same : first = (r.resolve e.files r.main specifier).2.1) (sound : Sound first) (depth : Nat) :
    Runs e G first old root deep depth := by
  induction depth using Nat.strongRecOn with
  | ind depth shallower =>
    intro k specifiers
    induction specifiers with
    | nil =>
      intro frames log i st walk follows found fits
      rw [Script.plain,Script.outcome_ends]
      cases ending : G.ending k with
      | error v => exact .thrown .refl ⟨k,frames,rfl,ending⟩ follows.logged
      | ok v => exact .done .refl .refl follows rfl
    | cons s rest ih =>
      intro frames log i st walk follows found fits
      have asked := comes_ask serves same sound (fun less next => shallower less (by omega)) walk follows found fits
      rw [Script.outcome_plain]
      revert asked
      rcases (e.ask (e.evaluate depth) i (k :: frames.map Prod.fst).reverse s).outcome st with ⟨x | v,u⟩
      · intro asked
        cases asked with
        | thrown reaches blames logged => exact .thrown reaches blames logged
        | overflow shallow => exact .overflow shallow
      · intro asked
        cases asked with
        | @done _ _ log' reaches later after value =>
          have found : u.registry.find? k = some i := Later.find later (follows.later.sound sound) found
          have walk := Walk.sound_of_steps walk reaches
          exact (ih frames log' i u walk after found fits).after reaches later fun _ ok => ok

/-- A require from the main script takes the walk from its beginning to its end. -/
theorem comes_main {specifier : String} (made : Made st.registry) (serves : Serves e G st.registry specifier root)
    (unevaluated : ∀ k ∈ G.keys, ∀ i, st.registry.find? k = some i →
      (st.registry.record i).evaluatedIn ≠ e.generation) (depth : Nat) :
    ∃ t, Comes e G (G.keys.length ≤ depth) (st.registry.resolve e.files st.registry.main specifier).2.1 st.log t
      (Walk.start G root) [] (fun v => G.ending root = .ok v) (e.main depth specifier st) := by
  obtain ⟨i,r,accesses,resolved,own⟩ := serves.begins
  have same : r = (st.registry.resolve e.files st.registry.main specifier).2.1 := by rw [resolved]
  obtain ⟨grows,lead⟩ := resolve_grows made.sound resolved
  have sound : Sound r := grows.sound made.sound
  have lead : r.find? root = some i := own ▸ lead i rfl
  have old : ∀ k ∈ G.keys, ∀ h, r.find? k = some h → (r.record h).evaluatedIn ≠ e.generation := by
    intro k member h found
    cases before : st.registry.find? k with
    | none =>
      rw [grows.evaluatedIn (grows.fresh k h before found).1]
      exact Nat.ne_of_lt e.started
    | some h' =>
      have equal : some h' = some h := (grows.kept k h' before).symm.trans found
      cases equal
      rw [grows.record (made.sound k h before).1]
      exact unevaluated k member h before
  have follows : Follows e G r st.log { st with registry := r } [] := by
    refine ⟨.refl,rfl,fun k member h found => ?_,fun k member ended => by cases ended⟩
    simpa using old k member h found
  obtain ⟨p,u,compiled,script⟩ := serves.compiles r (same ▸ .refl) root serves.entry i lead
  have ready : Follows e G r st.log { st with registry := u } [] := by
    have ready := follows.compile serves.entry lead
    simpa only [compiled] using ready
  have kept : u.find? root = some i := by
    have kept := compile_find e.check r i root
    rw [compiled] at kept
    exact kept.trans lead
  have comes := comes_fresh sound serves.entry depth []
    (fun less _ => runs_of_serves serves same sound less) (Walk.sound_start G root) ready kept script
    fun enough : G.keys.length ≤ depth => enough
  have proper : (r.record i).key ≠ prototypeKey := by
    rw [own]
    exact fun equal => serves.proper (equal ▸ serves.entry)
  have apart : (r.record i).key ∉ ([] : List String) := List.not_mem_nil
  refine ⟨{ st with registry := u },?_⟩
  rw [← same,Engine.main,ask_fresh serves.visible.1 resolved (old root serves.entry i lead) compiled apart proper,
    own]
  exact comes

/-- What a require of the root of a graph from the main script comes to; `log` is what happened to bodies,
    newest first. -/
structure Answered (e : Engine Value) (G : Graph Value) (root : String) (result : Except (Thrown Value) Value)
    (t : Stage Value) (log : List Happening) : Prop where
  /-- No body begins or ends twice, and only those of modules that can be reached do. -/
  once : log.Nodup
  reached : ∀ k, .began k ∈ log → G.Reach root k
  /-- A body runs to its end only after those of all modules that it requires. -/
  ordered : ∀ later earlier k, log = later ++ .ended k :: earlier → ∀ t, G.Edge k t → .ended t ∈ earlier
  returns : G.Fine root → ∃ v, result = .ok v ∧ G.ending root = .ok v
  complete : G.Fine root → ∀ k, G.Reach root k → .began k ∈ log ∧ .ended k ∈ log
  kept : G.Fine root → ∀ k, G.Reach root k → ∃ i v, t.registry.find? k = some i ∧
    (t.registry.record i).evaluatedIn = e.generation ∧ G.ending k = .ok v ∧ t.exports.lookup k = some v
  throws : ¬ G.Fine root → ∃ x, result = .error x
  loops : ∀ m, result = .error (.failure (.requireLoop m)) ↔
    ∃ w, Walk.Reaches G (.start G root) w ∧ w.Loops G m
  /-- Any other error is what the body throws that the walk comes to. -/
  thrown : ∀ x, result = .error x → (∃ m, x = .failure (.requireLoop m)) ∨
    ∃ v w, x = .value v ∧ Walk.Reaches G (.start G root) w ∧ w.Throws G v

private theorem answered_done {v : Value} (entry : root ∈ G.keys)
    (reaches : Walk.Reaches G (.start G root) ⟨[],log⟩) (follows : Follows e G first old st log)
    (value : G.ending root = .ok v) : Answered e G root (.ok v) st log := by
  have sound := Walk.sound_of_reaches reaches
  have members : ∀ k, G.Reach root k → k ∈ G.keys := fun k reach => reach.member entry
  constructor
  case once => exact sound.once
  case reached => exact sound.reached
  case ordered =>
    rintro later earlier k rfl
    exact sound.ordered.split.1
  case returns => exact fun _ => ⟨v,rfl,value⟩
  case complete =>
    intro _ k reach
    have ended := (sound.ended_iff k).mpr reach
    exact ⟨(sound.begun k).mpr (.inl ended),ended⟩
  case kept =>
    intro _ k reach
    have ended := (sound.ended_iff k).mpr reach
    obtain ⟨i,u,found,ending,exports⟩ := follows.kept k (members k reach) ended
    exact ⟨i,u,found,(follows.marked k (members k reach) i found).mpr ended,ending,exports⟩
  case throws => exact fun unfine => absurd sound.fine unfine
  case loops =>
    intro m
    constructor
    · intro none
      cases none
    · rintro ⟨w,other,loops⟩
      have stuck := (Walk.sound_of_reaches other).stuck_of_loops loops
      cases Walk.eq_of_stuck reaches other Walk.stuck_of_done stuck
      obtain ⟨k,s,rest,frames,none,-⟩ := loops
      cases none
  case thrown =>
    intro x none
    cases none

private theorem answered_thrown {x : Thrown Value} {w : Walk} (reaches : Walk.Reaches G (.start G root) w)
    (blames : Blames G w x) : Answered e G root (.error x) st w.log := by
  have sound := Walk.sound_of_reaches reaches
  have unfine : ¬ G.Fine root := by
    cases x with
    | failure f =>
      obtain ⟨m,-,loops⟩ := blames
      exact sound.not_fine_of_loops loops
    | value v => exact sound.not_fine_of_throws blames
    | overflow => cases blames
  constructor
  case once => exact sound.once
  case reached => exact sound.reached
  case ordered =>
    intro later earlier k same
    exact (same ▸ sound.ordered).split.1
  case returns => exact fun fine => absurd fine unfine
  case complete => exact fun fine => absurd fine unfine
  case kept => exact fun fine => absurd fine unfine
  case throws => exact fun _ => ⟨x,rfl⟩
  case loops =>
    intro m
    constructor
    · intro same
      cases same
      obtain ⟨m,same,loops⟩ := blames
      cases same
      exact ⟨w,reaches,loops⟩
    · rintro ⟨u,other,loops⟩
      have stuck := (Walk.sound_of_reaches other).stuck_of_loops loops
      cases x with
      | failure f =>
        obtain ⟨m',rfl,own⟩ := blames
        cases Walk.eq_of_stuck reaches other (sound.stuck_of_loops own) stuck
        rw [Walk.loops_unique loops own]
      | value v =>
        cases Walk.eq_of_stuck reaches other (Walk.stuck_of_throws blames) stuck
        exact absurd loops (Walk.not_loops_of_throws blames)
      | overflow => cases blames
  case thrown =>
    intro y same
    cases same
    cases x with
    | failure f =>
      obtain ⟨m,rfl,-⟩ := blames
      exact .inl ⟨m,rfl⟩
    | value v => exact .inr ⟨v,w,rfl,reaches,blames⟩
    | overflow => cases blames

/-- Requires are right on every graph of modules: whatever their number, and whichever cycles, shared
    modules and bodies that throw there are among them. The stack is deep enough if it lets as many bodies
    nest as there are modules. -/
theorem require_graph {specifier : String} (made : Made st.registry)
    (serves : Serves e G st.registry specifier root)
    (unevaluated : ∀ k ∈ G.keys, ∀ i, st.registry.find? k = some i →
      (st.registry.record i).evaluatedIn ≠ e.generation) (depth : Nat) :
    ((e.main depth specifier st).1 = .error .overflow → depth < G.keys.length) ∧
    ((e.main depth specifier st).1 ≠ .error .overflow →
      ∃ log, (e.main depth specifier st).2.log = log ++ st.log ∧
        Answered e G root (e.main depth specifier st).1 (e.main depth specifier st).2 log) := by
  obtain ⟨t,comes⟩ := comes_main made serves unevaluated depth
  revert comes
  rcases e.main depth specifier st with ⟨result,u⟩
  intro comes
  cases comes with
  | done reaches later follows value =>
    exact ⟨fun none => by (cases none),
      fun _ => ⟨_,follows.logged,answered_done serves.entry reaches follows value⟩⟩
  | thrown reaches blames logged =>
    refine ⟨fun overflow => ?_,fun _ => ⟨_,logged,answered_thrown reaches blames⟩⟩
    cases overflow
    cases blames
  | overflow shallow => exact ⟨fun _ => Nat.not_le.mp shallow,fun none => absurd rfl none⟩

end

/-- Two modules; the first one requires the second one, which requires itself. -/
def hook : Graph Unit where
  keys := ["a","b"]
  calls _ := ["b"]
  target _ _ := "b"
  ending _ := .ok ()
  closed := by simp

/-- An engine without files that accepts every body. -/
def hookEngine : Engine Unit where
  files := .none
  check _ _ := .ok ()
  generation := 1
  started := by decide
  script _ := .plain (.ok ()) ["b"]
  table := ()
  inherited _ _ := none

/-- Both modules are registered and none is evaluated. -/
def hookStage : Stage Unit where
  registry := ((Registry.new ⟨"/app"⟩).setModule (.named "a" "")).setModule (.named "b" "")
  exports := []
  prototype := ()
  log := []

theorem hookStage_made : Made hookStage.registry := .setModule _ (.setModule _ (.new _))

theorem hookStage_find : hookStage.registry.find? "a" = some 2 ∧ hookStage.registry.find? "b" = some 3 :=
  ⟨rfl,rfl⟩

theorem hook_serves : Serves hookEngine hook hookStage.registry "a" "a" := by
  have first : hookStage.registry.resolve hookEngine.files hookStage.registry.main "a" =
      (.ok 2,hookStage.registry,[]) := resolve_registered rfl hookStage_find.1
  have second : ∀ {t : Registry}, Later hookEngine hook hookStage.registry t → t.find? "b" = some 3 :=
    fun later => later.find hookStage_made.sound hookStage_find.2
  constructor
  case proper => decide
  case visible =>
    refine ⟨rfl,fun k _ s called => ?_⟩
    have same : s = "b" := by simpa [hook] using called
    exact same ▸ rfl
  case entry => simp [hook]
  case begins => exact ⟨2,_,[],first,rfl⟩
  case leads =>
    intro t later k _ i _ s called
    rw [first] at later
    have same : s = "b" := by simpa [hook] using called
    subst same
    have found := second later
    exact ⟨3,t,[],resolve_registered rfl found,(later.sound hookStage_made.sound "b" 3 found).2⟩
  case compiles =>
    intro t later k _ i _
    have parses : hookEngine.check (t.record i).key (Module.wrap (t.record i).body) = .ok () := rfl
    obtain ⟨p,u,compiled⟩ := compile_ok parses
    exact ⟨p,u,compiled,rfl⟩

theorem hook_unevaluated : ∀ k ∈ hook.keys, ∀ i, hookStage.registry.find? k = some i →
    (hookStage.registry.record i).evaluatedIn ≠ hookEngine.generation := by
  intro k member i found
  rcases List.mem_cons.mp member with rfl | rest
  · cases hookStage_find.1.symm.trans found
    exact Nat.zero_ne_one
  · cases List.mem_singleton.mp rest
    cases hookStage_find.2.symm.trans found
    exact Nat.zero_ne_one

theorem require_graph_hook : Made hookStage.registry ∧ Serves hookEngine hook hookStage.registry "a" "a" ∧
    ((hookEngine.main 2 "a" hookStage).1 = .error .overflow → 2 < hook.keys.length) ∧
    ((hookEngine.main 2 "a" hookStage).1 ≠ .error .overflow →
      ∃ log, (hookEngine.main 2 "a" hookStage).2.log = log ++ hookStage.log ∧
        Answered hookEngine hook "a" (hookEngine.main 2 "a" hookStage).1 (hookEngine.main 2 "a" hookStage).2 log) :=
  ⟨hookStage_made,hook_serves,require_graph hookStage_made hook_serves hook_unevaluated 2⟩

end ScriptHost.Registry
