import Mathlib.Logic.Relation
import Mathlib.Data.List.Nodup
/-!
The depth-first walk through a graph of modules. The modules in progress form a stack of frames, each with
the requires that its body has still to make. A walk goes on until the stack is empty, a body throws, or a
module in progress is required. What is true between any two steps is `Walk.Sound`; from it follows that a
walk which comes to its end has met neither a cycle nor a body that throws.
-/
namespace ScriptHost.Registry

/-- The body of a module began to run, or has run to its end. -/
inductive Happening where
  | began (key : String)
  | ended (key : String)
  deriving DecidableEq

/-- Modules by their keys: what their bodies require one after another, the modules that these specifiers
    lead to, and how the bodies end. -/
structure Graph (Value : Type) where
  keys : List String
  calls : String → List String
  target : String → String → String
  ending : String → Except Value Value
  closed : ∀ k ∈ keys, ∀ s ∈ calls k, target k s ∈ keys

/-- One module requires the other. -/
def Graph.Edge {Value : Type} (G : Graph Value) (k t : String) : Prop := ∃ s ∈ G.calls k, G.target k s = t

/-- A module can be reached by requires. -/
def Graph.Reach {Value : Type} (G : Graph Value) : String → String → Prop := Relation.ReflTransGen G.Edge

theorem Graph.Reach.member {Value : Type} {G : Graph Value} {root k : String} (reach : G.Reach root k)
    (entry : root ∈ G.keys) : k ∈ G.keys := by
  induction reach with
  | refl => exact entry
  | tail path edge member =>
    obtain ⟨s,called,rfl⟩ := edge
    exact G.closed _ member s called

/-- Neither a cycle nor a body that throws can be reached. -/
def Graph.Fine {Value : Type} (G : Graph Value) (root : String) : Prop :=
  ∀ k, G.Reach root k → ¬ Relation.TransGen G.Edge k k ∧ ∃ v, G.ending k = .ok v

/-- The modules in progress, innermost first, each with what its body has still to require, and what
    happened, newest first. -/
structure Walk where
  frames : List (String × List String)
  log : List Happening

namespace Walk
variable {Value : Type} {G : Graph Value} {root : String}

/-- The keys of the modules in progress. -/
def active (w : Walk) : List String := w.frames.map Prod.fst

/-- One step: a module that is done is required, a new one is, or a body runs to its end. -/
inductive Step (G : Graph Value) : Walk → Walk → Prop where
  | known {k s : String} {rest : List String} {frames : List (String × List String)} {log : List Happening}
    (done : .ended (G.target k s) ∈ log) : Step G ⟨(k,s :: rest) :: frames,log⟩ ⟨(k,rest) :: frames,log⟩
  | enter {k s : String} {rest : List String} {frames : List (String × List String)} {log : List Happening}
    (new : .ended (G.target k s) ∉ log) (apart : G.target k s ∉ k :: frames.map Prod.fst) :
    Step G ⟨(k,s :: rest) :: frames,log⟩
      ⟨(G.target k s,G.calls (G.target k s)) :: (k,rest) :: frames,.began (G.target k s) :: log⟩
  | leave {k : String} {v : Value} {frames : List (String × List String)} {log : List Happening}
    (fine : G.ending k = .ok v) : Step G ⟨(k,[]) :: frames,log⟩ ⟨frames,.ended k :: log⟩

/-- The walk goes on from one point to another one. -/
def Reaches (G : Graph Value) : Walk → Walk → Prop := Relation.ReflTransGen (Step G)

/-- The body of the first module begins. -/
def start (G : Graph Value) (root : String) : Walk := ⟨[(root,G.calls root)],[.began root]⟩

/-- The next step would be a require of a module that is in progress. -/
def Loops (G : Graph Value) (w : Walk) (m : String) : Prop :=
  ∃ k s rest frames, w.frames = (k,s :: rest) :: frames ∧ G.target k s = m ∧ m ∈ w.active

/-- The innermost body has made its requires and throws. -/
def Throws (G : Graph Value) (w : Walk) (v : Value) : Prop :=
  ∃ k frames, w.frames = (k,[]) :: frames ∧ G.ending k = .error v

/-- A body has still to make some of its requires, and every other one was of a module that is done or is in
    progress above it. -/
def Pending (G : Graph Value) (log : List Happening) : Option String → List (String × List String) → Prop
  | _, [] => True
  | above, (k,rest) :: frames =>
    (∀ s ∈ rest, s ∈ G.calls k) ∧
      (∀ s ∈ G.calls k, s ∈ rest ∨ .ended (G.target k s) ∈ log ∨ above = some (G.target k s)) ∧
      Pending G log (some k) frames

/-- Bodies have run to their ends after those of all modules that they require. -/
def Ordered (G : Graph Value) : List Happening → Prop
  | [] => True
  | .began _ :: earlier => Ordered G earlier
  | .ended k :: earlier =>
    (∀ t, G.Edge k t → .ended t ∈ earlier) ∧ (∃ v, G.ending k = .ok v) ∧ Ordered G earlier

/-- What is true of a walk at any point. -/
structure Sound (G : Graph Value) (root : String) (w : Walk) : Prop where
  /-- The innermost module is reached from every other one in progress. -/
  path : w.active.Pairwise fun upper lower => Relation.TransGen G.Edge lower upper
  nodup : w.active.Nodup
  pending : Pending G w.log none w.frames
  once : w.log.Nodup
  begun : ∀ k, .began k ∈ w.log ↔ .ended k ∈ w.log ∨ k ∈ w.active
  open_ : ∀ k ∈ w.active, .ended k ∉ w.log
  ordered : Ordered G w.log
  reached : ∀ k, .began k ∈ w.log → G.Reach root k
  first : .began root ∈ w.log

theorem Pending.mono {log : List Happening} {above : Option String} {frames : List (String × List String)}
    (event : Happening) (pending : Pending G log above frames) : Pending G (event :: log) above frames := by
  induction frames generalizing above with
  | nil => trivial
  | cons frame frames ih =>
    refine ⟨pending.1,fun s member => ?_,ih pending.2.2⟩
    rcases pending.2.1 s member with later | done | here
    · exact .inl later
    · exact .inr (.inl (List.mem_cons_of_mem event done))
    · exact .inr (.inr here)

/-- The module above a frame is done. -/
theorem Pending.pop {log : List Happening} {k : String} {frames : List (String × List String)}
    (pending : Pending G log (some k) frames) (done : .ended k ∈ log) : Pending G log none frames := by
  cases frames with
  | nil => trivial
  | cons frame frames =>
    refine ⟨pending.1,fun s member => ?_,pending.2.2⟩
    rcases pending.2.1 s member with later | past | here
    · exact .inl later
    · exact .inr (.inl past)
    · cases here
      exact .inr (.inl done)

theorem sound_start (G : Graph Value) (root : String) : Sound G root (start G root) := by
  refine ⟨List.pairwise_singleton _ _,List.nodup_singleton _,
    ⟨fun _ member => member,fun s member => .inl member,trivial⟩,List.nodup_singleton _,fun k => ?_,fun k _ => ?_,
    trivial,fun k member => ?_,List.mem_cons_self⟩
  · simp [start,active]
  · simp [start]
  · have same : k = root := by simpa [start] using member
    exact same ▸ Relation.ReflTransGen.refl

/-- The modules in progress below the innermost one reach whatever that one requires. -/
private theorem Sound.above {k t : String} {rest : List String} {frames : List (String × List String)}
    {log : List Happening} (sound : Sound G root ⟨(k,rest) :: frames,log⟩) (edge : G.Edge k t) :
    ∀ lower ∈ k :: frames.map Prod.fst, Relation.TransGen G.Edge lower t := by
  intro lower member
  rcases List.mem_cons.mp member with rfl | deeper
  · exact .single edge
  · exact .tail ((List.pairwise_cons.mp sound.path).1 lower deeper) edge

private theorem Sound.reaches {k : String} {w : Walk} (sound : Sound G root w) (member : k ∈ w.active) :
    G.Reach root k :=
  sound.reached k ((sound.begun k).mpr (.inr member))

/-- A body that begins is put above the one that requires it. -/
private theorem Sound.enter {k s : String} {rest : List String} {frames : List (String × List String)}
    {log : List Happening} (sound : Sound G root ⟨(k,s :: rest) :: frames,log⟩)
    (new : .ended (G.target k s) ∉ log) (apart : G.target k s ∉ k :: frames.map Prod.fst) :
    Sound G root ⟨(G.target k s,G.calls (G.target k s)) :: (k,rest) :: frames,
      .began (G.target k s) :: log⟩ := by
  obtain ⟨called,-⟩ := sound.pending
  have edge : G.Edge k (G.target k s) := ⟨s,called s List.mem_cons_self,rfl⟩
  have unbegun : .began (G.target k s) ∉ log := by
    intro began
    rcases (sound.begun _).mp began with ended | active
    · exact new ended
    · exact apart active
  refine ⟨List.pairwise_cons.mpr ⟨sound.above edge,sound.path⟩,List.nodup_cons.mpr ⟨apart,sound.nodup⟩,
    ⟨fun _ member => member,fun _ member => .inl member,fun t later => called t (List.mem_cons_of_mem s later),
      fun t member => ?_,sound.pending.2.2.mono _⟩,
    List.nodup_cons.mpr ⟨unbegun,sound.once⟩,fun t => ?_,fun t member => ?_,sound.ordered,fun t began => ?_,
    List.mem_cons_of_mem _ sound.first⟩
  · rcases sound.pending.2.1 t member with later | done | here
    · rcases List.mem_cons.mp later with rfl | later
      · exact .inr (.inr rfl)
      · exact .inl later
    · exact .inr (.inl (List.mem_cons_of_mem _ done))
    · cases here
  · have before := sound.begun t
    simp only [active,List.map_cons,List.mem_cons,Happening.began.injEq,reduceCtorEq,false_or] at before ⊢
    rw [before]
    exact or_left_comm
  · rcases List.mem_cons.mp member with rfl | deeper
    · simpa using new
    · simpa using sound.open_ t deeper
  · rcases List.mem_cons.mp began with same | before
    · cases same
      exact (sound.reaches List.mem_cons_self).tail edge
    · exact sound.reached t before

/-- A body runs to its end. -/
private theorem Sound.leave {k : String} {v : Value} {frames : List (String × List String)}
    {log : List Happening} (sound : Sound G root ⟨(k,[]) :: frames,log⟩) (fine : G.ending k = .ok v) :
    Sound G root ⟨frames,.ended k :: log⟩ := by
  have fresh : .ended k ∉ log := sound.open_ k List.mem_cons_self
  have apart : k ∉ frames.map Prod.fst := (List.nodup_cons.mp sound.nodup).1
  refine ⟨(List.pairwise_cons.mp sound.path).2,(List.nodup_cons.mp sound.nodup).2,
    (sound.pending.2.2.mono _).pop List.mem_cons_self,List.nodup_cons.mpr ⟨fresh,sound.once⟩,fun t => ?_,
    fun t member => ?_,⟨fun t => ?_,⟨v,fine⟩,sound.ordered⟩,fun t began => ?_,
    List.mem_cons_of_mem _ sound.first⟩
  · have before := sound.begun t
    simp only [active,List.map_cons,List.mem_cons,Happening.ended.injEq,reduceCtorEq,false_or] at before ⊢
    rw [before]
    exact ⟨fun h => h.elim (fun done => .inl (.inr done)) fun h => h.elim (fun top => .inl (.inl top)) .inr,
      fun h => h.elim (fun h => h.elim (fun top => .inr (.inl top)) .inl) fun deeper => .inr (.inr deeper)⟩
  · have other : t ≠ k := fun same => apart (same ▸ member)
    simpa [other] using sound.open_ t (List.mem_cons_of_mem _ member)
  · rintro ⟨s,called,rfl⟩
    rcases sound.pending.2.1 s called with later | done | here
    · cases later
    · exact done
    · cases here
  · exact sound.reached t (by simpa using began)

theorem sound_step {w x : Walk} (sound : Sound G root w) (step : Step G w x) : Sound G root x := by
  cases step with
  | @known k s rest frames log done =>
    obtain ⟨path,nodup,⟨called,made,below⟩,once,begun,open_,ordered,reached,first⟩ := sound
    refine ⟨path,nodup,⟨fun t later => called t (List.mem_cons_of_mem s later),fun t member => ?_,below⟩,once,
      begun,open_,ordered,reached,first⟩
    rcases made t member with later | past | here
    · rcases List.mem_cons.mp later with rfl | later
      · exact .inr (.inl done)
      · exact .inl later
    · exact .inr (.inl past)
    · cases here
  | enter new apart => exact sound.enter new apart
  | leave fine => exact sound.leave fine

theorem sound_of_steps {w x : Walk} (sound : Sound G root w) (reaches : Reaches G w x) : Sound G root x := by
  induction reaches with
  | refl => exact sound
  | tail before step sound => exact sound_step sound step

/-- Whatever a walk from the first module comes to is sound. -/
theorem sound_of_reaches {w : Walk} (reaches : Reaches G (start G root) w) : Sound G root w :=
  sound_of_steps (sound_start G root) reaches

/-! ### The ends of a walk -/

theorem step_deterministic {w x y : Walk} (left : Step G w x) (right : Step G w y) : x = y := by
  cases left with
  | known done =>
    cases right with
    | known => rfl
    | enter new apart => exact absurd done new
  | enter new apart =>
    cases right with
    | known done => exact absurd done new
    | enter => rfl
  | leave => cases right; rfl

/-- A walk that cannot go on. -/
def Stuck (G : Graph Value) (w : Walk) : Prop := ∀ x, ¬ Step G w x

theorem stuck_of_done {log : List Happening} : Stuck G ⟨[],log⟩ := fun _ step => by cases step

theorem Sound.stuck_of_loops {w : Walk} {m : String} (sound : Sound G root w) (loops : Loops G w m) :
    Stuck G w := by
  obtain ⟨frames,log⟩ := w
  obtain ⟨k,s,rest,below,rfl,rfl,member⟩ := loops
  intro x step
  cases step with
  | known done => exact sound.open_ _ member done
  | enter new apart => exact apart member

theorem stuck_of_throws {w : Walk} {v : Value} (throws : Throws G w v) : Stuck G w := by
  obtain ⟨frames,log⟩ := w
  obtain ⟨k,below,rfl,ending⟩ := throws
  intro x step
  cases step with
  | leave fine => cases ending.symm.trans fine

theorem loops_unique {w : Walk} {m n : String} (left : Loops G w m) (right : Loops G w n) : m = n := by
  obtain ⟨k,s,rest,frames,same,rfl,-⟩ := left
  obtain ⟨k',s',rest',frames',same',rfl,-⟩ := right
  cases same.symm.trans same'
  rfl

theorem not_loops_of_throws {w : Walk} {m : String} {v : Value} (throws : Throws G w v) : ¬ Loops G w m := by
  rintro ⟨k,s,rest,frames,same,-⟩
  obtain ⟨k',frames',same',-⟩ := throws
  cases same.symm.trans same'

/-- A walk has one end. -/
theorem eq_of_stuck {w x y : Walk} (left : Reaches G w x) (right : Reaches G w y) (end_ : Stuck G x)
    (other : Stuck G y) : x = y := by
  induction left using Relation.ReflTransGen.head_induction_on with
  | refl =>
    rcases right.cases_head with same | ⟨z,step,-⟩
    · exact same
    · exact absurd step (end_ z)
  | head step rest ih =>
    rcases right.cases_head with same | ⟨z,first,more⟩
    · exact absurd (same ▸ step) (other _)
    · exact ih (step_deterministic first step ▸ more)

/-! ### What the end of a walk tells about the graph -/

theorem Ordered.split {later earlier : List Happening} (ordered : Ordered G (later ++ earlier)) :
    Ordered G earlier := by
  induction later with
  | nil => exact ordered
  | cons event later ih =>
    cases event with
    | began k => exact ih ordered
    | ended k => exact ih ordered.2.2

/-- What a module requires, directly or not, has ended before it. -/
theorem Ordered.below {log later earlier : List Happening} {k t : String} (ordered : Ordered G log)
    (path : Relation.TransGen G.Edge k t) (same : log = later ++ .ended k :: earlier) : .ended t ∈ earlier := by
  induction path with
  | single edge => exact (same ▸ ordered).split.1 _ edge
  | @tail b c before edge ended =>
    obtain ⟨middle,rest,split⟩ := List.append_of_mem ended
    rw [same,split,← List.cons_append,← List.append_assoc] at ordered
    exact split ▸ List.mem_append_right middle (List.mem_cons_of_mem _ (ordered.split.1 c edge))

theorem Ordered.ending {log : List Happening} {k : String} (ordered : Ordered G log) (ended : .ended k ∈ log) :
    ∃ v, G.ending k = .ok v := by
  obtain ⟨later,earlier,same⟩ := List.append_of_mem ended
  exact (same ▸ ordered).split.2.1

/-- At the end of a walk the modules that can be reached have run to their ends, and no others. -/
theorem Sound.ended_iff {log : List Happening} (sound : Sound G root ⟨[],log⟩) (k : String) :
    .ended k ∈ log ↔ G.Reach root k := by
  have done : ∀ k, .began k ∈ log ↔ .ended k ∈ log := by
    intro k
    simpa [active] using sound.begun k
  constructor
  · intro ended
    exact sound.reached k ((done k).mpr ended)
  · intro reach
    induction reach with
    | refl => exact (done root).mp sound.first
    | tail path edge before =>
      obtain ⟨later,earlier,same⟩ := List.append_of_mem before
      have below := sound.ordered.below (.single edge) same
      exact same ▸ List.mem_append_right later (List.mem_cons_of_mem _ below)

theorem Sound.fine {log : List Happening} (sound : Sound G root ⟨[],log⟩) : G.Fine root := by
  intro k reach
  have ended := (sound.ended_iff k).mpr reach
  refine ⟨fun cycle => ?_,sound.ordered.ending ended⟩
  obtain ⟨later,earlier,same⟩ := List.append_of_mem ended
  have again := sound.ordered.below cycle same
  have once : (later ++ .ended k :: earlier).Nodup := same ▸ sound.once
  exact (List.nodup_cons.mp (List.nodup_append.mp once).2.1).1 again

theorem Sound.not_fine_of_loops {w : Walk} {m : String} (sound : Sound G root w) (loops : Loops G w m) :
    ¬ G.Fine root := by
  obtain ⟨frames,log⟩ := w
  obtain ⟨k,s,rest,below,rfl,rfl,member⟩ := loops
  have edge : G.Edge k (G.target k s) := ⟨s,sound.pending.1 s List.mem_cons_self,rfl⟩
  intro fine
  exact (fine _ (sound.reaches member)).1 (sound.above edge _ member)

theorem Sound.not_fine_of_throws {w : Walk} {v : Value} (sound : Sound G root w) (throws : Throws G w v) :
    ¬ G.Fine root := by
  obtain ⟨frames,log⟩ := w
  obtain ⟨k,below,rfl,ending⟩ := throws
  intro fine
  obtain ⟨-,u,ok⟩ := fine k (sound.reaches List.mem_cons_self)
  cases ending.symm.trans ok

end Walk

end ScriptHost.Registry
