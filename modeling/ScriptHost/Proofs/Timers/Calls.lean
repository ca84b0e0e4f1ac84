import ScriptHost.Proofs.Timers.Table
/-!
What becomes of the table of timers in the functions that scripts and timers call. As long as the table is as it is meant
to be, setting a timer and clearing it ask nothing (`setTimer_alone`, `clearTimer_alone`), and the first thing that a
timer asks when it fires is to call the callback that it was set with (`fireTimer_calls`), unless it was cleared
(`fireTimer_idle`). So no script comes between the check and the call.
-/
namespace ScriptHost.Engine

/-! ### Computations that ask nothing -/

section
variable {α β : Type} {m : M α} {g : α → M β} {w last : World} {P : α → World → Prop} {R : β → World → Prop}
  {Q : World → Prop} {k : Key} {v f : Value} {t n : Nat} {answers : List Answer}

/-- The computation asks nothing: it comes to a value and a world of which `P` is true, or throws something with a world
    of which `Q` is true. -/
def Alone (m : M α) (w : World) (P : α → World → Prop) (Q : World → Prop) : Prop :=
  match m w with
  | .ok a last => P a last
  | .thrown _ last => Q last
  | .ask _ _ _ => False

theorem alone_of_ok {a : α} {back : World} (ends : m w = .ok a back) (holds : P a back) : Alone m w P Q := by
  unfold Alone
  rw [ends]
  exact holds

theorem Alone.bind (first : Alone m w P Q) (rest : ∀ a back, P a back → Alone (g a) back R Q) : Alone (m >>= g) w R Q := by
  unfold Alone at first ⊢
  rw [M.bind_apply]
  cases ends : m w with
  | ok a back =>
    rw [ends] at first
    exact rest a back first
  | thrown e back =>
    rw [ends] at first
    exact first
  | ask q back next =>
    rw [ends] at first
    exact first.elim

/-- A step that comes to a value is gone on from. -/
theorem Alone.after {a : α} {back : World} (ends : m w = .ok a back) (rest : Alone (g a) back R Q) :
    Alone (m >>= g) w R Q := by
  unfold Alone
  rw [M.bind_of_ok ends]
  exact rest

theorem Alone.mono {P' : α → World → Prop} (alone : Alone m w P Q) (weaker : ∀ a last, P a last → P' a last) :
    Alone m w P' Q := by
  unfold Alone at alone ⊢
  cases ends : m w with
  | ok a back =>
    rw [ends] at alone
    exact weaker a back alone
  | thrown e back =>
    rw [ends] at alone
    exact alone
  | ask q back next =>
    rw [ends] at alone
    exact alone.elim

theorem Alone.ends (alone : Alone m w P Q) {r : Except Thrown α} (ends : (m w).Ends answers r last) :
    (∃ a, r = .ok a ∧ P a last) ∨ (∃ e, r = .error e) ∧ Q last := by
  unfold Alone at alone
  cases step : m w with
  | ok a back =>
    rw [step] at alone ends
    cases ends
    exact .inl ⟨a,rfl,alone⟩
  | thrown e back =>
    rw [step] at alone ends
    cases ends
    exact .inr ⟨⟨e,rfl⟩,alone⟩
  | ask q back next =>
    rw [step] at alone
    exact alone.elim

theorem alone_allocate (w : World) (o : Obj) (left : ∀ o, Q (w.alloc o).2) :
    Alone (allocate o) w (fun v last => v = .obj w.heap.size ∧ last = (w.alloc o).2) Q := by
  unfold Alone allocate
  by_cases full : w.isFull World.objectSize = true
  · rw [if_pos full]
    exact left _
  · rw [if_neg full]
    exact ⟨rfl,rfl⟩

/-- A plain object takes a further name that its prototypes do not mind. -/
theorem alone_setOf {id : Nat} (inside : id < w.heap.size) (plain : (w.obj id).kind = .plain)
    (extensible : (w.obj id).extensible = true) (free : (w.obj id).own? k = none) (tame : w.Tame k (w.obj id).proto)
    (v : Value) (strict : Bool) (left : ∀ o, Q (w.alloc o).2) :
    Alone (setOf (.obj id) k v strict) w
      (fun _ last => w.Touches last id k ∧ (last.obj id).own? k = some (.data v .full) ∧ last.outside = w.outside) Q := by
  obtain ⟨m,same⟩ := World.reach_succ
  have target : w.findTarget k id reach id = .receiver := by
    rw [same]
    simp only [World.findTarget,plain,free]
    split
    · next above => exact tame.findTarget free m above
    · rfl
  have end_ : (w.obj id).endsBefore k = false := by simp [Obj.endsBefore,plain]
  have put : ∀ used, Alone (changeObject id (·.put k (.data v .full)) >>= fun _ => pure true) { w with used }
      (fun done last => done = true ∧ w.Touches last id k ∧ (last.obj id).own? k = some (.data v .full) ∧
        last.outside = w.outside) Q := by
    intro used
    obtain ⟨touches,own⟩ := World.touches_put inside plain k v
    exact ⟨rfl,⟨touches.size,touches.others,touches.plain,touches.kind,touches.proto,touches.extensible,touches.own,
      touches.here⟩,own,rfl⟩
  have set : Alone (setOn reach id k v (.obj id)) w (fun done last => done = true ∧ w.Touches last id k ∧
      (last.obj id).own? k = some (.data v .full) ∧ last.outside = w.outside) Q := by
    rw [same]
    simp only [setOn]
    refine Alone.after (congrArg (Tree.ok · w) target) ?_
    simp only [if_true]
    refine Alone.after (a := false) (congrArg (Tree.ok · w) (by simp [extensible,end_])) ?_
    simp only [Bool.false_eq_true,if_false]
    split
    · refine Alone.bind (P := fun _ back => ∃ used, back = { w with used }) ?_ ?_
      · unfold Alone claim
        by_cases full : w.isFull 16 = true
        · rw [if_pos full]
          exact left _
        · rw [if_neg full]
          exact ⟨_,rfl⟩
      · rintro _ _ ⟨used,rfl⟩
        exact put used
    · exact put w.used
  unfold setOf
  refine set.bind ?_
  rintro done back ⟨rfl,facts⟩
  exact facts

/-- A plain object gives up a name. -/
theorem deleteProperty_plain {id : Nat} (inside : id < w.heap.size) (plain : (w.obj id).kind = .plain)
    (own : (w.obj id).own? k = some (.data v .full)) :
    deleteProperty id k w = .ok true (w.setObj id fun o => (o.delete k).2) := by
  obtain ⟨m,same⟩ := World.reach_succ
  have ordinary : isProxy id w = .ok false w := by simp only [isProxy,look,plain]
  have gone : ((w.obj id).delete k).1 = true := by rw [World.delete_plain plain own rfl]
  unfold deleteProperty
  rw [same]
  simp only [deleteOn,M.bind_apply,ordinary,Tree.bind,Bool.false_eq_true,if_false,update,World.updateObj_eq inside,gone]

theorem getGlobal_kept {name : String} (keeps : w.Keeps name) (kept : w.kept? name = some (.data v .full)) :
    getGlobal name w = .ok v w := by
  rw [getGlobal_eq keeps,kept]

/-- A tame name is read without a question. -/
theorem getOf_tame {id : Nat} (tame : w.Tame k (.obj id)) : ∃ u, getOf (.obj id) k w = .ok u w := by
  obtain ⟨m,same⟩ := World.reach_succ
  unfold getOf
  rw [same]
  simp only [getOn,M.bind_apply,look,Tree.bind]
  rcases tame.find reach rfl with found | ⟨u,found⟩ <;> rw [found] <;> exact ⟨_,rfl⟩

end

/-! ### The table is installed -/

section
variable {w back last : World} {t : Nat} {name : String}

/-- The names that timers have in the global object. -/
def timerGlobals : List String :=
  [timerTable,"setTimeout","setInterval","setImmediate","clearTimeout","clearInterval"]

namespace World

/-- No script has run yet: the global object takes the names of timers, and no prototype minds any name. -/
structure Blank (w : World) : Prop where
  keeps : w.KeepsAll timerGlobals
  names : ∀ k, TimerName k → w.Tame k (.obj Intrinsic.object.id)
  elements : ∀ i, w.Tame (.index i) (.obj Intrinsic.array.id)
  idle : w.outside.timers.active = []

namespace Blank

theorem extended (blank : w.Blank) (ext : w.Extends last) (timers : last.outside.timers = w.outside.timers) : last.Blank where
  keeps := fun name member =>
    (Leaves.extended (blank.keeps name member).inside ext name).keeps (blank.keeps name member)
  names := fun k name => (blank.names k name).extended ext
  elements := fun i => (blank.elements i).extended ext
  idle := timers ▸ blank.idle

theorem touches_given (blank : w.Blank) (own : name ∈ timerGlobals) (v : Value) :
    w.Touches (w.given name v) Intrinsic.global.id (.text name) :=
  (touches_put (blank.keeps name own).inside (blank.keeps name own).plain _ v).1

theorem given (blank : w.Blank) (own : name ∈ timerGlobals) (v : Value) : (w.given name v).Blank where
  keeps := blank.keeps.given own v
  names := fun k timer => (blank.names k timer).touched (blank.touches_given own v)
  elements := fun i => (blank.elements i).touched (blank.touches_given own v)
  idle := blank.idle

end Blank

/-- The table is there and empty. -/
structure Furnished (w : World) (timers : Timers) (t : Nat) : Prop where
  blank : w.Blank
  kept : w.kept? timerTable = some (.data (.obj t) .full)
  apart : t ≠ Intrinsic.global.id
  inside : t < w.heap.size
  table : w.obj t = { proto := .obj Intrinsic.object.id }
  timers : w.outside.timers = timers

namespace Furnished
variable {timers : Timers}

theorem alloc (furnished : w.Furnished timers t) (o : Obj) : (w.alloc o).2.Furnished timers t := by
  have ext := extends_alloc w o
  have global := (furnished.blank.keeps timerTable List.mem_cons_self).inside
  exact {
    blank := furnished.blank.extended ext rfl
    kept := (Leaves.extended global ext timerTable).kept.trans furnished.kept
    apart := furnished.apart
    inside := Nat.lt_of_lt_of_le furnished.inside ext.grows
    table := (ext.same t furnished.inside).trans furnished.table
    timers := furnished.timers }

theorem given (furnished : w.Furnished timers t) (own : name ∈ timerGlobals) (other : name ≠ timerTable) (v : Value) :
    (w.given name v).Furnished timers t := by
  have touches := furnished.blank.touches_given own v
  refine {
    blank := furnished.blank.given own v
    kept := ?_
    apart := furnished.apart
    inside := touches.size ▸ furnished.inside
    table := (touches.others t furnished.apart).trans furnished.table
    timers := furnished.timers }
  rw [(furnished.blank.keeps name own).kept_given v timerTable,if_neg other.symm]
  exact furnished.kept

theorem tends (furnished : w.Furnished timers t) : w.Tends t := by
  have empty : ∀ k, (w.obj t).own? k = none := fun k => (congrArg (·.own? k) furnished.table).trans rfl
  exact {
    keeps := furnished.blank.keeps timerTable List.mem_cons_self
    kept := furnished.kept
    apart := furnished.apart
    inside := furnished.inside
    plain := congrArg Obj.kind furnished.table
    extensible := congrArg Obj.extensible furnished.table
    proto := congrArg Obj.proto furnished.table
    names := furnished.blank.names
    elements := furnished.blank.elements
    own := fun k s own => by cases (empty k).symm.trans own
    active := fun n active => by
      rw [furnished.blank.idle] at active
      cases active }

end Furnished

end World

theorem alone_setGlobal (keeps : w.Keeps name) (v : Value) :
    Alone (setGlobal name v) w (fun _ last => last = w.given name v) fun _ => True := by
  rcases setGlobal_eq keeps v with given | ⟨e,o,thrown⟩
  · exact alone_of_ok given rfl
  · unfold Alone
    rw [thrown]
    trivial

theorem World.Furnished.installHost {timers : Timers} (furnished : w.Furnished timers t) (own : name ∈ timerGlobals)
    (other : name ≠ timerTable) (f : HostFn) (length : Nat) :
    Alone (installHost globalObject name f length) w (fun _ last => last.Furnished timers t) fun _ => True := by
  unfold Engine.installHost
  refine (alone_allocate w _ fun _ => trivial).bind ?_
  rintro v _ ⟨-,rfl⟩
  refine (alone_setGlobal ((furnished.alloc _).blank.keeps name own) v).mono ?_
  rintro _ _ rfl
  exact (furnished.alloc _).given own other v

/-- A new engine has its table of timers. -/
theorem installTimers_alone (blank : w.Blank) :
    Alone installTimers w (fun _ last => ∃ t, last.Tends t ∧ last.outside.timers = w.outside.timers) fun _ => True := by
  have named : timerTable ∈ timerGlobals := List.mem_cons_self
  have global := (blank.keeps timerTable named).inside
  unfold installTimers
  refine (alone_allocate w _ fun _ => trivial).bind ?_
  rintro _ _ ⟨rfl,rfl⟩
  have ext := w.extends_alloc { proto := .obj Intrinsic.object.id }
  have blank := blank.extended ext rfl
  refine (alone_setGlobal (blank.keeps timerTable named) _).bind ?_
  rintro _ _ rfl
  have furnished : World.Furnished _ w.outside.timers w.heap.size := {
    blank := blank.given named (.obj w.heap.size)
    kept := by rw [(blank.keeps timerTable named).kept_given,if_pos rfl]
    apart := Nat.ne_of_gt global
    inside := by
      rw [(blank.touches_given named _).size,World.size_alloc]
      exact Nat.lt_succ_self _
    table := ((blank.touches_given named _).others _ (Nat.ne_of_gt global)).trans (World.obj_alloc_new w _)
    timers := rfl }
  refine (furnished.installHost (by decide) (by decide) .setTimeout 1).bind fun _ _ furnished => ?_
  refine (furnished.installHost (by decide) (by decide) .setInterval 1).bind fun _ _ furnished => ?_
  refine (furnished.installHost (by decide) (by decide) .setImmediate 1).bind fun _ _ furnished => ?_
  refine (furnished.installHost (by decide) (by decide) .clearTimer 0).bind fun _ _ furnished => ?_
  refine (furnished.installHost (by decide) (by decide) .clearTimer 0).mono fun _ _ furnished => ?_
  exact ⟨_,furnished.tends,furnished.timers⟩

end

/-! ### Setting a timer -/

section
variable {w back last : World} {f : Value} {t n : Nat} {delay : Span} {args : Array Value} {repeating : Bool}

namespace World

/-- An object for a timer is being made: it is a further one and has these properties so far. -/
structure Making (w : World) (e : Nat) (props : List (String × Value)) (back : World) : Prop where
  ext : w.Extends back
  outside : back.outside = { w.outside with timers := w.outside.timers.take }
  further : w.heap.size ≤ e
  inside : e < back.heap.size
  plain : (back.obj e).kind = .plain
  extensible : (back.obj e).extensible = true
  proto : (back.obj e).proto = .obj Intrinsic.object.id
  own : ∀ name, (back.obj e).own? (.text name) = (props.lookup name).map (.data · .full)

namespace Making
variable {e : Nat} {props : List (String × Value)}

/-- Timers are left alone while the object is made. -/
theorem leaves (making : w.Making e props back) (tends : w.Tends t) : w.LeavesTimers back := by
  refine tends.leaves_of_extends making.ext ?_ ?_ <;> rw [making.outside]
  · exact Nat.le_succ _
  · rfl

theorem alloc (making : w.Making e props back) (o : Obj) : w.Making e props (back.alloc o).2 := by
  have same := obj_alloc back o making.inside
  exact {
    ext := making.ext.trans (extends_alloc back o)
    outside := making.outside
    further := making.further
    inside := inside_alloc o making.inside
    plain := same ▸ making.plain
    extensible := same ▸ making.extensible
    proto := same ▸ making.proto
    own := same ▸ making.own }

/-- The object gets a further property. -/
theorem assign (making : w.Making e props back) (tends : w.Tends t) {name : String} (own : TimerName (.text name))
    (free : props.lookup name = none) (v : Value) :
    Alone (setNamed (.obj e) name v) back
      (fun _ last => w.Making e ((name,v) :: props) last ∧ back.heap.size = last.heap.size ∧
        ∀ id, id ≠ e → last.obj id = back.obj id)
      (w.LeavesTimers ·) := by
  have vacant : (back.obj e).own? (.text name) = none := by rw [making.own,free]; rfl
  have tame : back.Tame (.text name) (back.obj e).proto := making.proto ▸ (tends.names _ own).extended making.ext
  have left : ∀ o, w.LeavesTimers (back.alloc o).2 := fun o => (making.alloc o).leaves tends
  have assigned := alone_setOf making.inside making.plain making.extensible vacant tame v true left
  unfold Alone setNamed at *
  split at assigned
  · next last step =>
    obtain ⟨touches,own,outside⟩ := assigned
    refine ⟨{
      ext := making.ext.touched touches making.further
      outside := outside.trans making.outside
      further := making.further
      inside := touches.size ▸ making.inside
      plain := touches.kind
      extensible := touches.extensible.trans making.extensible
      proto := touches.proto.trans making.proto
      own := ?_ },touches.size.symm,touches.others⟩
    intro other
    by_cases here : other = name
    · subst here
      simpa using own
    · have apart : (other == name) = false := by simpa using here
      rw [touches.own _ (by simpa using here),making.own]
      simp only [List.lookup_cons,apart]
  · exact assigned
  · exact assigned.elim

/-- The object is complete once it has a callback and an array of arguments. -/
theorem holds {l : Nat} {args : Array Value} (making : w.Making e [("args",.obj l),("fn",f)] back) (tends : w.Tends t)
    (callable : ∃ id, f = .obj id ∧ (w.obj id).isCallable = true) (further : w.heap.size ≤ l) (inside : l < back.heap.size)
    (array : back.obj l = { proto := .obj Intrinsic.array.id, kind := .array args args.size false false }) :
    back.Holds t e f := by
  have below := tends.inside
  have old := making.further
  obtain ⟨id,rfl,callable⟩ := callable
  refine {
    inside := making.inside
    apart := by omega
    plain := making.plain
    callback := (making.own "fn").trans rfl
    callable := ⟨id,rfl,(making.leaves tends).functions id callable⟩
    arguments := ⟨l,(making.own "args").trans rfl,inside,by omega,congrArg Obj.proto array,
      ⟨_,_,_,_,congrArg Obj.kind array⟩,fun i s own => ?_⟩ }
  · rw [array] at own
    simp only [Obj.own?] at own
    split at own
    · cases own
    · exact ⟨_,_,(Option.some.inj own).symm,rfl⟩
    · cases own

end Making

/-- The next handle is given out. -/
def handedOut (w : World) : World := { w with outside := { w.outside with timers := w.outside.timers.take } }

theorem extends_handedOut (w : World) : w.Extends w.handedOut := ⟨Nat.le_refl _,fun _ _ => rfl⟩

/-- A further object without properties. -/
theorem making_new (w : World) :
    w.Making w.heap.size [] (w.handedOut.alloc { proto := .obj Intrinsic.object.id }).2 := by
  have here := obj_alloc_new w.handedOut { proto := .obj Intrinsic.object.id }
  exact {
    ext := w.extends_handedOut.trans (extends_alloc _ _)
    outside := rfl
    further := Nat.le_refl _
    inside := Nat.lt_of_lt_of_eq (Nat.lt_succ_self _) (size_alloc w _).symm
    plain := congrArg Obj.kind here
    extensible := congrArg Obj.extensible here
    proto := congrArg Obj.proto here
    own := fun name => (congrArg (·.own? (.text name)) here).trans rfl }

end World

/-- A timer is put into the table and starts. -/
theorem World.Tends.entered {e : Nat} {timer : Timer} (tends : w.Tends t) (touches : w.Touches last t (timerKey timer.id))
    (own : (last.obj t).own? (timerKey timer.id) = some (.data (.obj e) .full)) (holds : w.Holds t e f)
    (given : timer.id < w.outside.timers.nextId) (timers : last.outside.timers = w.outside.timers.activate timer) :
    last.Tends t ∧ last.Awaits t timer.id f ∧ ∀ m g, m ≠ timer.id → w.Awaits t m g → last.Awaits t m g := by
  have updates : w.Updates last t timer.id := by
    refine ⟨touches,?_,fun m other => ?_⟩ <;> rw [timers]
    · exact Nat.le_refl _
    · simp [Timers.activate,other]
  have active : timer.id ∈ last.outside.timers.active := by
    rw [timers]
    exact List.mem_cons_self
  have holds := holds.touched touches
  refine ⟨tends.updated updates (fun s found => ?_) fun _ => ⟨?_,Option.isSome_iff_exists.mpr ⟨_,own⟩⟩,⟨e,own,holds⟩,
    fun m g other awaits => awaits.updated updates other⟩
  · cases own.symm.trans found
    exact ⟨active,e,f,rfl,holds⟩
  · rw [timers]
    exact given

/-- A timer that is set is in the table with its callback, or nothing has come of it. -/
theorem setTimer_alone (tends : w.Tends t) (f : Value) (delay : Span) (args : Array Value) (repeating : Bool) :
    Alone (setTimer f delay args repeating) w
      (fun _ last => last.Tends t ∧ last.Awaits t w.outside.timers.nextId f ∧
        last.outside.timers = w.outside.timers.take.activate ⟨w.outside.timers.nextId,delay,repeating⟩ ∧
        ∀ m g, w.Awaits t m g → last.Awaits t m g)
      (w.LeavesTimers ·) := by
  have left : ∀ o, w.LeavesTimers (w.alloc o).2 := fun o =>
    tends.leaves_of_extends (World.extends_alloc w o) (Nat.le_refl _) rfl
  unfold setTimer
  refine Alone.bind (P := fun b back => w = back ∧ (b = true → ∃ id, f = .obj id ∧ (w.obj id).isCallable = true)) ?_ ?_
  · cases f with
    | obj id => exact ⟨rfl,fun callable => ⟨id,rfl,callable⟩⟩
    | _ => exact ⟨rfl,nofun⟩
  rintro callable _ ⟨rfl,function⟩
  cases callable with
  | false =>
    simp only [Bool.false_eq_true,if_false]
    refine Alone.bind (P := fun _ back => w = back) ?_ ?_
    · cases f <;> rfl
    rintro name _ rfl
    exact Alone.bind (P := fun _ _ => False) (left _) fun _ _ none => none.elim
  | true =>
    simp only [if_true]
    refine Alone.after (show _ = Tree.ok w.outside.timers.nextId w.handedOut from rfl) ?_
    refine (alone_allocate _ _ fun o => ?_).bind ?_
    · exact tends.leaves_of_extends (w.extends_handedOut.trans (World.extends_alloc _ o)) (Nat.le_succ _) rfl
    rintro _ _ ⟨rfl,rfl⟩
    -- The object gets its properties while nothing leads to it; only then does the table change.
    have making := World.making_new w
    refine (making.assign tends (.inl rfl) rfl f).bind ?_
    rintro _ back ⟨making,-,-⟩
    refine (alone_allocate back _ fun o => (making.alloc o).leaves tends).bind ?_
    rintro _ _ ⟨rfl,rfl⟩
    refine ((making.alloc _).assign tends (.inr (.inl rfl)) rfl _).bind ?_
    rintro _ made ⟨making',size',others⟩
    have leaves := making'.leaves tends
    have tends' := tends.left leaves
    have table : made.obj t = w.obj t := leaves.objects t t tends.kept .table
    refine Alone.after (getGlobal_kept tends'.keeps tends'.kept) ?_
    refine Alone.after (show inScript (asObject (.obj t)) made = .ok t made from rfl) ?_
    have free : (made.obj t).own? (timerKey w.outside.timers.nextId) = none := table ▸ tends.free (Nat.le_refl _)
    have tame : made.Tame (timerKey w.outside.timers.nextId) (made.obj t).proto :=
      tends'.proto ▸ tends'.names _ (.inr (.inr ⟨_,rfl⟩))
    refine (alone_setOf tends'.inside tends'.plain tends'.extensible free tame _ true fun o =>
      (making'.alloc o).leaves tends).bind ?_
    rintro _ last ⟨touches,own,outside⟩
    let timer : Timer := ⟨w.outside.timers.nextId,delay,repeating⟩
    let done : World := { last with outside := { last.outside with timers := last.outside.timers.activate timer } }
    have timers : done.outside.timers = made.outside.timers.activate timer := by simp only [done,outside]
    have array : made.obj back.heap.size = _ :=
      (others _ (Nat.ne_of_gt making.inside)).trans (World.obj_alloc_new back _)
    have inside : back.heap.size < made.heap.size := by
      rw [← size',World.size_alloc]
      exact Nat.lt_succ_self _
    have holds := making'.holds tends (function rfl) making.ext.grows inside array
    have given : timer.id < made.outside.timers.nextId := by
      rw [making'.outside]
      exact Nat.lt_succ_self _
    have touches : made.Touches done t (timerKey timer.id) := touches.outside made.outside _
    obtain ⟨after,awaited,kept⟩ := tends'.entered touches own holds given timers
    refine ⟨after,awaited,timers.trans (by rw [making'.outside]),fun m g awaits => ?_⟩
    -- A timer that waits has a smaller handle, so its entry is another one.
    exact kept m g (Nat.ne_of_lt (tends.active m (awaits.active tends)).1) (awaits.left leaves tends)

end

/-! ### Clearing a timer -/

section
variable {w back last : World} {f : Value} {t n : Nat}

namespace World

/-- A timer does not wait any more. -/
def cancelled (w : World) (n : Nat) : World :=
  { w with outside := { w.outside with timers := (w.outside.timers.cancel n).2 } }

theorem extends_cancelled (w : World) (n : Nat) : w.Extends (w.cancelled n) := ⟨Nat.le_refl _,fun _ _ => rfl⟩

/-- A timer that is taken out of the table. -/
theorem Tends.dropped (tends : w.Tends t) (touches : w.Touches last t (timerKey n))
    (none : (last.obj t).own? (timerKey n) = none) (timers : last.outside.timers = (w.outside.timers.cancel n).2) :
    last.Tends t ∧ ∀ m g, m ≠ n → w.Awaits t m g → last.Awaits t m g := by
  have updates : w.Updates last t n := by
    refine ⟨touches,?_,fun m other => ?_⟩ <;> rw [timers]
    · exact Nat.le_refl _
    · simp [Timers.cancel,other]
  have gone : n ∉ last.outside.timers.active := by
    rw [timers]
    simp [Timers.cancel]
  refine ⟨tends.updated updates (fun s found => ?_) fun still => absurd still gone,
    fun m g other awaits => awaits.updated updates other⟩
  cases none.symm.trans found

/-- To clear what does not wait changes nothing. -/
theorem Tends.leaves_cancelled (tends : w.Tends t) (idle : n ∉ w.outside.timers.active) :
    w.LeavesTimers (w.cancelled n) := by
  refine tends.leaves_of_extends (w.extends_cancelled n) (Nat.le_refl _) (List.filter_eq_self.mpr fun m active => ?_)
  exact decide_eq_true fun same => idle (same ▸ active)

end World

/-- A timer that is cleared is taken out of the table. -/
theorem clearTimer_alone (tends : w.Tends t) (n : Nat) :
    Alone (clearTimer n) w
      (fun _ last => last.Tends t ∧ last.outside.timers = (w.outside.timers.cancel n).2 ∧
        ∀ m g, m ≠ n → w.Awaits t m g → last.Awaits t m g)
      fun _ => False := by
  unfold clearTimer
  refine Alone.after (show _ = Tree.ok (w.outside.timers.isActive n) (w.cancelled n) from rfl) ?_
  by_cases active : n ∈ w.outside.timers.active
  · have known : w.outside.timers.isActive n = true := by simpa [Timers.isActive] using active
    rw [known]
    simp only [if_true]
    have leaves := World.Leaves.extended tends.keeps.inside (w.extends_cancelled n) timerTable
    refine Alone.after (getGlobal_kept (leaves.keeps tends.keeps) (leaves.kept.trans tends.kept)) ?_
    refine Alone.after (show inScript (asObject (.obj t)) (w.cancelled n) = .ok t (w.cancelled n) from rfl) ?_
    obtain ⟨f,e,own,holds⟩ := tends.awaits active
    refine Alone.after (deleteProperty_plain (w := w.cancelled n) (k := timerKey n) tends.inside tends.plain own) ?_
    obtain ⟨touches,none⟩ := World.touches_delete tends.inside tends.plain own
    obtain ⟨after,others⟩ := tends.dropped (touches.outside w.outside (w.cancelled n).outside) none rfl
    exact ⟨after,rfl,others⟩
  · have known : w.outside.timers.isActive n = false := by simpa [Timers.isActive] using active
    rw [known]
    have leaves := tends.leaves_cancelled active
    exact ⟨tends.left leaves,rfl,fun m g _ awaits => awaits.left leaves tends⟩

end

/-! ### Firing -/

section
variable {w back last : World} {f : Value} {t e n : Nat} {repeating : Bool}

/-- The arguments of a callback are read without a question. -/
theorem argumentsOf_eq {l : Nat} (inside : l < w.heap.size) (proto : (w.obj l).proto = .obj Intrinsic.array.id)
    (array : ∃ items length fixed loose, (w.obj l).kind = .array items length fixed loose)
    (items : ∀ i s, (w.obj l).own? (.index i) = some s → ∃ v r, s = .data v r ∧ r.writable = true)
    (elements : ∀ i, w.Tame (.index i) (.obj Intrinsic.array.id)) : ∃ args, argumentsOf l w = .ok args w := by
  obtain ⟨values,length,fixed,loose,kind⟩ := array
  have tame : ∀ i, w.Tame (.index i) (.obj l) := fun i =>
    .object inside (fun _ _ _ _ proxy => by cases kind.symm.trans proxy) (items i) (proto ▸ elements i)
  have size : getNamed (.obj l) "length" w = .ok (.ofNat length) w := by
    obtain ⟨m,same⟩ := World.reach_succ
    have own : w.own? l (.text "length") = some (.data (.ofNat length) ⟨!fixed,false,false⟩) := by
      simp [World.own?,Obj.own?,kind]
    have found : w.find (.text "length") (m+1) l = .value (.ofNat length) := by simp only [World.find,kind,own]
    unfold getNamed getOf
    rw [same]
    simp only [getOn,M.bind_apply,look,Tree.bind,same,found]
    rfl
  have read : ∀ (is : List Nat) (acc : Array Value),
      ∃ args, (is.foldlM (fun acc i => do return acc.push (← getOf (.obj l) (.index i))) acc : M (Array Value)) w =
        .ok args w := by
    intro is
    induction is with
    | nil => exact fun acc => ⟨acc,rfl⟩
    | cons i is ih =>
      intro acc
      obtain ⟨u,got⟩ := getOf_tame (tame i)
      obtain ⟨args,rest⟩ := ih (acc.push u)
      refine ⟨args,?_⟩
      rw [List.foldlM_cons]
      refine (M.bind_of_ok ?_).trans rest
      exact M.bind_of_ok got
  obtain ⟨count,counted⟩ : ∃ count, toLength (.ofNat length) w = .ok count w := ⟨_,rfl⟩
  have counted : lengthOf (.obj l) w = .ok count w := (M.bind_of_ok size).trans counted
  obtain ⟨args,done⟩ := read (List.range count) #[]
  exact ⟨args,(M.bind_of_ok counted).trans done⟩

/-- The callback of a timer and its arguments are found, and it is called. -/
theorem callEntry_eq (holds : w.Holds t e f) (elements : ∀ i, w.Tame (.index i) (.obj Intrinsic.array.id)) :
    ∃ args, (do
      match ← asFunction (← getId e (.text "fn")) with
      | .error e => return .error e
      | .ok f =>
        match ← asArray (← getId e (.text "args")) with
        | .error e => return .error e
        | .ok args => sure (discard (call f .undefined (← argumentsOf args))) : M (Converted Unit)) w =
      (sure (discard (call f .undefined args)) : M (Converted Unit)) w := by
  obtain ⟨id,rfl,callable⟩ := holds.callable
  obtain ⟨l,own,inside,-,proto,array,items⟩ := holds.arguments
  obtain ⟨args,read⟩ := argumentsOf_eq inside proto array items elements
  obtain ⟨values,length,fixed,loose,kind⟩ := array
  have function : asFunction (.obj id) w = .ok (.ok (.obj id)) w := by
    refine (M.bind_of_ok (?_ : isCallable (.obj id) w = .ok true w)).trans rfl
    exact (M.bind_of_ok (objectOf_eq id w)).trans (by rw [callable]; rfl)
  have list : asArray (.obj l) w = .ok (.ok l) w := by
    refine (M.bind_of_ok (objectOf_eq l w)).trans ?_
    simp only [Obj.isArray,kind]
    rfl
  refine ⟨args,?_⟩
  rw [M.bind_of_ok (getId_own holds.plain holds.callback),M.bind_of_ok function]
  dsimp only
  rw [M.bind_of_ok (getId_own holds.plain own),M.bind_of_ok list]
  exact M.bind_of_ok read

/-- What a timer asks first when it is called is to call its callback. -/
theorem callTimer_eq (tends : w.Tends t) (ext : w.Extends back) (awaits : w.Awaits t n f) (repeating : Bool) :
    ∃ args, callTimer n repeating back = (sure (discard (call f .undefined args)))
      (if repeating then back else back.setObj t fun o => (o.delete (timerKey n)).2) := by
  obtain ⟨e,own,holds⟩ := awaits
  have leaves := World.Leaves.extended tends.keeps.inside ext timerTable
  have found := getGlobal_kept (leaves.keeps tends.keeps) (leaves.kept.trans tends.kept)
  have table := ext.same t tends.inside
  have inside : t < back.heap.size := Nat.lt_of_lt_of_le tends.inside ext.grows
  have plain : (back.obj t).kind = .plain := table ▸ tends.plain
  have own : (back.obj t).own? (timerKey n) = some (.data (.obj e) .full) := table ▸ own
  have elements : ∀ i, back.Tame (.index i) (.obj Intrinsic.array.id) := fun i => (tends.elements i).extended ext
  have holds := holds.extended ext
  unfold callTimer
  dsimp only
  rw [M.bind_of_ok found,M.bind_of_ok (show asObject (.obj t) back = .ok (.ok t) back from rfl)]
  dsimp only
  rw [M.bind_of_ok (show getId t (.ofText (toString n)) back = _ from getId_own plain own)]
  cases repeating with
  | true => exact callEntry_eq holds elements
  | false =>
    -- The table has given the object up by now, but the object still has the callback.
    obtain ⟨touches,-⟩ := World.touches_delete inside plain own
    obtain ⟨args,calls⟩ := callEntry_eq (holds.touched touches) fun i => (elements i).touched touches
    exact ⟨args,(M.bind_of_ok (deleteProperty_plain inside plain own)).trans calls⟩

/-- A timer that does not wait any more does nothing when it fires. -/
theorem fireTimer_idle (idle : n ∉ w.outside.timers.active) (repeating : Bool) : fireTimer n repeating w = .ok () w := by
  have still : w.outside.timers.isActive n = false := by simpa [Timers.isActive] using idle
  unfold fireTimer
  rw [M.bind_apply]
  simp only [look,Tree.bind,still]
  rfl

/-- What is left to do for a timer once it is known to wait. -/
def ringTimer (id : Nat) (repeating : Bool) : M Unit := do
  match ← lookingAt (callTimer id repeating) with
  | .ok () => return
  | .error e =>
    changeOutside fun o => { o with
      logs := .failure "Error handling deferred job"
        [("timer", .int id), ("error", .str e.message)] :: o.logs }

theorem fireTimer_active (active : n ∈ w.outside.timers.active) (repeating : Bool) :
    fireTimer n repeating w = ringTimer n repeating (if repeating then w else w.cancelled n) := by
  have waits : w.outside.timers.isActive n = true := by simpa [Timers.isActive] using active
  unfold fireTimer
  rw [M.bind_of_ok (show look (·.outside.timers.isActive n) w = .ok true w from congrArg (Tree.ok · w) waits)]
  cases repeating <;> rfl

theorem ringTimer_asks {args : Array Value}
    (calls : callTimer n repeating back = (sure (discard (call f .undefined args))) last) :
    ∃ next, ringTimer n repeating back = .ask (.call f .undefined args) last next ∧
      ∀ v after, next (.ok v) after = .ok () after := by
  obtain ⟨inner,asks,ends⟩ : ∃ inner, outcome (callTimer n repeating) back = .ask (.call f .undefined args) last inner ∧
      ∀ v after, inner (.ok v) after = .ok (.ok (.ok ())) after := by
    unfold outcome
    rw [calls]
    exact ⟨_,rfl,fun v after => rfl⟩
  unfold ringTimer lookingAt
  rw [M.bind_apply,M.bind_apply,asks]
  refine ⟨_,rfl,fun v after => ?_⟩
  dsimp only
  rw [ends]
  rfl

/-- What a timer asks first when it fires is to call its callback, and nothing more once that has returned; unless it
    repeats, it does not wait any more by then. -/
theorem fireTimer_calls (tends : w.Tends t) (active : n ∈ w.outside.timers.active) (repeating : Bool) :
    ∃ f args last next, w.Awaits t n f ∧ fireTimer n repeating w = .ask (.call f .undefined args) last next ∧
      (∀ v after, next (.ok v) after = .ok () after) ∧ last.Tends t ∧
      last.outside.timers = (if repeating then w.outside.timers else (w.outside.timers.cancel n).2) ∧
      ∀ m g, (repeating = false → m ≠ n) → w.Awaits t m g → last.Awaits t m g := by
  obtain ⟨f,awaits⟩ := tends.awaits active
  cases repeating with
  | true =>
    obtain ⟨args,calls⟩ := callTimer_eq tends (.refl w) awaits true
    obtain ⟨next,asks,ends⟩ := ringTimer_asks calls
    exact ⟨f,args,w,next,awaits,(fireTimer_active active true).trans asks,ends,tends,rfl,fun m g _ awaits => awaits⟩
  | false =>
    obtain ⟨args,calls⟩ := callTimer_eq tends (w.extends_cancelled n) awaits false
    obtain ⟨next,asks,ends⟩ := ringTimer_asks calls
    obtain ⟨e,own,-⟩ := id awaits
    obtain ⟨touches,none⟩ := World.touches_delete tends.inside tends.plain own
    obtain ⟨after,others⟩ := tends.dropped (touches.outside w.outside (w.cancelled n).outside) none rfl
    exact ⟨f,args,_,next,awaits,(fireTimer_active active false).trans asks,ends,after,rfl,
      fun m g other => others m g (other rfl)⟩

/-- Where the table has nothing for a timer, a getter that answers for it is asked after the check, and the callback of
    what it returns is called whatever has happened meanwhile. -/
theorem fireTimer_asks {g : Nat} (active : n ∈ w.outside.timers.active) (table : getGlobal timerTable w = .ok (.obj t) w)
    (found : w.find (timerKey n) reach t = .getter (.obj g)) :
    ∃ next, fireTimer n true w = .ask (.call (.obj g) (.obj t) #[]) w next ∧
      ∀ back e f, back.Holds t e f → (∀ i, back.Tame (.index i) (.obj Intrinsic.array.id)) →
        ∃ args last rest, next (.ok (.obj e)) back = .ask (.call f .undefined args) last rest := by
  have read : getId t (timerKey n) w = call (.obj g) (.obj t) #[] w := by
    obtain ⟨m,same⟩ := World.reach_succ
    unfold getId
    rw [same]
    simp only [getOn,M.bind_apply,look,Tree.bind,found]
  obtain ⟨inner,asks,calls⟩ : ∃ inner, callTimer n true w = .ask (.call (.obj g) (.obj t) #[]) w inner ∧
      ∀ back e f, back.Holds t e f → (∀ i, back.Tame (.index i) (.obj Intrinsic.array.id)) →
        ∃ args, inner (.ok (.obj e)) back = (sure (discard (call f .undefined args)) : M (Converted Unit)) back := by
    unfold callTimer
    dsimp only
    rw [M.bind_of_ok table,M.bind_of_ok (show asObject (.obj t) w = .ok (.ok t) w from rfl)]
    dsimp only
    rw [M.bind_apply,show getId t (.ofText (toString n)) w = _ from read]
    refine ⟨_,rfl,fun back e f holds elements => ?_⟩
    exact callEntry_eq holds elements
  have asks : outcome (callTimer n true) w =
      .ask (.call (.obj g) (.obj t) #[]) w fun r back => (inner r back).settle fun r back => .ok r back := by
    unfold outcome
    rw [asks]
    rfl
  rw [fireTimer_active active true,if_pos rfl]
  unfold ringTimer lookingAt
  rw [M.bind_apply,M.bind_apply,asks]
  refine ⟨_,rfl,fun back e f holds elements => ?_⟩
  obtain ⟨args,next⟩ := calls back e f holds elements
  dsimp only
  rw [next]
  exact ⟨args,_,_,rfl⟩

/-- An engine in which a script has defined an accessor for the name of the first timer and has set an interval: the
    setter has kept the object that was meant for the table. -/
def shadowed : World :=
  let function : Obj := { proto := .null, kind := .native (.boolean .new) #[] false }
  let accessor := Table.insert default (.index 1) (.accessor (.obj 42) (.obj 42) .full)
  let kept := Table.insert (Table.insert default (.text "fn") (.data (.obj 42) .full)) (.text "args") (.data (.obj 41) .full)
  { (default : World) with
    heap := (#[{ proto := .null, props := accessor }] ++ Array.replicate 37 { proto := .null }) ++
      #[{ proto := .null, props := Table.insert default (.text timerTable) (.data (.obj 39) .full) },
        { proto := .obj Intrinsic.object.id }, { proto := .obj Intrinsic.object.id, props := kept },
        { proto := .obj Intrinsic.array.id, kind := .array #[] 0 false false }, function]
    outside := { (default : Outside) with timers := { nextId := 2, active := [1] } } }

theorem getGlobal_shadowed : getGlobal timerTable shadowed = .ok (.obj 39) shadowed := rfl

theorem find_shadowed : shadowed.find (timerKey 1) reach 39 = .getter (.obj 42) := rfl

theorem holds_shadowed : shadowed.Holds 39 40 (.obj 42) where
  inside := by decide
  apart := by decide
  plain := rfl
  callback := rfl
  callable := ⟨42,rfl,rfl⟩
  arguments := ⟨41,rfl,by decide,by decide,rfl,⟨_,_,_,_,rfl⟩,fun i s own => by cases own⟩

theorem elements_shadowed (i : Nat) : shadowed.Tame (.index i) (.obj Intrinsic.array.id) :=
  World.tame_of_empty (by decide) rfl _

theorem clears_shadowed : ∃ cleared, clearTimer 1 shadowed = .ok () cleared ∧ shadowed.Extends cleared := by
  obtain ⟨cleared,clears,heap⟩ : ∃ cleared, clearTimer 1 shadowed = .ok () cleared ∧ cleared.heap = shadowed.heap :=
    ⟨_,rfl,rfl⟩
  exact ⟨cleared,clears,Nat.le_of_eq (congrArg Array.size heap.symm),fun id _ => congrArg (·.getD id default) heap⟩

/-- A callback is called after its handle was cleared: between the check and the call a getter is asked, which clears the
    handle and returns the object that the setter has kept. -/
theorem called_after_clear : ∃ next cleared args last rest,
    fireTimer 1 true shadowed = .ask (.call (.obj 42) (.obj 39) #[]) shadowed next ∧
    clearTimer 1 shadowed = .ok () cleared ∧
    next (.ok (.obj 40)) cleared = .ask (.call (.obj 42) .undefined args) last rest := by
  obtain ⟨next,asks,calls⟩ := fireTimer_asks List.mem_cons_self getGlobal_shadowed find_shadowed
  obtain ⟨cleared,clears,ext⟩ := clears_shadowed
  obtain ⟨args,last,rest,called⟩ := calls cleared 40 (.obj 42) (holds_shadowed.extended ext) fun i =>
    (elements_shadowed i).extended ext
  exact ⟨next,cleared,args,last,rest,asks,clears,called⟩

end

end ScriptHost.Engine
