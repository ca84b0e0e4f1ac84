import ScriptHost.Engine.Host.Following
import ScriptHost.Proofs.Engine.Answers
/-!
What the host keeps in the global object. As long as the global object takes properties under a name and gives
them up again (`World.Keeps`), giving it one, looking at it and taking it away ask nothing: they come to an end at
once, with the world that one expects, and leave all other names alone.
-/
namespace ScriptHost.Engine

namespace World
variable {w : World} {k : Key} {v : Value} {name other : String} {f : Obj → Obj}

/-- What the global object has of its own under a name. -/
def kept? (w : World) (name : String) : Option Slot := (w.obj Intrinsic.global.id).own? (.text name)

/-- From here up the prototypes nobody minds what happens to a name of the global object. -/
inductive Bare (w : World) (k : Key) : Value → Prop where
  | top {v : Value} (end_ : ∀ id, v ≠ .obj id) : Bare w k v
  | object {id : Nat} (inside : id < w.heap.size) (other : id ≠ Intrinsic.global.id)
      (ordinary : ∀ target handler callable constructs, (w.obj id).kind ≠ .proxy target handler callable constructs)
      (free : (w.obj id).own? k = none) (up : Bare w k (w.obj id).proto) : Bare w k (.obj id)

/-- The global object takes properties under a name and gives them up again. -/
structure Keeps (w : World) (name : String) : Prop where
  inside : Intrinsic.global.id < w.heap.size
  plain : (w.obj Intrinsic.global.id).kind = .plain
  full : ∀ s, w.kept? name = some s → ∃ v, s = .data v .full
  bare : w.Bare (.text name) (w.obj Intrinsic.global.id).proto

/-- What is under a name of the global object was left alone. -/
structure Leaves (w last : World) (name : String) : Prop where
  kept : last.kept? name = w.kept? name
  keeps : w.Keeps name → last.Keeps name

/-- The world with a value under a name of the global object. -/
def given (w : World) (name : String) (v : Value) : World :=
  w.setObj Intrinsic.global.id (·.put (.text name) (.data v .full))

/-- The world without a name of the global object. -/
def without (w : World) (name : String) : World := w.setObj Intrinsic.global.id fun o => (o.delete (.text name)).2

theorem Leaves.refl (w : World) (name : String) : w.Leaves w name := ⟨rfl,id⟩

theorem Leaves.trans {middle last : World} (first : w.Leaves middle name) (rest : middle.Leaves last name) :
    w.Leaves last name :=
  ⟨rest.kept.trans first.kept,fun keeps => rest.keeps (first.keeps keeps)⟩

/-! ### Objects -/

theorem obj_setObj (w : World) (id other : Nat) (f : Obj → Obj) (inside : id < w.heap.size) :
    (w.setObj id f).obj other = if other = id then f (w.obj id) else w.obj other := by
  simp only [obj,setObj,alterAt,Array.getD_eq_getD_getElem?,Array.getElem?_modify]
  by_cases same : other = id
  · subst same
    simp [inside]
  · simp [same,Ne.symm same]

theorem size_setObj (w : World) (id : Nat) (f : Obj → Obj) : (w.setObj id f).heap.size = w.heap.size := by
  simp [setObj,alterAt]

theorem setObj_congr {id : Nat} {f g : Obj → Obj} (same : f (w.obj id) = g (w.obj id)) : w.setObj id f = w.setObj id g := by
  have heap : alterAt w.heap id f = alterAt w.heap id g := by
    refine Array.ext (by simp [alterAt]) fun i inside _ => ?_
    simp only [alterAt,Array.getElem_modify]
    split
    · next here =>
      subst here
      have inside : id < w.heap.size := by simpa [alterAt] using inside
      simpa [obj,inside] using same
    · rfl
  unfold setObj
  rw [heap]

/-- To find something out by changing an object is to look at it and to change it. -/
theorem updateObj_eq {α : Type} {id : Nat} (inside : id < w.heap.size) (f : Obj → α × Obj) :
    w.updateObj id f = ((f (w.obj id)).1,w.setObj id fun o => (f o).2) := by
  have there : w.heap[id] = w.obj id := by simp [obj,inside]
  have heap : (w.heap.set id default inside).set! id (f (w.obj id)).2 = w.heap.modify id fun o => (f o).2 := by
    refine Array.ext_getElem? fun i => ?_
    simp only [Array.set!_eq_setIfInBounds,Array.getElem?_setIfInBounds,Array.getElem?_modify,Array.getElem?_set,
      Array.size_set]
    by_cases here : id = i
    · subst here
      simp [inside,there]
    · simp [here]
  simp only [updateObj,updateAt,inside,↓reduceDIte,setObj,alterAt,Array.swapAt,there,heap]

theorem obj_alloc (w : World) (o : Obj) {id : Nat} (inside : id < w.heap.size) : (w.alloc o).2.obj id = w.obj id := by
  simp only [obj,alloc,Array.getD_eq_getD_getElem?,Array.getElem?_push,Nat.ne_of_lt inside,if_false]

theorem obj_alloc_new (w : World) (o : Obj) : (w.alloc o).2.obj w.heap.size = o := by simp [alloc,obj]

theorem size_alloc (w : World) (o : Obj) : (w.alloc o).2.heap.size = w.heap.size + 1 := Array.size_push _

theorem inside_alloc {id : Nat} (o : Obj) (inside : id < w.heap.size) : id < (w.alloc o).2.heap.size :=
  Nat.lt_of_lt_of_eq (Nat.lt_succ_of_lt inside) (size_alloc w o).symm

/-! ### The global object changes -/

theorem Bare.setObj (bare : w.Bare k v) : (w.setObj Intrinsic.global.id f).Bare k v := by
  induction bare with
  | top end_ => exact .top end_
  | @object id inside other ordinary free up ih =>
    have same : (w.setObj Intrinsic.global.id f).obj id = w.obj id := by
      by_cases there : Intrinsic.global.id < w.heap.size
      · rw [obj_setObj w _ _ f there,if_neg other]
      · simp [World.setObj,obj,alterAt,Array.getElem?_modify,Ne.symm other]
    exact .object (size_setObj w _ f ▸ inside) other (same ▸ ordinary) (same ▸ free) (same ▸ ih)

theorem Bare.alloc (bare : w.Bare k v) (o : Obj) : (w.alloc o).2.Bare k v := by
  induction bare with
  | top end_ => exact .top end_
  | @object id inside other ordinary free up ih =>
    have same := obj_alloc w o inside
    exact .object (inside_alloc o inside) other (same ▸ ordinary) (same ▸ free) (same ▸ ih)

/-- A further object leaves all names alone. -/
theorem leaves_alloc (inside : Intrinsic.global.id < w.heap.size) (o : Obj) (name : String) :
    w.Leaves (w.alloc o).2 name := by
  have same := obj_alloc w o inside
  refine ⟨congrArg (·.own? (.text name)) same,
    fun keeps => ⟨inside_alloc o inside,same ▸ keeps.plain,fun s found => ?_,?_⟩⟩
  · exact keeps.full s ((congrArg (·.own? (.text name)) same).symm.trans found)
  · exact same ▸ keeps.bare.alloc o

theorem own_plain {o : Obj} (plain : o.kind = .plain) (k : Key) : o.own? k = o.props.find? k := by
  simp [Obj.own?,plain]

theorem own_props {o : Obj} (plain : o.kind = .plain) (t : Table) (k : Key) :
    Obj.own? { o with props := t } k = t.find? k := by
  obtain ⟨proto,props,extensible,kind⟩ := o
  cases plain
  rfl

theorem put_plain {o : Obj} (plain : o.kind = .plain) (k : Key) (s : Slot) :
    o.put k s = { o with props := o.props.insert k s } := by
  obtain ⟨proto,props,extensible,kind⟩ := o
  cases plain
  rfl

theorem delete_plain {o : Obj} (plain : o.kind = .plain) {k : Key} {s : Slot} (found : o.own? k = some s)
    (gives : s.configurable = true) : o.delete k = (true,{ o with props := o.props.erase k }) := by
  obtain ⟨proto,props,extensible,kind⟩ := o
  cases plain
  simp [Obj.delete,found,gives,Obj.remove,Obj.dropAlias]

namespace Keeps

/-- The global object is given a property. -/
theorem kept_given (keeps : w.Keeps name) (v : Value) (other : String) :
    (w.given name v).kept? other = if other = name then some (.data v .full) else w.kept? other := by
  unfold kept? World.given
  rw [obj_setObj w _ _ _ keeps.inside,if_pos rfl,put_plain keeps.plain,own_props keeps.plain,own_plain keeps.plain,
    Table.find_insert]
  simp

/-- A property of the global object is taken away. -/
theorem kept_without (keeps : w.Keeps name) (other : String) :
    (w.without name).kept? other = if other = name then none else w.kept? other := by
  unfold kept? World.without
  rw [obj_setObj w _ _ _ keeps.inside,if_pos rfl]
  cases found : w.kept? name with
  | none =>
    have same : ((w.obj Intrinsic.global.id).delete (.text name)).2 = w.obj Intrinsic.global.id := by
      have found : (w.obj Intrinsic.global.id).own? (.text name) = none := found
      simp [Obj.delete,found]
    rw [same]
    split
    · next own => exact own ▸ found
    · rfl
  | some s =>
    obtain ⟨v,rfl⟩ := keeps.full s found
    rw [delete_plain keeps.plain found rfl]
    show Obj.own? { w.obj Intrinsic.global.id with props := _ } _ = _
    rw [own_props keeps.plain,own_plain keeps.plain,Table.find_erase]
    simp

end Keeps

/-- The global object stays as it is but for its properties. -/
theorem Keeps.of_props (keeps : w.Keeps name) (f : Obj → Obj)
    (same : (f (w.obj Intrinsic.global.id)).kind = .plain ∧
      (f (w.obj Intrinsic.global.id)).proto = (w.obj Intrinsic.global.id).proto)
    (full : ∀ s, (w.setObj Intrinsic.global.id f).kept? name = some s → ∃ v, s = .data v .full) :
    (w.setObj Intrinsic.global.id f).Keeps name := by
  have here := obj_setObj w Intrinsic.global.id Intrinsic.global.id f keeps.inside
  rw [if_pos rfl] at here
  refine ⟨size_setObj w _ f ▸ keeps.inside,here ▸ same.1,full,?_⟩
  rw [here,same.2]
  exact keeps.bare.setObj

theorem Keeps.given (keeps : w.Keeps name) (v : Value) (keepsOther : w.Keeps other) : (w.given name v).Keeps other := by
  refine keepsOther.of_props _ ?_ fun s found => ?_
  · rw [put_plain keeps.plain]
    exact ⟨keeps.plain,rfl⟩
  · rw [← World.given,keeps.kept_given v] at found
    split at found
    · exact ⟨v,(Option.some.inj found).symm⟩
    · exact keepsOther.full s found

theorem Keeps.without (keeps : w.Keeps name) (keepsOther : w.Keeps other) : (w.without name).Keeps other := by
  refine keepsOther.of_props _ ?_ fun s found => ?_
  · cases found : w.kept? name with
    | none =>
      have found : (w.obj Intrinsic.global.id).own? (.text name) = none := found
      simp [Obj.delete,found,keeps.plain]
    | some s =>
      obtain ⟨v,rfl⟩ := keeps.full s found
      rw [delete_plain keeps.plain found rfl]
      exact ⟨keeps.plain,rfl⟩
  · rw [← World.without,keeps.kept_without] at found
    split at found
    · cases found
    · exact keepsOther.full s found

/-! ### Names lead to the global object -/

theorem own_of_free {id : Nat} (free : (w.obj id).own? k = none) : w.own? id k = none := by
  simp only [own?,free]
  cases (w.obj id).kind <;> rfl

theorem Bare.find (bare : w.Bare k v) (n : Nat) {id : Nat} (same : v = .obj id) : w.find k n id = .nothing := by
  induction bare generalizing n id with
  | top end_ => exact absurd same (end_ id)
  | @object id' inside other ordinary free up ih =>
    cases same
    cases n with
    | zero => rfl
    | succ n =>
      cases kind : (w.obj id').kind with
      | proxy target handler callable constructs => exact absurd kind (ordinary _ _ _ _)
      | _ =>
        simp only [World.find,kind,own_of_free free]
        split
        · next above => exact ih n above
        · rfl

theorem Bare.findTarget (bare : w.Bare k v) (first n : Nat) {id : Nat} (same : v = .obj id) :
    w.findTarget k first n id = .receiver := by
  induction bare generalizing n id with
  | top end_ => exact absurd same (end_ id)
  | @object id' inside other ordinary free up ih =>
    cases same
    cases n with
    | zero => rfl
    | succ n =>
      cases kind : (w.obj id').kind with
      | proxy target handler callable constructs => exact absurd kind (ordinary _ _ _ _)
      | _ =>
        simp only [World.findTarget,kind,free]
        split
        · next above => exact ih n above
        · rfl

theorem reach_succ : ∃ n, reach = n+1 := ⟨99999,rfl⟩

namespace Keeps

/-- What is found under a name is what the global object has under it. -/
theorem find (keeps : w.Keeps name) : w.find (.text name) reach Intrinsic.global.id =
    match w.kept? name with
    | some (.data v _) => .value v
    | _ => .nothing := by
  obtain ⟨n,same⟩ := reach_succ
  have own : w.own? Intrinsic.global.id (.text name) = w.kept? name := by
    simp [own?,keeps.plain,kept?]
  rw [same]
  simp only [World.find,keeps.plain,own]
  cases found : w.kept? name with
  | none =>
    simp only
    split
    · next above => exact keeps.bare.find n above
    · rfl
  | some s =>
    obtain ⟨v,rfl⟩ := keeps.full s found
    rfl

/-- An assignment to a name concerns the global object itself. -/
theorem findTarget (keeps : w.Keeps name) :
    w.findTarget (.text name) Intrinsic.global.id reach Intrinsic.global.id =
      if (w.kept? name).isSome then .own else .receiver := by
  obtain ⟨n,same⟩ := reach_succ
  have own : (w.obj Intrinsic.global.id).own? (.text name) = w.kept? name := rfl
  rw [same]
  simp only [World.findTarget,keeps.plain,own]
  cases found : w.kept? name with
  | none =>
    simp only [Option.isSome_none,Bool.false_eq_true,if_false]
    split
    · next above => exact keeps.bare.findTarget _ n above
    · rfl
  | some s =>
    obtain ⟨v,rfl⟩ := keeps.full s found
    simp [Rights.full]

end Keeps

end World

/-! ### Computations -/

section
variable {w last : World} {name other : String} {v : Value} {answers : List Answer}

theorem objectOf_eq (id : Nat) (w : World) : objectOf id w = .ok (w.obj id) w := rfl

/-- To look at a name of the global object asks nothing. -/
theorem getGlobal_eq (keeps : w.Keeps name) : getGlobal name w =
    .ok (match w.kept? name with
      | some (.data v _) => v
      | _ => .undefined) w := by
  obtain ⟨n,same⟩ := World.reach_succ
  unfold getGlobal getId
  rw [same]
  simp only [getOn,M.bind_apply,look,Tree.bind,keeps.find]
  cases found : w.kept? name with
  | none => rfl
  | some s =>
    obtain ⟨v,rfl⟩ := keeps.full s found
    rfl

theorem isProxy_eq (keeps : w.Keeps name) : isProxy Intrinsic.global.id w = .ok false w := by
  simp only [isProxy,look,keeps.plain]

theorem removeGlobal_eq (keeps : w.Keeps name) : removeGlobal name w = .ok () (w.without name) := by
  have gone : ((w.obj Intrinsic.global.id).delete (.text name)).1 = true := by
    cases found : w.kept? name with
    | none =>
      have found : (w.obj Intrinsic.global.id).own? (.text name) = none := found
      simp [Obj.delete,found]
    | some s =>
      obtain ⟨v,rfl⟩ := keeps.full s found
      rw [World.delete_plain keeps.plain found rfl]
  obtain ⟨n,same⟩ := World.reach_succ
  unfold removeGlobal deleteProperty
  rw [same]
  simp only [deleteOn,M.bind_apply,isProxy_eq keeps,Tree.bind,Bool.false_eq_true,if_false,update,
    World.updateObj_eq keeps.inside,gone,if_true]
  rfl

/-- A plain object takes a name that it has. -/
theorem setOn_own {id : Nat} {k : Key} {old : Value} (target : w.findTarget k id reach id = .own)
    (plain : (w.obj id).kind = .plain) (own : (w.obj id).own? k = some (.data old .full)) (v : Value) (n : Nat) :
    setOn (n+1) id k v (.obj id) w = .ok true (w.setObj id (·.put k (.data v .full))) := by
  have flat : (w.obj id).isArray = false := by simp [Obj.isArray,plain]
  have alone : (w.obj id).aliased? k = none := by simp [Obj.aliased?,plain]
  simp only [setOn,M.bind_apply,look,Tree.bind,target]
  simp [M.bind_apply,look,Tree.bind,flat,alone,changeObject,change]
  exact congrArg (Tree.ok true) (World.setObj_congr (by simp only [own]; rfl))

/-- The global object takes a name that it has, and a further one if it is extensible. -/
theorem setOn_eq (keeps : w.Keeps name) (v : Value) (n : Nat) :
    setOn (n+1) Intrinsic.global.id (.text name) v globalObject w =
      if (w.kept? name).isSome || (w.obj Intrinsic.global.id).extensible then .ok true (w.given name v)
      else .ok false w := by
  have target := keeps.findTarget
  cases found : w.kept? name with
  | none =>
    have free : (w.obj Intrinsic.global.id).endsBefore (.text name) = false := by simp [Obj.endsBefore,keeps.plain]
    rw [found] at target
    unfold globalObject World.given
    simp only [setOn,M.bind_apply,look,Tree.bind,target]
    cases extends_ : (w.obj Intrinsic.global.id).extensible with
    | true =>
      simp [M.bind_apply,look,Tree.bind,free,extends_,changeObject,change]
      rfl
    | false =>
      simp [M.bind_apply,look,Tree.bind,free,extends_]
      rfl
  | some s =>
    obtain ⟨old,rfl⟩ := keeps.full s found
    rw [found] at target
    exact setOn_own target keeps.plain found v n

/-- A name is given to the global object, unless it takes no further ones. -/
theorem setGlobal_eq (keeps : w.Keeps name) (v : Value) :
    setGlobal name v w = .ok () (w.given name v) ∨ ∃ t o, setGlobal name v w = .thrown t (w.alloc o).2 := by
  obtain ⟨n,same⟩ := World.reach_succ
  have set := setOn_eq keeps v n
  rw [← same] at set
  unfold setGlobal setNamed setOf
  split at set
  · exact .inl (M.bind_of_ok set)
  · next refuses =>
    simp only [Bool.or_eq_true,not_or,Bool.not_eq_true,Option.isSome_eq_false_iff,Option.isNone_iff_eq_none] at refuses
    have none : (w.obj Intrinsic.global.id).own? (.text name) = none := refuses.1
    have free : (w.obj Intrinsic.global.id).endsBefore (.text name) = false := by simp [Obj.endsBefore,keeps.plain]
    refine .inr ?_
    show ∃ t o, (setOn reach _ _ _ _ >>= _) w = _
    rw [M.bind_of_ok set]
    show ∃ t o, (isProxy _ >>= _) w = _
    rw [M.bind_of_ok (isProxy_eq keeps)]
    show ∃ t o, (objectOf _ >>= _) w = _
    rw [M.bind_of_ok (objectOf_eq _ w)]
    simp only [none,free,refuses.2,Bool.false_eq_true,if_false]
    exact ⟨_,_,rfl⟩

end

end ScriptHost.Engine
