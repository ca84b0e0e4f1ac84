import ScriptHost.Engine.Host.Globals
import ScriptHost.Proofs.Engine.Callbacks
/-!
The table of timers. For every timer that waits to fire it has an object with the callback and the arguments, under the
handle as a text. `World.Tends` says that the table is as it is meant to be, and that no prototype answers or refuses
one of the names involved. It stays so while timers are left alone (`World.Tends.left`), whatever further objects there
are, and when one timer comes or goes (`World.Tends.updated`).
-/
namespace ScriptHost.Engine

/-! ### Names of timers -/

/-- The name of a timer in the table. -/
def timerKey (id : Nat) : Key := .ofText (toString id)

theorem toList_toString (n : Nat) : (toString n).toList = Nat.toDigits 10 n := by
  rw [Nat.toString_eq_ofList_toDigits,String.toList_ofList]

/-- A number is the index that its text is, if it is one. -/
theorem eq_of_indexOf {n i : Nat} (found : Key.indexOf? (toString n) = some i) : i = n := by
  have value : (Nat.toDigits 10 n).foldl (fun n c => n * 10 + (c.toNat - 48)) 0 = n := by
    have digits := Nat.ofDigitChars_ten_toDigits (n := n)
    rw [Nat.ofDigitChars_eq_foldl] at digits
    simpa [Nat.mul_comm] using digits
  unfold Key.indexOf? at found
  rw [toList_toString] at found
  generalize Nat.toDigits 10 n = digits at found value
  dsimp only at found
  split at found
  · cases found
  · cases found
    simpa using value
  · split at found
    · cases found
    · rw [value] at found
      split at found
      · exact (Option.some.inj found).symm
      · cases found

theorem timerKey_cases (n : Nat) : timerKey n = .index n ∨ timerKey n = .text (toString n) := by
  unfold timerKey Key.ofText
  split
  · split
    · split
      · next i found =>
        rw [eq_of_indexOf found]
        exact .inl rfl
      · exact .inr rfl
    · exact .inr rfl
  · exact .inr rfl

/-- Timers have different names. -/
theorem timerKey_injective {m n : Nat} (same : timerKey m = timerKey n) : m = n := by
  rcases timerKey_cases m with left | left <;> rcases timerKey_cases n with right | right <;>
    rw [left,right] at same
  · exact Key.index.inj same
  · cases same
  · cases same
  · have digits : Nat.toDigits 10 m = Nat.toDigits 10 n := by
      rw [← toList_toString,← toList_toString,Key.text.inj same]
    calc m = Nat.ofDigitChars 10 (Nat.toDigits 10 m) 0 := Nat.ofDigitChars_ten_toDigits.symm
      _ = Nat.ofDigitChars 10 (Nat.toDigits 10 n) 0 := by rw [digits]
      _ = n := Nat.ofDigitChars_ten_toDigits

/-- The table of timers is no timer. -/
theorem timerKey_ne_table (n : Nat) : timerKey n ≠ .text timerTable := by
  rcases timerKey_cases n with key | key <;> rw [key]
  · nofun
  · intro same
    have digit : '_' ∈ (toString n).toList := by
      rw [Key.text.inj same]
      decide
    rw [toList_toString] at digit
    exact Nat.underscore_not_in_toDigits digit

namespace World
variable {w back last : World} {k : Key} {v f : Value} {t e n : Nat}

/-! ### Names that ask nothing -/

/-- From here up the prototypes a name is free or a plain property, so that nobody is asked when it is read, and nothing
    is refused when an object below gets it. -/
inductive Tame (w : World) (k : Key) : Value → Prop where
  | top {v : Value} (end_ : ∀ id, v ≠ .obj id) : Tame w k v
  | object {id : Nat} (inside : id < w.heap.size)
      (ordinary : ∀ target handler callable constructs, (w.obj id).kind ≠ .proxy target handler callable constructs)
      (own : ∀ s, (w.obj id).own? k = some s → ∃ v r, s = .data v r ∧ r.writable = true)
      (up : Tame w k (w.obj id).proto) : Tame w k (.obj id)

theorem own_of_data {id : Nat} {r : Rights} (own : (w.obj id).own? k = some (.data v r)) :
    ∃ u, w.own? id k = some (.data u r) := by
  simp only [World.own?,own]
  cases (w.obj id).kind with
  | arguments scope slots => cases (w.obj id).aliased? k <;> exact ⟨_,rfl⟩
  | _ => exact ⟨v,rfl⟩

theorem tame_of_empty {id : Nat} (inside : id < w.heap.size) (here : w.obj id = { proto := .null }) (k : Key) :
    w.Tame k (.obj id) := by
  refine .object inside (fun _ _ _ _ proxy => ?_) (fun s own => ?_) (here ▸ .top nofun)
  · rw [here] at proxy
    cases proxy
  · rw [here] at own
    cases own

/-- A tame name is read without a question. -/
theorem Tame.find (tame : w.Tame k v) (m : Nat) {id : Nat} (same : v = .obj id) :
    w.find k m id = .nothing ∨ ∃ u, w.find k m id = .value u := by
  induction tame generalizing m id with
  | top end_ => exact absurd same (end_ id)
  | @object id' inside ordinary own up ih =>
    cases same
    cases m with
    | zero => exact .inl rfl
    | succ m =>
      cases kind : (w.obj id').kind with
      | proxy target handler callable constructs => exact absurd kind (ordinary _ _ _ _)
      | _ =>
        simp only [World.find,kind]
        cases found : (w.obj id').own? k with
        | none =>
          simp only [own_of_free found]
          split
          · next above => exact ih m above
          · exact .inl rfl
        | some s =>
          obtain ⟨v,r,rfl,-⟩ := own s found
          obtain ⟨u,own⟩ := own_of_data found
          simp only [own]
          exact .inr ⟨u,rfl⟩

/-- A tame name of the prototypes does not get in the way of an assignment. -/
theorem Tame.findTarget (tame : w.Tame k v) {first : Nat} (free : (w.obj first).own? k = none) (m : Nat) {id : Nat}
    (same : v = .obj id) : w.findTarget k first m id = .receiver := by
  induction tame generalizing m id with
  | top end_ => exact absurd same (end_ id)
  | @object id' inside ordinary own up ih =>
    cases same
    cases m with
    | zero => rfl
    | succ m =>
      cases kind : (w.obj id').kind with
      | proxy target handler callable constructs => exact absurd kind (ordinary _ _ _ _)
      | _ =>
        simp only [World.findTarget,kind]
        cases found : (w.obj id').own? k with
        | none =>
          simp only
          split
          · next above => exact ih m above
          · rfl
        | some s =>
          obtain ⟨v,r,rfl,writable⟩ := own s found
          -- A property of a prototype is shadowed by one of the receiver, unless it is read-only.
          have other : id' ≠ first := by
            rintro rfl
            cases free.symm.trans found
          simp [writable,other]

/-! ### What is kept of timers -/

/-- The names under which a timer, its callback and its arguments are put into objects. -/
def TimerName (k : Key) : Prop := k = .text "fn" ∨ k = .text "args" ∨ ∃ n, k = timerKey n

/-- An object of the table of timers, with the callback. -/
structure Holds (w : World) (t e : Nat) (f : Value) : Prop where
  inside : e < w.heap.size
  apart : e ≠ t
  plain : (w.obj e).kind = .plain
  callback : (w.obj e).own? (.text "fn") = some (.data f .full)
  callable : ∃ id, f = .obj id ∧ (w.obj id).isCallable = true
  arguments : ∃ l, (w.obj e).own? (.text "args") = some (.data (.obj l) .full) ∧ l < w.heap.size ∧ l ≠ t ∧
    (w.obj l).proto = .obj Intrinsic.array.id ∧
    (∃ items length fixed loose, (w.obj l).kind = .array items length fixed loose) ∧
    ∀ i s, (w.obj l).own? (.index i) = some s → ∃ v r, s = .data v r ∧ r.writable = true

/-- The table of timers has a callback for a timer. -/
def Awaits (w : World) (t n : Nat) (f : Value) : Prop :=
  ∃ e, (w.obj t).own? (timerKey n) = some (.data (.obj e) .full) ∧ w.Holds t e f

/-- The table of timers is as it is meant to be: it has an object for every timer that waits to fire, and nothing
    else. -/
structure Tends (w : World) (t : Nat) : Prop where
  keeps : w.Keeps timerTable
  kept : w.kept? timerTable = some (.data (.obj t) .full)
  apart : t ≠ Intrinsic.global.id
  inside : t < w.heap.size
  plain : (w.obj t).kind = .plain
  extensible : (w.obj t).extensible = true
  proto : (w.obj t).proto = .obj Intrinsic.object.id
  names : ∀ k, TimerName k → w.Tame k (.obj Intrinsic.object.id)
  elements : ∀ i, w.Tame (.index i) (.obj Intrinsic.array.id)
  own : ∀ k s, (w.obj t).own? k = some s → ∃ n e f, n ∈ w.outside.timers.active ∧ k = timerKey n ∧
    s = .data (.obj e) .full ∧ w.Holds t e f
  active : ∀ n ∈ w.outside.timers.active, n < w.outside.timers.nextId ∧ ((w.obj t).own? (timerKey n)).isSome = true

/-- An object of the table is as it was if the objects are that it is made of. -/
theorem Holds.congr (holds : w.Holds t e f) (grows : w.heap.size ≤ last.heap.size) (entry : last.obj e = w.obj e)
    (list : ∀ l, (w.obj e).own? (.text "args") = some (.data (.obj l) .full) → l < w.heap.size → l ≠ t →
      last.obj l = w.obj l)
    (functions : ∀ id, (w.obj id).isCallable = true → (last.obj id).isCallable = true) : last.Holds t e f := by
  obtain ⟨id,rfl,callable⟩ := holds.callable
  obtain ⟨l,args,inside,apart,proto,array,items⟩ := holds.arguments
  have list := list l args inside apart
  exact {
    inside := Nat.lt_of_lt_of_le holds.inside grows
    apart := holds.apart
    plain := entry ▸ holds.plain
    callback := entry ▸ holds.callback
    callable := ⟨id,rfl,functions id callable⟩
    arguments := ⟨l,entry ▸ args,Nat.lt_of_lt_of_le inside grows,apart,list ▸ proto,list ▸ array,list ▸ items⟩ }

theorem Tends.awaits (tends : w.Tends t) (active : n ∈ w.outside.timers.active) : ∃ f, w.Awaits t n f := by
  obtain ⟨s,own⟩ := Option.isSome_iff_exists.mp (tends.active n active).2
  obtain ⟨m,e,f,-,-,rfl,holds⟩ := tends.own _ s own
  exact ⟨f,e,own,holds⟩

theorem Awaits.active (awaits : w.Awaits t n f) (tends : w.Tends t) : n ∈ w.outside.timers.active := by
  obtain ⟨e,own,-⟩ := awaits
  obtain ⟨m,-,-,active,same,-⟩ := tends.own _ _ own
  rwa [timerKey_injective same]

theorem Awaits.unique {g : Value} (awaits : w.Awaits t n f) (again : w.Awaits t n g) : f = g := by
  obtain ⟨e,own,holds⟩ := awaits
  obtain ⟨e',own',holds'⟩ := again
  cases own.symm.trans own'
  cases holds.callback.symm.trans holds'.callback
  rfl

/-- A handle that was not given out is free. -/
theorem Tends.free (tends : w.Tends t) (later : w.outside.timers.nextId ≤ n) : (w.obj t).own? (timerKey n) = none := by
  cases found : (w.obj t).own? (timerKey n) with
  | none => rfl
  | some s =>
    obtain ⟨m,-,-,active,same,-⟩ := tends.own _ _ found
    cases timerKey_injective same
    have given := (tends.active n active).1
    omega

/-- The objects that are kept of timers: the table, what it has, and the arguments. -/
inductive OfTimers (w : World) (t : Nat) : Nat → Prop where
  | table : OfTimers w t t
  | entry {k : Key} {e : Nat} {r : Rights} (own : (w.obj t).own? k = some (.data (.obj e) r)) : OfTimers w t e
  | arguments {k : Key} {e l : Nat} {r r' : Rights} (own : (w.obj t).own? k = some (.data (.obj e) r))
      (args : (w.obj e).own? (.text "args") = some (.data (.obj l) r')) : OfTimers w t l

/-- Timers were left alone: their handles, the table with all that it leads to, and the names that prototypes could
    answer or refuse. -/
structure LeavesTimers (w last : World) : Prop where
  handles : w.outside.timers.nextId ≤ last.outside.timers.nextId
  active : last.outside.timers.active = w.outside.timers.active
  grows : w.heap.size ≤ last.heap.size
  table : w.Leaves last timerTable
  objects : ∀ t id, w.kept? timerTable = some (.data (.obj t) .full) → w.OfTimers t id → last.obj id = w.obj id
  names : ∀ k, TimerName k → w.Tame k (.obj Intrinsic.object.id) → last.Tame k (.obj Intrinsic.object.id)
  elements : ∀ i, w.Tame (.index i) (.obj Intrinsic.array.id) → last.Tame (.index i) (.obj Intrinsic.array.id)
  /-- A function stays one. -/
  functions : ∀ id, (w.obj id).isCallable = true → (last.obj id).isCallable = true

section
variable (leaves : w.LeavesTimers last)

include leaves in
theorem Holds.left (tends : w.Tends t) {k : Key} (own : (w.obj t).own? k = some (.data (.obj e) .full))
    (holds : w.Holds t e f) : last.Holds t e f :=
  holds.congr leaves.grows (leaves.objects t e tends.kept (.entry own))
    (fun l args _ _ => leaves.objects t l tends.kept (.arguments own args)) leaves.functions

include leaves in
theorem Awaits.left (tends : w.Tends t) (awaits : w.Awaits t n f) : last.Awaits t n f := by
  obtain ⟨e,own,holds⟩ := awaits
  have table : last.obj t = w.obj t := leaves.objects t t tends.kept .table
  exact ⟨e,table ▸ own,holds.left leaves tends own⟩

include leaves in
theorem Tends.left (tends : w.Tends t) : last.Tends t := by
  have table : last.obj t = w.obj t := leaves.objects t t tends.kept .table
  exact {
    keeps := leaves.table.keeps tends.keeps
    kept := leaves.table.kept.trans tends.kept
    apart := tends.apart
    inside := Nat.lt_of_lt_of_le tends.inside leaves.grows
    plain := table ▸ tends.plain
    extensible := table ▸ tends.extensible
    proto := table ▸ tends.proto
    names := fun k name => leaves.names k name (tends.names k name)
    elements := fun i => leaves.elements i (tends.elements i)
    own := by
      intro k s own
      rw [table] at own
      obtain ⟨n,e,f,active,key,rfl,holds⟩ := tends.own k s own
      exact ⟨n,e,f,leaves.active ▸ active,key,rfl,holds.left leaves tends own⟩
    active := by
      intro n active
      rw [leaves.active] at active
      obtain ⟨given,there⟩ := tends.active n active
      exact ⟨Nat.lt_of_lt_of_le given leaves.handles,table ▸ there⟩ }

end

/-! ### Further objects -/

/-- There may be further objects; what was there is as it was. -/
structure Extends (w last : World) : Prop where
  grows : w.heap.size ≤ last.heap.size
  same : ∀ id, id < w.heap.size → last.obj id = w.obj id

theorem Extends.refl (w : World) : w.Extends w := ⟨Nat.le_refl _,fun _ _ => rfl⟩

theorem Extends.trans (first : w.Extends back) (rest : back.Extends last) : w.Extends last :=
  ⟨Nat.le_trans first.grows rest.grows,
    fun id inside => (rest.same id (Nat.lt_of_lt_of_le inside first.grows)).trans (first.same id inside)⟩

theorem extends_alloc (w : World) (o : Obj) : w.Extends (w.alloc o).2 :=
  ⟨by rw [size_alloc]; exact Nat.le_succ _,fun _ inside => obj_alloc w o inside⟩

theorem Tame.extended (tame : w.Tame k v) (ext : w.Extends last) : last.Tame k v := by
  induction tame with
  | top end_ => exact .top end_
  | @object id inside ordinary own up ih =>
    have same := ext.same id inside
    exact .object (Nat.lt_of_lt_of_le inside ext.grows) (same ▸ ordinary) (same ▸ own) (same ▸ ih)

theorem Bare.extended (bare : w.Bare k v) (ext : w.Extends last) : last.Bare k v := by
  induction bare with
  | top end_ => exact .top end_
  | @object id inside other ordinary free up ih =>
    have same := ext.same id inside
    exact .object (Nat.lt_of_lt_of_le inside ext.grows) other (same ▸ ordinary) (same ▸ free) (same ▸ ih)

theorem Leaves.extended (inside : Intrinsic.global.id < w.heap.size) (ext : w.Extends last) (name : String) :
    w.Leaves last name := by
  have same := ext.same _ inside
  have kept : last.kept? name = w.kept? name := congrArg (·.own? (.text name)) same
  refine ⟨kept,fun keeps => ⟨Nat.lt_of_lt_of_le inside ext.grows,same ▸ keeps.plain,fun s found => ?_,?_⟩⟩
  · exact keeps.full s (kept ▸ found)
  · rw [same]
    exact keeps.bare.extended ext

theorem inside_of_isCallable {id : Nat} (callable : (w.obj id).isCallable = true) : id < w.heap.size := by
  by_contra outside
  have none : w.obj id = default := by simp [obj,Array.getD,outside]
  rw [none] at callable
  cases callable

theorem Holds.extended (holds : w.Holds t e f) (ext : w.Extends last) : last.Holds t e f :=
  holds.congr ext.grows (ext.same e holds.inside) (fun l _ inside _ => ext.same l inside) fun id callable =>
    (ext.same id (inside_of_isCallable callable)).symm ▸ callable

/-- Further objects leave timers alone. -/
theorem Tends.leaves_of_extends (tends : w.Tends t) (ext : w.Extends last)
    (handles : w.outside.timers.nextId ≤ last.outside.timers.nextId)
    (active : last.outside.timers.active = w.outside.timers.active) : w.LeavesTimers last where
  handles := handles
  active := active
  grows := ext.grows
  table := .extended tends.keeps.inside ext timerTable
  objects := by
    intro t' id kept ofTimers
    cases tends.kept.symm.trans kept
    refine ext.same id ?_
    cases ofTimers with
    | table => exact tends.inside
    | entry own =>
      obtain ⟨n,e,f,-,-,same,holds⟩ := tends.own _ _ own
      cases same
      exact holds.inside
    | arguments own args =>
      obtain ⟨n,e,f,-,-,same,holds⟩ := tends.own _ _ own
      cases same
      obtain ⟨l,own,inside,-⟩ := holds.arguments
      cases own.symm.trans args
      exact inside
  names := fun k name tame => tame.extended ext
  elements := fun i tame => tame.extended ext
  functions := by
    intro id callable
    rw [ext.same id (inside_of_isCallable callable)]
    exact callable

/-! ### The table changes -/

/-- A plain object changes under one name, where it has a plain property or nothing after that. -/
structure Touches (w last : World) (t : Nat) (k : Key) : Prop where
  size : last.heap.size = w.heap.size
  others : ∀ id, id ≠ t → last.obj id = w.obj id
  plain : (w.obj t).kind = .plain
  kind : (last.obj t).kind = .plain
  proto : (last.obj t).proto = (w.obj t).proto
  extensible : (last.obj t).extensible = (w.obj t).extensible
  own : ∀ k', k' ≠ k → (last.obj t).own? k' = (w.obj t).own? k'
  here : ∀ s, (last.obj t).own? k = some s → ∃ v, s = .data v .full

/-- A plain object touches a name when its properties change under this name only. -/
theorem touches_of_props {f : Obj → Obj} {props : Table} {s : Option Slot} (inside : t < w.heap.size)
    (plain : (w.obj t).kind = .plain) (changed : f (w.obj t) = { w.obj t with props })
    (own : ∀ k', props.find? k' = if k' = k then s else (w.obj t).props.find? k')
    (here : ∀ s', s = some s' → ∃ v, s' = .data v .full) :
    w.Touches (w.setObj t f) t k ∧ ((w.setObj t f).obj t).own? k = s := by
  have same : (w.setObj t f).obj t = { w.obj t with props } := by
    rw [obj_setObj w t t f inside,if_pos rfl,changed]
  have own : ∀ k', ((w.setObj t f).obj t).own? k' = if k' = k then s else (w.obj t).own? k' := by
    intro k'
    rw [same,own_props plain,own_plain plain,own]
  refine ⟨⟨size_setObj w t f,fun id other => ?_,plain,same ▸ plain,same ▸ rfl,same ▸ rfl,fun k' other => ?_,
    fun s' found => ?_⟩,?_⟩
  · rw [obj_setObj w t id f inside,if_neg other]
  · rw [own,if_neg other]
  · rw [own,if_pos rfl] at found
    exact here s' found
  · rw [own,if_pos rfl]

theorem touches_put (inside : t < w.heap.size) (plain : (w.obj t).kind = .plain) (k : Key) (v : Value) :
    w.Touches (w.setObj t (·.put k (.data v .full))) t k ∧
      ((w.setObj t (·.put k (.data v .full))).obj t).own? k = some (.data v .full) :=
  touches_of_props inside plain (put_plain plain k _) (fun k' => Table.find_insert _ k k' _)
    fun _ same => ⟨v,(Option.some.inj same).symm⟩

theorem touches_delete (inside : t < w.heap.size) (plain : (w.obj t).kind = .plain)
    (own : (w.obj t).own? k = some (.data v .full)) :
    w.Touches (w.setObj t fun o => (o.delete k).2) t k ∧
      ((w.setObj t fun o => (o.delete k).2).obj t).own? k = none :=
  touches_of_props inside plain (congrArg Prod.snd (delete_plain plain own rfl)) (Table.find_erase _ k) nofun

section
variable (touches : w.Touches last t k)

include touches in
/-- What is outside does not matter. -/
theorem Touches.outside (before after : Outside) : Touches { w with outside := before } { last with outside := after } t k :=
  ⟨touches.size,touches.others,touches.plain,touches.kind,touches.proto,touches.extensible,touches.own,touches.here⟩

include touches in
/-- A further object may change. -/
theorem Extends.touched {old : World} (ext : old.Extends w) (further : old.heap.size ≤ t) : old.Extends last := by
  refine ⟨touches.size ▸ ext.grows,fun id inside => ?_⟩
  rw [touches.others id (by omega)]
  exact ext.same id inside

include touches in
theorem Tame.touched {k' : Key} (tame : w.Tame k' v) : last.Tame k' v := by
  induction tame with
  | top end_ => exact .top end_
  | @object id inside ordinary own up ih =>
    have inside : id < last.heap.size := touches.size ▸ inside
    by_cases here : id = t
    · subst here
      refine .object inside (fun _ _ _ _ proxy => ?_) (fun s found => ?_) (touches.proto ▸ ih)
      · rw [touches.kind] at proxy
        cases proxy
      · by_cases same : k' = k
        · subst same
          obtain ⟨v,rfl⟩ := touches.here s found
          exact ⟨v,.full,rfl,rfl⟩
        · rw [touches.own k' same] at found
          exact own s found
    · have same := touches.others id here
      exact .object inside (same ▸ ordinary) (same ▸ own) (same ▸ ih)

include touches in
theorem Bare.touched {k' : Key} (bare : w.Bare k' v) (apart : k' ≠ k) : last.Bare k' v := by
  induction bare with
  | top end_ => exact .top end_
  | @object id inside other ordinary free up ih =>
    have inside : id < last.heap.size := touches.size ▸ inside
    by_cases here : id = t
    · subst here
      refine .object inside other (fun _ _ _ _ proxy => ?_) (touches.own k' apart ▸ free) (touches.proto ▸ ih)
      rw [touches.kind] at proxy
      cases proxy
    · have same := touches.others id here
      exact .object inside other (same ▸ ordinary) (same ▸ free) (same ▸ ih)

include touches in
theorem Keeps.touched {name : String} (keeps : w.Keeps name) (apart : Key.text name ≠ k) (other : Intrinsic.global.id ≠ t) :
    last.Keeps name ∧ last.kept? name = w.kept? name := by
  have same := touches.others _ other
  have kept : last.kept? name = w.kept? name := congrArg (·.own? (.text name)) same
  refine ⟨⟨touches.size ▸ keeps.inside,same ▸ keeps.plain,fun s found => keeps.full s (kept ▸ found),?_⟩,kept⟩
  rw [same]
  exact keeps.bare.touched touches apart

include touches in
theorem Holds.touched (holds : w.Holds t e f) : last.Holds t e f := by
  refine holds.congr (Nat.le_of_eq touches.size.symm) (touches.others e holds.apart)
    (fun l _ _ apart => touches.others l apart) fun id callable => ?_
  have other : id ≠ t := by
    rintro rfl
    simp [Obj.isCallable,touches.plain] at callable
  rwa [touches.others id other]

end

/-- The table is left as it was but for one timer. -/
structure Updates (w last : World) (t n : Nat) : Prop where
  touches : w.Touches last t (timerKey n)
  handles : w.outside.timers.nextId ≤ last.outside.timers.nextId
  active : ∀ m, m ≠ n → (m ∈ last.outside.timers.active ↔ m ∈ w.outside.timers.active)

section
variable (updates : w.Updates last t n)

include updates in
theorem Awaits.updated {m : Nat} (awaits : w.Awaits t m f) (other : m ≠ n) : last.Awaits t m f := by
  obtain ⟨e,own,holds⟩ := awaits
  have apart : timerKey m ≠ timerKey n := fun same => other (timerKey_injective same)
  exact ⟨e,(updates.touches.own _ apart).trans own,holds.touched updates.touches⟩

include updates in
/-- The table stays as it is meant to be when one timer comes or goes. -/
theorem Tends.updated (tends : w.Tends t)
    (own : ∀ s, (last.obj t).own? (timerKey n) = some s → n ∈ last.outside.timers.active ∧
      ∃ e f, s = .data (.obj e) .full ∧ last.Holds t e f)
    (active : n ∈ last.outside.timers.active → n < last.outside.timers.nextId ∧
      ((last.obj t).own? (timerKey n)).isSome = true) : last.Tends t := by
  have touches := updates.touches
  obtain ⟨keeps,kept⟩ := tends.keeps.touched touches (timerKey_ne_table n).symm tends.apart.symm
  exact {
    keeps
    kept := kept.trans tends.kept
    apart := tends.apart
    inside := touches.size ▸ tends.inside
    plain := touches.kind
    extensible := touches.extensible.trans tends.extensible
    proto := touches.proto.trans tends.proto
    names := fun k name => (tends.names k name).touched touches
    elements := fun i => (tends.elements i).touched touches
    own := by
      intro k s found
      by_cases here : k = timerKey n
      · subst here
        obtain ⟨active,e,f,rfl,holds⟩ := own s found
        exact ⟨n,e,f,active,rfl,rfl,holds⟩
      · rw [touches.own k here] at found
        obtain ⟨m,e,f,active,rfl,rfl,holds⟩ := tends.own k s found
        have other : m ≠ n := fun same => here (same ▸ rfl)
        exact ⟨m,e,f,(updates.active m other).mpr active,rfl,rfl,holds.touched touches⟩
    active := by
      intro m still
      by_cases here : m = n
      · subst here
        exact active still
      · have apart : timerKey m ≠ timerKey n := fun same => here (timerKey_injective same)
        obtain ⟨given,there⟩ := tends.active m ((updates.active m here).mp still)
        exact ⟨Nat.lt_of_lt_of_le given updates.handles,touches.own _ apart ▸ there⟩ }

end

end World

end ScriptHost.Engine
