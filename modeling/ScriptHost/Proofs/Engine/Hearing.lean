import ScriptHost.Proofs.Engine.Aborting
import ScriptHost.Proofs.Engine.Callbacks
/-!
What a look finds. The callbacks are called one after another, among anything that leaves the state object and them
alone (`Listener.Hears`), and a look comes to what the calls before it come to: to nothing if there was none, to the last
rejection if there was one, and to the last fulfilment otherwise (`Listener.Tells.outcomeAt`).
-/
namespace ScriptHost.Engine

namespace World
variable {w : World} {id : Nat} {name other : String} {v x : Value}

/-- A plain object takes a name that nobody looks for. -/
theorem Bare.put (bare : w.Bare (.text name) v) (inside : id < w.heap.size) (plain : (w.obj id).kind = .plain)
    (apart : name ≠ other) : (w.setObj id (·.put (.text other) (.data x .full))).Bare (.text name) v := by
  induction bare with
  | top end_ => exact .top end_
  | @object id' inside' outside ordinary free up ih =>
    have here := obj_setObj w id id' (·.put (.text other) (.data x .full)) inside
    have same : ((w.setObj id (·.put (.text other) (.data x .full))).obj id').kind = (w.obj id').kind ∧
        ((w.setObj id (·.put (.text other) (.data x .full))).obj id').own? (.text name) = (w.obj id').own? (.text name) ∧
        ((w.setObj id (·.put (.text other) (.data x .full))).obj id').proto = (w.obj id').proto := by
      rw [here]
      split
      · next own =>
        subst own
        rw [put_plain plain]
        refine ⟨rfl,?_,rfl⟩
        rw [own_props plain,Table.find_insert,if_neg (by simpa using apart),own_plain plain]
      · exact ⟨rfl,rfl,rfl⟩
    obtain ⟨kind,own,proto⟩ := same
    exact .object (size_setObj w _ _ ▸ inside') outside (kind ▸ ordinary) (own.trans free) (proto ▸ ih)

/-- What is noted in another object leaves a name of the global object alone. -/
theorem leaves_put (inside : id < w.heap.size) (plain : (w.obj id).kind = .plain) (outside : id ≠ Intrinsic.global.id)
    (apart : name ≠ other) (x : Value) : w.Leaves (w.setObj id (·.put (.text other) (.data x .full))) name := by
  have same := obj_setObj w id Intrinsic.global.id (·.put (.text other) (.data x .full)) inside
  rw [if_neg outside.symm] at same
  have kept : (w.setObj id (·.put (.text other) (.data x .full))).kept? name = w.kept? name :=
    congrArg (·.own? (.text name)) same
  refine ⟨kept,fun keeps => ⟨size_setObj w _ _ ▸ keeps.inside,same ▸ keeps.plain,fun s found => ?_,?_⟩⟩
  · exact keeps.full s (kept.symm.trans found)
  · exact same ▸ keeps.bare.put inside plain apart

theorem leaves_noted {s : State} (stated : w.Says id s) (outside : id ≠ Intrinsic.global.id) {notes : List (String × Value)}
    (apart : ∀ note ∈ notes, name ≠ note.1) : w.Leaves (w.noted id notes) name := by
  induction notes generalizing w s with
  | nil => exact .refl w name
  | cons note notes ih =>
    have put := leaves_put stated.inside stated.plain outside (apart note List.mem_cons_self) note.2
    exact put.trans (ih (stated.put note.1 note.2) fun note member => apart note (List.mem_cons_of_mem _ member))

end World

namespace Listener

section
variable {l : Listener} {w middle last : World} {rejects : Bool} {name : String} {s : State} {told more : List Told}

/-- A further object is none of theirs. -/
theorem Ready.alloc (ready : l.Ready w) (o : Obj) : l.Ready (w.alloc o).2 := by
  refine ⟨fun rejects => ?_,ready.binds⟩
  obtain ⟨activation,closure⟩ := ready.closure rejects
  have inside : l.callback rejects < w.heap.size := by
    by_contra outside
    simp [World.obj,Array.getD_eq_getD_getElem?,Array.getElem?_eq_none (Nat.le_of_not_lt outside)] at closure
    cases closure
  exact ⟨activation,(congrArg Obj.kind (World.obj_alloc w o inside)).trans closure⟩

/-- What is noted in the state object is none of theirs. -/
theorem Ready.noted (ready : l.Ready w) (stated : w.Says l.object s) (notes : List (String × Value)) :
    l.Ready (w.noted l.object notes) := by
  refine ⟨fun rejects => ?_,ready.binds.of_scopes ?_⟩
  · obtain ⟨activation,closure⟩ := ready.closure rejects
    have apart : l.callback rejects ≠ l.object := by
      intro same
      rw [same,stated.plain] at closure
      cases closure
    exact ⟨activation,(congrArg Obj.kind (World.obj_noted stated.inside apart notes)).trans closure⟩
  · rw [World.noted_eq]

/-- The state object is kept under its name and says what it was told, and the callbacks are there. -/
structure Tells (l : Listener) (name : String) (w : World) (told : List Told) : Prop where
  ready : l.Ready w
  stated : w.Says l.object (State.blank.hear told)
  keeps : w.Keeps name
  kept : w.kept? name = some (.data (.obj l.object) .full)
  outside : l.object ≠ Intrinsic.global.id
  fresh : name ∉ stateNames

/-- The state object and its name were left alone, and so were the callbacks. -/
structure Spares (l : Listener) (name : String) (w last : World) : Prop where
  inside : w.heap.size ≤ last.heap.size
  object : last.obj l.object = w.obj l.object
  closure : ∀ rejects, (last.obj (l.callback rejects)).kind = (w.obj (l.callback rejects)).kind
  scope : last.scopes[l.scope]? = w.scopes[l.scope]?
  leaves : w.Leaves last name

theorem Spares.refl (l : Listener) (name : String) (w : World) : l.Spares name w w :=
  ⟨Nat.le_refl _,rfl,fun _ => rfl,rfl,.refl w name⟩

/-- Whoever leaves the state object alone does not change what it says. -/
theorem Tells.spared (tells : l.Tells name w told) (spares : l.Spares name w last) : l.Tells name last told := by
  obtain ⟨ready,stated,keeps,kept,outside,fresh⟩ := tells
  refine ⟨⟨fun rejects => ?_,ready.binds.of_scopes spares.scope⟩,⟨?_,?_,?_⟩,spares.leaves.keeps keeps,
    spares.leaves.kept.trans kept,outside,fresh⟩
  · exact spares.closure rejects ▸ ready.closure rejects
  · exact Nat.lt_of_lt_of_le stated.inside spares.inside
  · exact spares.object ▸ stated.plain
  · exact spares.object ▸ stated.own

theorem notes_mem (t : Told) : ∀ note ∈ t.notes, note.1 ∈ stateNames := by
  obtain ⟨rejects,v⟩ := t
  cases rejects <;> simp [Told.notes,callbackParam,callbackMarks,stateNames]

/-- A call of a callback is what the state object was told last. -/
theorem Tells.call {this v : Value} {args : Array Value} {answers : List Answer} (tells : l.Tells name w told)
    (there : argument args ≠ .absent)
    (called : (callValue (.obj (l.callback rejects)) this args w).Ends answers (.ok v) last) :
    l.Tells name last (⟨rejects,argument args⟩ :: told) := by
  obtain ⟨ready,stated,keeps,kept,outside,fresh⟩ := tells
  rcases ready.call stated there rejects this with ⟨back,same,origin⟩ | ⟨t,o,thrown⟩
  · rw [same] at called
    cases called
    have facts : l.Ready back ∧ back.Says l.object (State.blank.hear told) ∧ w.Leaves back name := by
      rcases origin with rfl | ⟨o,rfl⟩
      · exact ⟨ready,stated,.refl _ name⟩
      · exact ⟨ready.alloc o,stated.alloc o,World.leaves_alloc keeps.inside o name⟩
    obtain ⟨ready,stated,before⟩ := facts
    have noted : back.Leaves (back.noted l.object (Told.notes ⟨rejects,argument args⟩)) name :=
      World.leaves_noted stated outside fun note member same => fresh (same ▸ notes_mem _ note member)
    have leaves := before.trans noted
    exact ⟨ready.noted stated _,stated.noted _,leaves.keeps keeps,leaves.kept.trans kept,outside,fresh⟩
  · rw [thrown] at called
    cases called

/-- The callbacks are called like this, the last call first; what else happens leaves the state object and the callbacks
    alone. -/
inductive Hears (l : Listener) (name : String) (w : World) : List Told → World → Prop where
  | start : Hears l name w [] w
  | other {told : List Told} {middle last : World} (hears : Hears l name w told middle) (spares : l.Spares name middle last) :
    Hears l name w told last
  | call {told : List Told} {middle last : World} {rejects : Bool} {this v : Value} {args : Array Value}
      {answers : List Answer} (hears : Hears l name w told middle) (there : argument args ≠ .absent)
      (called : (callValue (.obj (l.callback rejects)) this args middle).Ends answers (.ok v) last) :
    Hears l name w (⟨rejects,argument args⟩ :: told) last

/-- The state object says what it was told, whatever else happened in between. -/
theorem Tells.hears (tells : l.Tells name w told) (hears : l.Hears name w more last) : l.Tells name last (more ++ told) := by
  induction hears with
  | start => exact tells
  | other hears spares ih => exact ih.spared spares
  | call hears there called ih => exact ih.call there called

/-- What is known of the calls: nothing before the value is handed on, and which ones there were after that. -/
def Knows (l : Listener) (name : String) (w : World) : Option (List Told) → Prop
  | none => True
  | some told => l.Tells name w told

/-- What becomes of it from one world to another: the value may be handed on, and there may be more calls. -/
inductive Heard (l : Listener) (name : String) (w last : World) : Option (List Told) → Option (List Told) → Prop where
  | before : Heard l name w last none none
  | handedOn {made : World} {told : List Told} (tells : l.Tells name made []) (hears : l.Hears name made told last) :
    Heard l name w last none (some told)
  | more {told more : List Told} (hears : l.Hears name w more last) :
    Heard l name w last (some told) (some (more ++ told))

theorem Heard.refl (l : Listener) (name : String) (w : World) (known : Option (List Told)) : l.Heard name w w known known := by
  cases known with
  | none => exact .before
  | some told => exact .more .start

theorem Knows.heard {before after : Option (List Told)} (knows : l.Knows name w before)
    (heard : l.Heard name w last before after) : l.Knows name last after := by
  cases heard with
  | before => trivial
  | @handedOn made told tells hears =>
    have tells := tells.hears hears
    rwa [List.append_nil] at tells
  | more hears => exact knows.hears hears

end

end Listener

/-! ### Looks -/

/-- The call that decides: the last one of those that reject, or the last one if there is none. -/
def verdict (told : List Told) : Option Told := (told.find? (·.rejects)).or told.head?

/-- The outcome that a call stands for. -/
def Told.outcome (t : Told) : M (Except Failure Json) :=
  if t.rejects then do return .error (← classifyRejection t.value) else exportJson t.value

/-- What a look finds once the callbacks were called like this. -/
def report (told : List Told) : M (Option (Except Failure Json)) :=
  match verdict told with
  | some t => do return some (← t.outcome)
  | none => return none

section
variable {w : World} {l : Listener} {name : String} {s : State} {told : List Told}

theorem truthOf_eq {id : Nat} {b : Bool} (stated : w.Says id s) (own : name ∈ stateNames) (truth : s name = .bool b) :
    truthOf id name w = .ok (.ok b) w := by
  have read : (do asBool (← getId id (.text name)) : M (Converted Bool)) w = .ok (.ok b) w := by
    rw [M.bind_of_ok (getId_own stated.plain (stated.own name own)),truth]
    rfl
  exact M.bind_of_ok (outcome_of_ok read)

/-- A look that comes to one more computation. -/
theorem outcomeAt_of_lookAt {α : Type} {m : M α} {f : α → Except Failure Json}
    (looked : lookAt name w = (m >>= fun a => pure (.ok (some (f a)))) w) :
    outcomeAt name w = (m >>= fun a => pure (some (f a))) w := by
  unfold outcomeAt
  rw [M.bind_apply,looked,← M.bind_apply,M.bind_assoc]
  rfl

/-- A look finds what the calls before it come to, and nothing if there was none. -/
theorem Listener.Tells.outcomeAt (tells : l.Tells name w told) : outcomeAt name w = report told w := by
  obtain ⟨-,stated,keeps,kept,-,-⟩ := tells
  obtain ⟨done,rejected,error,result⟩ := State.hear_blank told
  have own : ∀ name ∈ stateNames, plainly (sure (getId l.object (.text name))) w = .ok (.ok (State.blank.hear told name)) w :=
    fun name own => plainly_of_ok (getId_own stated.plain (stated.own name own))
  have looked : lookAt name w = _ := (andThen_of_ok _ (found_of_kept keeps kept)).trans
    (andThen_of_ok _ (truthOf_eq stated (by decide) done))
  cases told with
  | nil => exact (M.bind_of_ok looked).trans rfl
  | cons t ts =>
    have looked : lookAt name w = _ := looked.trans (andThen_of_ok _ (truthOf_eq stated (by decide) rejected))
    unfold report verdict
    cases found : (t :: ts).find? (·.rejects) with
    | some u =>
      have rejects : u.rejects = true := List.find?_some found
      have any : (t :: ts).any (·.rejects) = true := List.any_eq_true.mpr ⟨u,List.mem_of_find?_eq_some found,rejects⟩
      rw [any] at looked
      have looked := looked.trans (andThen_of_ok _ (own "error" (by decide)))
      rw [error,found] at looked
      simp only [Option.some_or,Told.outcome,rejects,if_true]
      have assoc := M.bind_assoc (classifyRejection u.value) (fun f => (pure (.error f) : M (Except Failure Json)))
        fun r => pure (some r)
      exact (outcomeAt_of_lookAt looked).trans (congrFun assoc w).symm
    | none =>
      have fulfils : ∀ u ∈ t :: ts, u.rejects = false := by simpa using List.find?_eq_none.mp found
      have any : (t :: ts).any (·.rejects) = false := by simpa using fulfils
      have last : (t :: ts).find? (!·.rejects) = some t := by simp [fulfils t List.mem_cons_self]
      rw [any] at looked
      have looked := looked.trans (andThen_of_ok _ (own "result" (by decide)))
      rw [result,last] at looked
      simp only [Option.none_or,List.head?_cons,Told.outcome,fulfils t List.mem_cons_self,Bool.false_eq_true,if_false]
      exact outcomeAt_of_lookAt looked

/-- A look ends with nothing if there was no call, and otherwise with the outcome that the call stands for that
    decides. -/
theorem Listener.Tells.ends_outcomeAt {answers : List Answer} {r : Except Thrown (Option (Except Failure Json))} {last : World}
    (tells : l.Tells name w told) (ends : (Engine.outcomeAt name w).Ends answers r last) :
    (verdict told = none ∧ r = .ok none) ∨
      ∃ t o, verdict told = some t ∧ (t.outcome w).Ends answers (.ok o) last ∧ r = .ok (some o) := by
  obtain ⟨found,rfl,-⟩ := yields_outcomeAt name w answers r last ends
  rw [tells.outcomeAt,report] at ends
  cases decides : verdict told with
  | none =>
    rw [decides] at ends
    cases ends
    exact .inl ⟨rfl,rfl⟩
  | some t =>
    rw [decides] at ends
    obtain ⟨first,rest,o,back,rfl,before,after⟩ := ends_bind_ok ends
    cases after
    exact .inr ⟨t,o,rfl,by simpa using before,rfl⟩

end

end ScriptHost.Engine
