import ScriptHost.Proofs.Engine.Callbacks
import ScriptHost.Proofs.Timers.Table
/-!
What a script comes to that is a function in a parenthesis: the function is made, and nothing of it is run.
-/
namespace ScriptHost.Engine
open Script (Expr Stmt Func)

namespace World

/-- Objects were made and nothing else was done: those there were, the scopes, what waits and all that is outside are as
they were. -/
structure Made (w last : World) : Prop where
  ext : w.Extends last
  frame : last = { w with heap := last.heap, used := last.used, captures := last.captures }

variable {w back last : World}

theorem Made.trans (first : w.Made back) (rest : back.Made last) : w.Made last :=
  ⟨first.ext.trans rest.ext,by rw [rest.frame,first.frame]⟩

theorem Made.setObj {id : Nat} {f : Obj → Obj} (made : w.Made back) (further : w.heap.size ≤ id)
    (inside : id < back.heap.size) : w.Made (back.setObj id f) where
  ext := by
    refine ⟨by rw [size_setObj]; exact made.ext.grows,fun other old => ?_⟩
    rw [obj_setObj _ _ _ _ inside,if_neg (Nat.ne_of_lt (Nat.lt_of_lt_of_le old further)),made.ext.same other old]
  frame := congrArg (fun back : World => back.setObj id f) made.frame

/-- The value of the script is put back and the script is over. -/
theorem Made.restored {v : Value} (made : ({ w with result := v, scripts := w.scripts + 1 } : World).Made last) :
    w.Made { last with result := w.result, scripts := last.scripts - 1 } where
  ext := ⟨made.ext.grows,made.ext.same⟩
  frame := congrArg (fun last : World => { last with result := w.result, scripts := last.scripts - 1 }) made.frame

theorem made_alloc (w : World) (o : Obj) : w.Made (w.alloc o).2 := ⟨extends_alloc w o,rfl⟩

theorem made_error (w : World) (kind : ErrorKind) (text : String) : w.Made (w.makeError kind text).2 := made_alloc w _

end World

variable {w last : World} {c : Context} {f : Func}

theorem M.bind_of_thrown {α β : Type} {m : M α} {k : α → M β} {t : Thrown} (thrown : m w = .thrown t last) :
    (m >>= k) w = .thrown t last := by
  show M.bind m k w = _
  unfold M.bind
  rw [thrown]

theorem outcome_of_thrown {α : Type} {m : M α} {t : Thrown} (thrown : m w = .thrown t last) :
    outcome m w = .ok (.error t) last := by
  unfold outcome
  rw [thrown]
  rfl

/-- An object is made, or there is no room for it. -/
theorem allocate_made (o : Obj) (w : World) :
    allocate o w = .ok (.obj w.heap.size) (w.alloc o).2 ∨
    ∃ e last, allocate o w = .thrown (.value e) last ∧ w.Made last := by
  unfold allocate
  split
  · exact .inr ⟨_,_,rfl,w.made_error _ _⟩
  · exact .inl rfl

/-- A function gets an object for what it may be the constructor of. -/
def giveConstructed (v : Value) : M Value := do
  match v with
  | .obj id =>
    let p ← allocate
      { proto := .obj Intrinsic.object.id, props := Table.insert {} (.text "constructor") (.data v .hidden) }
    changeObject id (·.put (.text "prototype") (.data p ⟨true,false,false⟩))
    return v
  | v => return v

/-- A function is made with what it needs, or there is no room for it. -/
theorem makeFunction_made (name : String) (home : Option Nat) (plain : f.info.kind = .plain)
    (sync : f.info.isAsync = false) (single : f.info.isGenerator = false) (w : World) :
    (∃ last, makeFunction c f name home w = .ok (.obj w.heap.size) last ∧ w.Made last ∧ (last.obj w.heap.size).kind =
      .closure { func := f, scope := c.scope, activation := c.activation, home, hoisted := hoistedOf f.body }) ∨
    ∃ e last, makeFunction c f name home w = .thrown (.value e) last ∧ w.Made last := by
  let counted : World := { w with captures := w.captures + 1 }
  have began : w.Made counted := ⟨⟨Nat.le_refl _,fun _ _ => rfl⟩,rfl⟩
  let function : Obj :=
    { proto := .obj (functionPrototype f.info).id
      props := functionTable (expectedArguments f.params) name
      kind := .closure
        { func := f, scope := c.scope, activation := c.activation, home, hoisted := hoistedOf f.body } }
  let prototype : Obj :=
    { proto := .obj Intrinsic.object.id
      props := Table.insert {} (.text "constructor") (.data (.obj w.heap.size) .hidden) }
  have run : makeFunction c f name home w = (allocate function >>= giveConstructed) counted := by
    unfold makeFunction
    simp only [single,plain,sync,Bool.false_eq_true,if_false,Bool.not_false,decide_true,Bool.and_self,if_true]
    rfl
  rw [run]
  rcases allocate_made function counted with made | ⟨e,last,full,made⟩
  · rw [M.bind_of_ok made]
    have grown := began.trans (World.made_alloc counted function)
    rcases allocate_made prototype (counted.alloc function).2 with made' | ⟨e,last,full,made'⟩
    · left
      have inside : w.heap.size < (counted.alloc function).2.heap.size := by
        rw [World.size_alloc]
        exact Nat.lt_succ_self _
      refine ⟨_,M.bind_of_ok made',?_,?_⟩
      · exact (grown.trans (World.made_alloc _ prototype)).setObj (Nat.le_refl _) (World.inside_alloc prototype inside)
      · rw [World.obj_setObj _ _ _ _ (World.inside_alloc prototype inside),if_pos rfl]
        refine put_closure ?_ _ _
        rw [World.obj_alloc _ _ inside]
        exact congrArg Obj.kind (World.obj_alloc_new counted function)
    · exact .inr ⟨e,last,M.bind_of_thrown full,grown.trans made'⟩
  · exact .inr ⟨e,last,M.bind_of_thrown full,began.trans made⟩

/-- Where a script runs. -/
def scriptContext : Context := { scope := globalScope, activation := 0, strict := false, keeps := true }

theorem alterAt_same {α : Type} (xs : Array α) (i : Nat) : alterAt xs i (fun x => x) = xs := by
  unfold alterAt
  refine Array.ext (by simp) fun j _ _ => ?_
  rw [Array.getElem_modify]
  split
  · next here => subst here; rfl
  · rfl

section Script

variable {e : Expr} {m : Nat} {v : Value} {t : Thrown}

theorem statement_ok (ok : perform (m + 1) scriptContext (.expr e) w = .ok v last) :
    perform (m + 4) scriptContext (.stmts [.expr (.paren e)]) w = .ok .next { last with result := v } := by
  have one : perform (m + 3) scriptContext (.stmt (.expr (.paren e)) []) w = .ok .next { last with result := v } :=
    M.bind_of_ok (m := perform (m + 2) scriptContext (.expr (.paren e))) ok
  exact M.bind_of_ok one

theorem statement_thrown (thrown : perform (m + 1) scriptContext (.expr e) w = .thrown t last) :
    perform (m + 4) scriptContext (.stmts [.expr (.paren e)]) w = .thrown t last := by
  have one : perform (m + 3) scriptContext (.stmt (.expr (.paren e)) []) w = .thrown t last :=
    M.bind_of_thrown (m := perform (m + 2) scriptContext (.expr (.paren e))) thrown
  exact M.bind_of_thrown one

/-- A script without declarations runs with nothing done before, and the value of the script around it is put back. -/
theorem runSource_parenthesis (e : Expr) (w : World) : runSource ⟨[.expr (.paren e)],false,false,none⟩ false w =
    (do
      let r ← outcome (run scriptContext (.stmts [.expr (.paren e)]))
      let v ← look (·.result)
      change fun last => { last with result := w.result, scripts := last.scripts - 1 }
      match r with
      | .ok _ => return v
      | .error t => raise t : M Value) { w with result := .undefined, scripts := w.scripts + 1 } := by
  have lexical : blockVars [.expr (.paren e)] = [] := rfl
  have hoisted : hoistedOf [.expr (.paren e)] = ⟨[],[]⟩ := rfl
  have entered : { w with
      scopes := alterAt w.scopes globalScope fun s => s, result := .undefined, scripts := w.scripts + 1 } =
      { w with result := .undefined, scripts := w.scripts + 1 } := by rw [alterAt_same]
  unfold runSource
  simp only [lexical,hoisted]
  exact congrArg (outcome (run scriptContext (.stmts [.expr (.paren e)])) >>= _) entered

/-- A script that is a function in a parenthesis: the function is made, and that is all; or there is no room for it. -/
theorem runSource_function (nameless : f.name = none) (plain : f.info.kind = .plain) (sync : f.info.isAsync = false)
    (single : f.info.isGenerator = false) (w : World) :
    (∃ last, runSource ⟨[.expr (.paren (.func f))],false,false,none⟩ false w = .ok (.obj w.heap.size) last ∧ w.Made last ∧
      (last.obj w.heap.size).kind =
        .closure { func := f, scope := globalScope, activation := 0, home := none, hoisted := hoistedOf f.body }) ∨
    ∃ e last, runSource ⟨[.expr (.paren (.func f))],false,false,none⟩ false w = .thrown (.value e) last ∧ w.Made last := by
  obtain ⟨m,same⟩ : ∃ m, endless = m + 4 := ⟨endless - 4,rfl⟩
  let inside : World := { w with result := .undefined, scripts := w.scripts + 1 }
  have made : perform (m + 1) scriptContext (.expr (.func f)) inside = makeFunction scriptContext f "" none inside := by
    show evalFunction scriptContext f inside = _
    unfold evalFunction
    rw [nameless]
  rw [runSource_parenthesis]
  unfold run
  rw [same]
  rcases makeFunction_made (c := scriptContext) "" none plain sync single inside with
    ⟨last,run,grown,closure⟩ | ⟨e,last,full,grown⟩
  · left
    rw [← made] at run
    have ended := outcome_of_ok (statement_ok run)
    exact ⟨_,M.bind_of_ok ended,grown.restored,closure⟩
  · right
    rw [← made] at full
    have ended := outcome_of_thrown (statement_thrown full)
    exact ⟨e,_,M.bind_of_ok ended,grown.restored⟩

/-- Where this text is evaluated the function is made and nothing else is done, if there is anything done at all: the
text may be refused, or there may be no room for the function. -/
def OnlyMakes (text : String) (f : Func) : Prop := ∀ w,
  (∃ last, Builtin.runText text false w = .ok (.obj w.heap.size) last ∧ w.Made last ∧
    (last.obj w.heap.size).kind =
      .closure { func := f, scope := globalScope, activation := 0, home := none, hoisted := hoistedOf f.body }) ∨
  ∃ e last, Builtin.runText text false w = .thrown (.value e) last ∧ w.Made last

theorem onlyMakes_of_read {text : String} (nameless : f.name = none) (plain : f.info.kind = .plain)
    (sync : f.info.isAsync = false) (single : f.info.isGenerator = false)
    (read : Script.Source.read text.toList.toArray false false = .ok ⟨[.expr (.paren (.func f))],false,false,none⟩) :
    OnlyMakes text f := by
  intro w
  unfold Builtin.runText
  rw [read]
  dsimp only
  cases Script.Early.offence ⟨[.expr (.paren (.func f))],false,false,none⟩ with
  | some complaint => exact .inr ⟨_,_,rfl,w.made_error _ _⟩
  | none => exact runSource_function nameless plain sync single w

end Script

end ScriptHost.Engine
