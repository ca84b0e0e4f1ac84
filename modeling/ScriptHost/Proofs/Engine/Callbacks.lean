import Mathlib.Logic.Function.Basic
import ScriptHost.Proofs.Engine.Bookkeeping
/-!
The functions that a value to be followed is handed. Each of them notes in the state object what it is told, and that
is all: a call of one asks nothing and leaves everything else as it was. Neither looks whether the other one, or itself,
was called before, so that what the state object says depends on all calls so far (`State.hear`).
-/
namespace ScriptHost.Engine
open Script (Expr Stmt Func)

/-! ### Their texts -/

/-- `state.name = e;` -/
def noting (name : String) (e : Expr) : Stmt := .expr (.assign "=" (.expr (.dot (.ident "state") name .plain)) e)

/-- The name of what a callback is told. -/
def callbackParam (rejects : Bool) : String := if rejects then "error" else "result"

/-- What a callback notes besides what it is told. -/
def callbackMarks (rejects : Bool) : List String := if rejects then ["rejected","done"] else ["done"]

/-- The statements of a callback. -/
def callbackBody (rejects : Bool) : List Stmt :=
  noting (callbackParam rejects) (.ident (callbackParam rejects)) ::
    (callbackMarks rejects).map fun name => noting name (.bool true)

/-- The text of a callback. -/
def callbackText (rejects : Bool) : String :=
  if rejects then "function (error) \x7b state.error = error; state.rejected = true; state.done = true; \x7d"
  else "function (result) \x7b state.result = result; state.done = true; \x7d"

/-- The function that a callback is. -/
def callbackFunc (rejects : Bool) : Func :=
  .mk none [.name (callbackParam rejects)] (callbackBody rejects) { text := callbackText rejects }

/-- The function that a callback is, as it is made where `state` is a variable. -/
def callbackClosure (rejects : Bool) (scope activation : Nat) : Closure where
  func := callbackFunc rejects
  scope := scope
  activation := activation
  home := none
  hoisted := hoistedOf (callbackBody rejects)

/-! ### The text that they come from -/

/-- The parameter of a function of one parameter, what it notes in order, and its text, if there is nothing else to it. -/
def notesOf? (r : Except Script.Fault Script.Source) : Option (String × List (String × Option String) × String) :=
  match r with
  | .ok ⟨[.expr (.paren (.func (.mk none [.name param] body info)))],false,false,none⟩ =>
    if info = { text := info.text } then
      (body.mapM noted?).map (param,·,info.text)
    else none
  | _ => none
where
  /-- What is noted, unless it is that something is so. -/
  noted? : Stmt → Option (String × Option String)
    | .expr (.assign op (.expr (.dot (.ident object) name .plain)) e) =>
      if op = "=" ∧ object = "state" then
        match e with
        | .ident x => some (name,some x)
        | .bool true => some (name,none)
        | _ => none
      else none
    | _ => none

/-- The statement that notes this. -/
def notingOf (note : String × Option String) : Stmt := noting note.1 (match note.2 with
  | some x => .ident x
  | none => .bool true)

theorem eq_of_noted {s : Stmt} {note : String × Option String} (noted : notesOf?.noted? s = some note) :
    s = notingOf note := by
  unfold notesOf?.noted? at noted
  split at noted
  · next op object name e =>
    split at noted
    · next same =>
      obtain ⟨rfl,rfl⟩ := same
      split at noted <;> cases noted <;> rfl
    · cases noted
  · cases noted

theorem eq_of_mapM {body : List Stmt} {notes : List (String × Option String)}
    (all : body.mapM notesOf?.noted? = some notes) : body = notes.map notingOf := by
  induction body generalizing notes with
  | nil =>
    cases all
    rfl
  | cons s body ih =>
    rw [List.mapM_cons] at all
    obtain ⟨note,noted,others⟩ := Option.bind_eq_some_iff.mp all
    obtain ⟨rest,tail,same⟩ := Option.bind_eq_some_iff.mp others
    obtain rfl : note :: rest = notes := Option.some.inj same
    exact congrArg₂ List.cons (eq_of_noted noted) (ih tail)

theorem read_of_notes {r : Except Script.Fault Script.Source} {param text : String} {notes : List (String × Option String)}
    (found : notesOf? r = some (param,notes,text)) :
    r = .ok ⟨[.expr (.paren (.func (.mk none [.name param] (notes.map notingOf) { text })))],false,false,none⟩ := by
  unfold notesOf? at found
  split at found
  · next param body info =>
    split at found
    · next plain =>
      obtain ⟨notes,all,same⟩ := Option.map_eq_some_iff.mp found
      cases same
      rw [← eq_of_mapM all,← plain]
    · cases found
  · cases found

/-- The text of a callback, read as an expression, is the function that it is. -/
theorem read_callbackText (rejects : Bool) :
    Script.Source.read ("(" ++ callbackText rejects ++ ")").toList.toArray false false =
      .ok ⟨[.expr (.paren (.func (callbackFunc rejects)))],false,false,none⟩ := by
  cases rejects with
  | false =>
    have found : notesOf? (Script.Source.read ("(" ++ callbackText false ++ ")").toList.toArray false false) =
        some ("result",[("result",some "result"),("done",none)],callbackText false) := by decide +kernel
    exact read_of_notes found
  | true =>
    have found : notesOf? (Script.Source.read ("(" ++ callbackText true ++ ")").toList.toArray false false) =
        some ("error",[("error",some "error"),("rejected",none),("done",none)],callbackText true) := by decide +kernel
    exact read_of_notes found

/-- The callbacks are part of the text of the function that hands a value on. -/
theorem handlerText_eq : handlerText =
    "(function (state) \x7b\n" ++
    "  var value = state.value;\n" ++
    "  var thenable = value !== null\n" ++
    "    && (typeof value === 'object' || typeof value === 'function')\n" ++
    "    && typeof value.then === 'function';\n" ++
    "  if (thenable) \x7b\n" ++
    "    value.then(\n" ++
    "      " ++ callbackText false ++ ",\n" ++
    "      " ++ callbackText true ++ "\n" ++
    "    );\n" ++
    "  \x7d else if (value instanceof Error) \x7b\n" ++
    "    state.error = value;\n" ++
    "    state.rejected = true;\n" ++
    "    state.done = true;\n" ++
    "  \x7d else \x7b\n" ++
    "    state.result = value;\n" ++
    "    state.done = true;\n" ++
    "  \x7d\n" ++
    "\x7d)" := by decide +kernel

/-! ### Their making -/

section
variable {w last : World} {answers : List Answer} {v : Value} {rejects : Bool} {c : Context} {m : Nat}

theorem ends_allocate {o : Obj} (ends : (allocate o w).Ends answers (.ok v) last) :
    v = .obj w.heap.size ∧ last = (w.alloc o).2 := by
  unfold allocate at ends
  split at ends <;> cases ends
  exact ⟨rfl,rfl⟩

theorem put_closure {o : Obj} {k : Closure} (closure : o.kind = .closure k) (key : Key) (s : Slot) :
    (o.put key s).kind = .closure k := by
  obtain ⟨proto,props,extensible,kind⟩ := o
  cases closure
  rfl

/-- What is put into an object for the further one that it leads to does not make it another function. -/
theorem ends_leading {o : Obj} {id : Nat} {k : Closure} {key : Key} {rights : Rights} {u : Value} (inside : id < w.heap.size)
    (closure : (w.obj id).kind = .closure k)
    (ends : ((do let p ← allocate o; changeObject id (·.put key (.data p rights)); return u : M Value) w).Ends answers
      (.ok v) last) : v = u ∧ (last.obj id).kind = .closure k := by
  obtain ⟨first,rest,p,middle,rfl,allocated,ends⟩ := ends_bind_ok ends
  obtain ⟨rfl,rfl⟩ := ends_allocate allocated
  cases ends
  refine ⟨rfl,?_⟩
  rw [World.obj_setObj _ _ _ _ (World.inside_alloc o inside),if_pos rfl]
  refine put_closure ?_ _ _
  rwa [World.obj_alloc _ _ inside]

/-- A function that is made is a closure over where it is made. -/
theorem ends_makeFunction {f : Func} {name : String} {home : Option Nat}
    (ends : (makeFunction c f name home w).Ends answers (.ok v) last) :
    ∃ id, v = .obj id ∧ (last.obj id).kind =
      .closure { func := f, scope := c.scope, activation := c.activation, home, hoisted := hoistedOf f.body } := by
  unfold makeFunction at ends
  obtain ⟨_,back,ends⟩ := ends_then ends
  obtain ⟨first,rest,u,middle,rfl,allocated,ends⟩ := ends_bind_ok ends
  obtain ⟨rfl,rfl⟩ := ends_allocate allocated
  have inside : ∀ {o : Obj}, back.heap.size < (back.alloc o).2.heap.size := fun {o} =>
    Nat.lt_of_lt_of_eq (Nat.lt_succ_self _) (World.size_alloc back o).symm
  dsimp only at ends
  split at ends
  · obtain ⟨rfl,kind⟩ := ends_leading inside (by rw [World.obj_alloc_new]) ends
    exact ⟨_,rfl,kind⟩
  · split at ends
    · obtain ⟨rfl,kind⟩ := ends_leading inside (by rw [World.obj_alloc_new]) ends
      exact ⟨_,rfl,kind⟩
    · cases ends
      exact ⟨_,rfl,by rw [World.obj_alloc_new]⟩

/-- Where its text is evaluated, a callback is made. -/
theorem ends_callback (ends : (perform (m+1) c (.expr (.func (callbackFunc rejects))) w).Ends answers (.ok v) last) :
    ∃ id, v = .obj id ∧ (last.obj id).kind = .closure (callbackClosure rejects c.scope c.activation) :=
  ends_makeFunction (f := callbackFunc rejects) ends

end

/-! ### What they note -/

/-- A call of one of the callbacks. -/
structure Told where
  rejects : Bool
  value : Value

/-- What a call notes, in order. -/
def Told.notes (t : Told) : List (String × Value) :=
  (callbackParam t.rejects,t.value) :: (callbackMarks t.rejects).map (·,.bool true)

/-- The names of a state object that callbacks write to. -/
def stateNames : List String := ["result","error","rejected","done"]

/-- What a state object says under its names. -/
abbrev State := String → Value

namespace State

/-- Nothing was said. -/
def blank : State := fun name => if name = "rejected" ∨ name = "done" then .bool false else .undefined

/-- Something else is said under these names, one after another. -/
def noted (s : State) (notes : List (String × Value)) : State :=
  notes.foldl (fun s note => Function.update s note.1 note.2) s

/-- What is said after these calls, the last one first. -/
def hear (s : State) : List Told → State
  | [] => s
  | t :: ts => (s.hear ts).noted t.notes

/-- A state object says that it is done once it was told anything, and that it is rejected once it was told so by any
    call; what it was told is what it was told last. -/
theorem hear_blank (told : List Told) :
    blank.hear told "done" = .bool !told.isEmpty ∧
    blank.hear told "rejected" = .bool (told.any (·.rejects)) ∧
    blank.hear told "error" = ((told.find? (·.rejects)).map (·.value)).getD .undefined ∧
    blank.hear told "result" = ((told.find? (!·.rejects)).map (·.value)).getD .undefined := by
  induction told with
  | nil => exact ⟨rfl,rfl,rfl,rfl⟩
  | cons t ts ih =>
    obtain ⟨-,rejected,error,result⟩ := ih
    obtain ⟨rejects,v⟩ := t
    cases rejects <;>
      simp [hear,noted,Told.notes,callbackParam,callbackMarks,Function.update,rejected,error,result]

end State

/-! ### Properties of plain objects -/

namespace World
variable {w : World} {id : Nat} {name : String} {v old : Value} {notes : List (String × Value)}

/-- An object is given these properties, one after another. -/
def noted (w : World) (id : Nat) (notes : List (String × Value)) : World :=
  notes.foldl (fun w note => w.setObj id (·.put (.text note.1) (.data note.2 .full))) w

/-- The object says this under the names that callbacks write to. -/
structure Says (w : World) (id : Nat) (s : State) : Prop where
  inside : id < w.heap.size
  plain : (w.obj id).kind = .plain
  own : ∀ name ∈ stateNames, (w.obj id).own? (.text name) = some (.data (s name) .full)

/-- The object says something else under one name. -/
theorem Says.put {s : State} (stated : w.Says id s) (name : String) (v : Value) :
    (w.setObj id (·.put (.text name) (.data v .full))).Says id (Function.update s name v) := by
  have here := obj_setObj w id id (·.put (.text name) (.data v .full)) stated.inside
  rw [if_pos rfl,put_plain stated.plain] at here
  refine ⟨size_setObj w _ _ ▸ stated.inside,here ▸ stated.plain,fun other member => ?_⟩
  rw [here,own_props stated.plain,Table.find_insert]
  by_cases same : other = name
  · subst same
    rw [if_pos rfl,Function.update_self]
  · rw [if_neg (by simpa using same),Function.update_of_ne same,← own_plain stated.plain]
    exact stated.own other member

theorem Says.noted {s : State} (stated : w.Says id s) (notes : List (String × Value)) :
    (w.noted id notes).Says id (s.noted notes) := by
  induction notes generalizing w s with
  | nil => exact stated
  | cons note notes ih => exact ih (stated.put note.1 note.2)

theorem Says.alloc {s : State} (stated : w.Says id s) (o : Obj) : (w.alloc o).2.Says id s := by
  have same := obj_alloc w o stated.inside
  exact ⟨inside_alloc o stated.inside,same ▸ stated.plain,same ▸ stated.own⟩

/-- Only the object changes. -/
theorem noted_eq (w : World) (id : Nat) (notes : List (String × Value)) :
    w.noted id notes = { w with heap := (w.noted id notes).heap } := by
  induction notes generalizing w with
  | nil => rfl
  | cons note notes ih => exact ih (w.setObj id (·.put (.text note.1) (.data note.2 .full)))

/-- What is noted does not depend on scopes and activations. -/
theorem heap_noted (w : World) (id : Nat) (notes : List (String × Value)) (scopes : Array Scope)
    (activations : Array Activation) : (noted { w with scopes, activations } id notes).heap = (w.noted id notes).heap := by
  induction notes generalizing w with
  | nil => rfl
  | cons note notes ih => exact ih (w.setObj id (·.put (.text note.1) (.data note.2 .full)))

theorem obj_noted {other : Nat} (inside : id < w.heap.size) (apart : other ≠ id) (notes : List (String × Value)) :
    (w.noted id notes).obj other = w.obj other := by
  induction notes generalizing w with
  | nil => rfl
  | cons note notes ih =>
    refine (ih (size_setObj w _ _ ▸ inside)).trans ?_
    rw [obj_setObj w _ _ _ inside,if_neg apart]

end World

section
variable {w : World} {id : Nat} {name : String} {v old : Value}

/-- What an object has of its own is read without a question. -/
theorem getId_own {k : Key} (plain : (w.obj id).kind = .plain) (own : (w.obj id).own? k = some (.data v .full)) :
    getId id k w = .ok v w := by
  obtain ⟨n,same⟩ := World.reach_succ
  have own : w.own? id k = some (.data v .full) := by simp [World.own?,plain,own]
  have found : w.find k (n+1) id = .value v := by simp only [World.find,plain,own]
  unfold getId
  rw [same]
  simp only [getOn,M.bind_apply,look,Tree.bind,same,found]
  rfl

/-- What an object has of its own is written without a question. -/
theorem setOf_own (plain : (w.obj id).kind = .plain) (own : (w.obj id).own? (.text name) = some (.data old .full))
    (v : Value) (strict : Bool) :
    setOf (.obj id) (.text name) v strict w = .ok () (w.setObj id (·.put (.text name) (.data v .full))) := by
  obtain ⟨n,same⟩ := World.reach_succ
  have target : w.findTarget (.text name) id reach id = .own := by
    rw [same]
    simp [World.findTarget,plain,own,Rights.full]
  have set := setOn_own target plain own v n
  rw [← same] at set
  unfold setOf
  exact M.bind_of_ok set

end

/-! ### Calls -/

/-- A state object, the scope in which it is a variable, and the callbacks. -/
structure Listener where
  object : Nat
  scope : Nat
  callback : Bool → Nat

namespace Listener

section
variable {l : Listener} {w : World} {c : Context} {rejects : Bool} {name param : String} {v x : Value} {s : State}

/-- The state object is a variable of its scope. -/
def Binds (l : Listener) (w : World) : Prop := ∃ s i b, w.scopes[l.scope]? = some s ∧
  placeOf s.vars "state" s.vars.size 0 = some i ∧ s.vars[i]? = some b ∧ b.value = .obj l.object

/-- The callbacks are there, and lead to the state object. -/
structure Ready (l : Listener) (w : World) : Prop where
  closure : ∀ rejects, ∃ activation, (w.obj (l.callback rejects)).kind = .closure (callbackClosure rejects l.scope activation)
  binds : l.Binds w

/-- A callback runs in the scope of its parameter. -/
structure Runs (l : Listener) (c : Context) (param : String) (v : Value) (w : World) : Prop where
  sloppy : c.strict = false
  silent : c.keeps = false
  own : ∃ activation, w.scopes[c.scope]? = some ⟨#[⟨param,v,.var⟩],some l.scope,.function activation [param] false⟩
  binds : l.Binds w

/-- The parameter of a callback is a variable. -/
theorem Runs.lookup_param (runs : l.Runs c param v w) (there : v ≠ .absent) : lookupVar c param w = .ok v w := by
  obtain ⟨activation,own⟩ := runs.own
  obtain ⟨n,same⟩ := World.reach_succ
  have spot : w.spot param (n+1) c.scope = .slot c.scope 0 := by
    simp [World.spot,own,placeOf]
  have bound : (w.binding c.scope 0).value = v := by simp [World.binding,own]
  unfold lookupVar
  rw [same]
  simp only [lookupFrom,M.bind_apply,look,Tree.bind,same,spot,bound]
  cases v <;> first | exact absurd rfl there | rfl

/-- The state object is a variable outside of a callback. -/
theorem Runs.lookup_state (runs : l.Runs c param v w) (other : param ≠ "state") :
    lookupVar c "state" w = .ok (.obj l.object) w := by
  obtain ⟨activation,own⟩ := runs.own
  obtain ⟨s,i,b,outer,place,there,object⟩ := runs.binds
  obtain ⟨n,same⟩ : ∃ n, reach = n+1+1 := ⟨99998,rfl⟩
  have spot : w.spot "state" (n+1+1) c.scope = .slot l.scope i := by
    simp [World.spot,own,placeOf,other,outer,place]
  have bound : (w.binding l.scope i).value = .obj l.object := by
    simp [World.binding,outer,there,object]
  unfold lookupVar
  rw [same]
  simp only [lookupFrom,M.bind_apply,look,Tree.bind,same,spot,bound]
  rfl

theorem ofText_stateNames : ∀ name ∈ stateNames, Key.ofText name = .text name := by decide

/-- A statement of a callback notes one thing. -/
theorem Runs.perform_noting (runs : l.Runs c param v w) (other : param ≠ "state") (stated : w.Says l.object s)
    (own : name ∈ stateNames) {e : Expr} {m : Nat} (value : perform (m+1) c (.expr e) w = .ok x w) :
    perform (m+3) c (.stmt (noting name e) []) w =
      .ok .next (w.setObj l.object (·.put (.text name) (.data x .full))) := by
  have base : perform (m+1) c (.expr (.ident "state")) w = .ok (.obj l.object) w := runs.lookup_state other
  have place : placeOfExpr (perform (m+1)) c (.dot (.ident "state") name .plain) w =
      .ok (.member (.obj l.object) (.text name)) w := by
    refine (M.bind_of_ok base).trans ?_
    rw [ofText_stateNames name own]
    rfl
  have written : (Place.member (.obj l.object) (.text name)).write c x w =
      .ok () (w.setObj l.object (·.put (.text name) (.data x .full))) :=
    setOf_own stated.plain (stated.own name own) x c.strict
  have assigned : perform (m+2) c (.expr (.assign "=" (.expr (.dot (.ident "state") name .plain)) e)) w =
      .ok x (w.setObj l.object (·.put (.text name) (.data x .full))) := by
    show (placeOfExpr (perform (m+1)) c (.dot (.ident "state") name .plain) >>= _) w = _
    rw [M.bind_of_ok place]
    show (perform (m+1) c (.expr e) >>= _) w = _
    rw [M.bind_of_ok value]
    exact M.bind_of_ok written
  refine (M.bind_of_ok assigned).trans ?_
  unfold keep
  rw [runs.silent]
  rfl

/-- What is noted in an object does not concern the scopes. -/
theorem Runs.noted (runs : l.Runs c param v w) (f : Obj → Obj) : l.Runs c param v (w.setObj l.object f) :=
  ⟨runs.sloppy,runs.silent,runs.own,runs.binds⟩

/-- The marks of a callback are made one after another. -/
theorem Runs.evalStmts_marks (runs : l.Runs c param v w) (other : param ≠ "state") (stated : w.Says l.object s)
    {marks : List String} (own : ∀ name ∈ marks, name ∈ stateNames) (m : Nat) :
    evalStmts (perform (m+3)) c (marks.map fun name => noting name (.bool true)) w =
      .ok .next (w.noted l.object (marks.map (·,.bool true))) := by
  induction marks generalizing w s with
  | nil => rfl
  | cons name marks ih =>
    have noted := runs.perform_noting other stated (own name List.mem_cons_self) (e := .bool true) (m := m) rfl
    refine (M.bind_of_ok noted).trans ?_
    exact ih (runs.noted _) (stated.put name _) fun name member => own name (List.mem_cons_of_mem _ member)

theorem param_mem (rejects : Bool) : callbackParam rejects ∈ stateNames := by cases rejects <;> decide

theorem param_ne (rejects : Bool) : callbackParam rejects ≠ "state" := by cases rejects <;> decide

theorem marks_mem (rejects : Bool) : ∀ name ∈ callbackMarks rejects, name ∈ stateNames := by cases rejects <;> decide

/-- The body of a callback notes what it is told. -/
theorem Runs.runBody (runs : l.Runs c (callbackParam rejects) v w) (there : v ≠ .absent) (stated : w.Says l.object s) :
    runBody c (callbackBody rejects) false w = .ok .undefined (w.noted l.object (Told.notes ⟨rejects,v⟩)) := by
  obtain ⟨m,same⟩ : ∃ m, endless = m+4 := ⟨endless-4,rfl⟩
  have param : perform (m+1) c (.expr (.ident (callbackParam rejects))) w = .ok v w := runs.lookup_param there
  have noted := runs.perform_noting (param_ne rejects) stated (param_mem rejects) param
  have marks := (runs.noted (·.put (.text (callbackParam rejects)) (.data v .full))).evalStmts_marks (param_ne rejects)
    (stated.put (callbackParam rejects) v) (marks_mem rejects) m
  have body : run c (.stmts (callbackBody rejects)) w = .ok .next (w.noted l.object (Told.notes ⟨rejects,v⟩)) := by
    unfold run
    rw [same]
    exact (M.bind_of_ok noted).trans marks
  unfold Engine.runBody
  exact M.bind_of_ok body

end

section
variable {l : Listener} {w back last : World} {rejects : Bool} {scope activation n : Nat} {v f this this' : Value} {s : State}
  {args : Array Value}

/-- What a callback is told. -/
def argument (args : Array Value) : Value := args.toList.headD .undefined

/-- The scope of the parameter of a callback. -/
def paramScope (rejects : Bool) (scope n : Nat) (args : Array Value) : Scope :=
  ⟨#[⟨callbackParam rejects,argument args,.var⟩],some scope,.function n [callbackParam rejects] false⟩

/-- Where the body of a callback runs. -/
def bodyContext (scope activation : Nat) : Context := { scope, activation, strict := false }

theorem runCall_callback (w : World) (rejects : Bool) (scope activation n : Nat) (f : Value) (args : Array Value) :
    runCall (callbackClosure rejects scope activation) n f args w =
      runBody (bodyContext w.scopes.size n) (callbackBody rejects) false
        { w with scopes := w.scopes.push (paramScope rejects scope n args) } := by
  have entered : enterFunction (callbackClosure rejects scope activation) n args w = .ok (bodyContext w.scopes.size n)
      { w with scopes := w.scopes.push (paramScope rejects scope n args) } := by cases rejects <;> rfl
  have ran : runCall (callbackClosure rejects scope activation) n f args w =
      (enterFunction (callbackClosure rejects scope activation) n args >>= fun c =>
        runBody c (callbackBody rejects) false) w := by cases rejects <;> rfl
  rw [ran,M.bind_of_ok entered]

theorem callClosure_steps (rejects : Bool) (scope activation : Nat) (f this : Value) (args : Array Value) (w : World) :
    callClosure (callbackClosure rejects scope activation) f this args w =
      (thisFor (callbackClosure rejects scope activation) this >>= fun this =>
        newActivation ⟨this,f,.undefined,none,args⟩ >>= fun n =>
        runCall (callbackClosure rejects scope activation) n f args >>= fun v =>
        dropScopes w.scopes.size w.activations.size w.captures >>= fun _ => pure v) w := by
  cases rejects <;> rfl

theorem callClosure_callback (sees : thisFor (callbackClosure rejects scope activation) this w = .ok this' back)
    (ran : runBody (bodyContext back.scopes.size back.activations.size) (callbackBody rejects) false
      { back with
        scopes := back.scopes.push (paramScope rejects scope back.activations.size args)
        activations := back.activations.push ⟨this',f,.undefined,none,args⟩ } = .ok v last) :
    callClosure (callbackClosure rejects scope activation) f this args w =
      .ok v (if last.captures = w.captures then
        { last with scopes := last.scopes.shrink w.scopes.size, activations := last.activations.shrink w.activations.size }
        else last) := by
  have opened : newActivation ⟨this',f,.undefined,none,args⟩ back = .ok back.activations.size
      { back with activations := back.activations.push ⟨this',f,.undefined,none,args⟩ } := rfl
  have ended : runCall (callbackClosure rejects scope activation) back.activations.size f args
      { back with activations := back.activations.push ⟨this',f,.undefined,none,args⟩ } = .ok v last :=
    (runCall_callback _ rejects scope activation _ f args).trans ran
  rw [callClosure_steps,M.bind_of_ok sees,M.bind_of_ok opened,M.bind_of_ok ended]
  rfl

/-- What a function that is not strict sees as what it is called on is there already, or is made for the call. -/
theorem thisFor_callback (rejects : Bool) (scope activation : Nat) (this : Value) (w : World) :
    (∃ this' back, thisFor (callbackClosure rejects scope activation) this w = .ok this' back ∧
      (back = w ∨ ∃ o, back = (w.alloc o).2)) ∨
    ∃ t o, thisFor (callbackClosure rejects scope activation) this w = .thrown t (w.alloc o).2 := by
  have made : ∀ v p, prototypeOf v = some p →
      (∃ this' back, toObject v w = .ok this' back ∧ (back = w ∨ ∃ o, back = (w.alloc o).2)) ∨
      ∃ t o, toObject v w = .thrown t (w.alloc o).2 := by
    intro v p proto
    have same : toObject v w = allocate { proto := .obj p.id, kind := .box v } w := by
      cases v <;> cases proto <;> rfl
    rw [same]
    unfold allocate
    split
    · exact .inr ⟨_,_,rfl⟩
    · exact .inl ⟨_,_,rfl,.inr ⟨_,rfl⟩⟩
  cases rejects <;> cases this with
  | obj id | undefined | null | absent => exact .inl ⟨_,_,rfl,.inl rfl⟩
  | str x => exact made (.str x) .string rfl
  | num x => exact made (.num x) .number rfl
  | bool x => exact made (.bool x) .boolean rfl
  | sym x => exact made (.sym x) .symbol rfl
  | big x => exact made (.big x) .bigint rfl

theorem Binds.of_scopes (binds : l.Binds w) (same : back.scopes[l.scope]? = w.scopes[l.scope]?) : l.Binds back := by
  obtain ⟨s,i,b,outer,rest⟩ := binds
  exact ⟨s,i,b,same.trans outer,rest⟩

/-- The scope of a parameter is a further one. -/
theorem Binds.push (binds : l.Binds w) {x : Scope} (same : back.scopes = w.scopes.push x) : l.Binds back := by
  have ⟨s,i,b,outer,rest⟩ := binds
  have inside : l.scope < w.scopes.size := (Array.getElem?_eq_some_iff.mp outer).1
  refine binds.of_scopes ?_
  rw [same,Array.getElem?_push,if_neg (Nat.ne_of_lt inside)]

/-- A callback is called as the function that it is. -/
theorem callValue_callback (closure : (w.obj (l.callback rejects)).kind = .closure (callbackClosure rejects l.scope activation))
    (this : Value) (args : Array Value) : callValue (.obj (l.callback rejects)) this args w =
      callClosure (callbackClosure rejects l.scope activation) (.obj (l.callback rejects)) this args w := by
  refine (M.bind_of_ok (objectOf_eq (l.callback rejects) w)).trans ?_
  rw [closure]

/-- A call of a callback notes what it is told, once it sees what it is called on. -/
theorem Binds.call_of_sees (binds : l.Binds w) (stated : w.Says l.object s) (there : argument args ≠ .absent)
    (closure : (w.obj (l.callback rejects)).kind = .closure (callbackClosure rejects l.scope activation))
    (sees : thisFor (callbackClosure rejects l.scope activation) this w = .ok this' back)
    (same : back = w ∨ ∃ o, back = (w.alloc o).2) :
    callValue (.obj (l.callback rejects)) this args w =
      .ok .undefined (back.noted l.object (Told.notes ⟨rejects,argument args⟩)) := by
  have facts : back.scopes = w.scopes ∧ back.activations = w.activations ∧ back.captures = w.captures ∧
      back.Says l.object s := by
    rcases same with rfl | ⟨o,rfl⟩
    · exact ⟨rfl,rfl,rfl,stated⟩
    · exact ⟨rfl,rfl,rfl,stated.alloc o⟩
  obtain ⟨scopes,activations,captures,stated⟩ := facts
  -- the world that the body is run in
  let entered : World := { back with
    scopes := back.scopes.push (paramScope rejects l.scope back.activations.size args)
    activations := back.activations.push ⟨this',.obj (l.callback rejects),.undefined,none,args⟩ }
  have runs : l.Runs (bodyContext back.scopes.size back.activations.size) (callbackParam rejects) (argument args) entered :=
    ⟨rfl,rfl,⟨back.activations.size,Array.getElem?_push_size⟩,binds.push (congrArg (Array.push · _) scopes)⟩
  have stated : entered.Says l.object s := ⟨stated.inside,stated.plain,stated.own⟩
  have ran := runs.runBody there stated
  rw [callValue_callback closure,callClosure_callback sees ran,World.noted_eq entered,World.noted_eq back,
    World.heap_noted back,if_pos captures]
  simp [entered,← scopes,← activations]

/-- A call on nothing notes what it is told, and that is all. -/
theorem Ready.call_undefined (ready : l.Ready w) (stated : w.Says l.object s) (there : argument args ≠ .absent)
    (rejects : Bool) : callValue (.obj (l.callback rejects)) .undefined args w =
      .ok .undefined (w.noted l.object (Told.notes ⟨rejects,argument args⟩)) := by
  obtain ⟨activation,closure⟩ := ready.closure rejects
  have sees : thisFor (callbackClosure rejects l.scope activation) .undefined w = .ok (.obj Intrinsic.global.id) w := by
    cases rejects <;> rfl
  exact ready.binds.call_of_sees stated there closure sees (.inl rfl)

/-- A call of a callback notes what it is told, unless there is no room for what it is called on. -/
theorem Ready.call (ready : l.Ready w) (stated : w.Says l.object s) (there : argument args ≠ .absent) (rejects : Bool)
    (this : Value) :
    (∃ back, callValue (.obj (l.callback rejects)) this args w =
        .ok .undefined (back.noted l.object (Told.notes ⟨rejects,argument args⟩)) ∧ (back = w ∨ ∃ o, back = (w.alloc o).2)) ∨
    ∃ t o, callValue (.obj (l.callback rejects)) this args w = .thrown t (w.alloc o).2 := by
  obtain ⟨activation,closure⟩ := ready.closure rejects
  rcases thisFor_callback rejects l.scope activation this w with ⟨this',back,sees,same⟩ | ⟨t,o,thrown⟩
  · exact .inl ⟨back,ready.binds.call_of_sees stated there closure sees same,same⟩
  · refine .inr ⟨t,o,?_⟩
    rw [callValue_callback closure,callClosure_steps,M.bind_apply,thrown]
    rfl

end

end Listener

end ScriptHost.Engine
