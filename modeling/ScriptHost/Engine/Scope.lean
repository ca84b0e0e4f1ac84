import ScriptHost.Engine.Coroutine
import ScriptHost.Script.Names
/-!
Variables. A name is looked for in the scopes from the inside out; behind the outermost scope are the
properties of the global object. A variable without a value has not been declared yet.
-/

namespace ScriptHost.Engine

/-- Where a name leads to. -/
inductive Spot where
  | slot (scope i : Nat)
  /-- The object of a `with`; the name may be one of its properties. -/
  | object (id : Nat) (outer : Option Nat)
  /-- The arguments of a function, which nobody has asked for yet. -/
  | arguments (scope activation : Nat) (aliased : List String) (strict : Bool)
  | global

/-- The place of a name among variables, from a place on. -/
def placeOf (vars : Array Binding) (name : String) : Nat → Nat → Option Nat
  | 0, _ => none
  | n + 1, i =>
    match vars[i]? with
    | some b => if b.name == name then some i else placeOf vars name n (i + 1)
    | none => none

/-- Look for a name, from a scope outwards. -/
def World.spot (w : World) (name : String) : Nat → Nat → Spot
  | 0, _ => .global
  | n + 1, id =>
    match w.scopes[id]? with
    | none => .global
    | some s =>
      match placeOf s.vars name s.vars.size 0 with
      | some i => .slot id i
      | none =>
        let outer : Spot := match s.parent with
          | some p => w.spot name n p
          | none => .global
        match s.kind with
        | .plain => outer
        | .object o => .object o s.parent
        | .function activation aliased strict =>
          if name == "arguments" then .arguments id activation aliased strict else outer

/-- A further scope. -/
def newScope (parent : Nat) (kind : ScopeKind) (vars : Array Binding) : M Nat :=
  update fun w => (w.scopes.size, { w with scopes := w.scopes.push ⟨vars, some parent, kind⟩ })

/-- A scope with a further variable, unless it is there. -/
def Scope.declare (s : Scope) (name : String) (kind : BindKind) (v : Value) : Scope :=
  match placeOf s.vars name s.vars.size 0 with
  | some _ => s
  | none => { s with vars := s.vars.push ⟨name, v, kind⟩ }

/-- A scope in which a variable has its first value. -/
def Scope.start (s : Scope) (name : String) (v : Value) : Scope :=
  match placeOf s.vars name s.vars.size 0 with
  | some i => { s with vars := alterAt s.vars i fun b => { b with value := v } }
  | none => { s with vars := s.vars.push ⟨name, v, .let_⟩ }

/-- Declare a variable in a scope, unless it is there. -/
def declareIn (scope : Nat) (name : String) (kind : BindKind) (v : Value) : M Unit :=
  change fun w => { w with scopes := alterAt w.scopes scope (·.declare name kind v) }

/-- Give a variable of a scope its first value. -/
def initializeIn (scope : Nat) (name : String) (v : Value) : M Unit :=
  change fun w => { w with scopes := alterAt w.scopes scope (·.start name v) }

/-- Say that scopes are kept by something that outlives the call. -/
def keepScopes : M Unit := change fun w => { w with captures := w.captures + 1 }

/-- The variables that the elements of the arguments stand for: the last parameter of a name does, as
far as there are arguments. -/
def aliasSlots (s : Scope) (count : Nat) : List String → List (Option Nat)
  | [] => []
  | name :: names =>
    if count = 0 then []
    else
      (if names.contains name then none else placeOf s.vars name s.vars.size 0) ::
        aliasSlots s (count - 1) names

/-- The arguments of a function as an object. -/
def makeArguments (scope activation : Nat) (aliased : List String) (strict : Bool) : M Value := do
  let (a, s) ← look fun w => (w.activations.getD activation default, w.scopes.getD scope default)
  let props := (a.args.foldl (fun (t, i) v => (Table.insert t (.index i) (.data v .full), i + 1))
    (({} : Table), 0)).1
  let values ← getId Intrinsic.array.id (.text "values")
  let props := props.insert (.text "length") (.data (.ofNat a.args.size) .hidden)
  let props := props.insert WellKnown.iterator.key (.data values .hidden)
  let props ← if strict then do
      let f ← newNative (.function .thrower) 0 #[]
      pure (props.insert (.text "callee") (.accessor f f .frozen))
    else pure (props.insert (.text "callee") (.data a.func .hidden))
  let slots := (aliasSlots s a.args.size aliased).toArray
  unless slots.isEmpty do keepScopes
  allocate { proto := .obj Intrinsic.object.id, props, kind := .arguments scope slots }

/-- The object of a `with` has a property that it does not hide from the code. -/
def withHas (id : Nat) (name : String) : M Bool := do
  if !(← hasProperty id (.ofText name)) then return false
  match ← getId id WellKnown.unscopables.key with
  | .obj hidden => return !(← getId hidden (.ofText name)).truthy
  | _ => return true

/-- A name without a meaning. -/
def undefinedName {α : Type} (name : String) : M α :=
  throwNew .reference (name ++ " is not defined")

/-- A name that is used before its declaration. -/
def uninitialized {α : Type} (name : String) : M α :=
  throwNew .reference (name ++ " is not initialized")

/-- The value of a variable; nothing if the name has no meaning. -/
def lookupFrom (name : String) : Nat → Nat → M (Option Value)
  | 0, _ => pure none
  | n + 1, scope => do
    match ← look (·.spot name reach scope) with
    | .slot s i =>
      match ← look fun w => (w.binding s i).value with
      | .absent => uninitialized name
      | v => return some v
    | .object id outer =>
      if ← withHas id name then return some (← getId id (.ofText name))
      match outer with
      | some s => lookupFrom name n s
      | none => return none
    | .arguments s activation aliased strict => do
      let v ← makeArguments s activation aliased strict
      declareIn s name .var v
      return some v
    | .global =>
      let key := Key.ofText name
      match ← look (·.find key reach Intrinsic.global.id) with
      | .nothing => return none
      | .value v => return some v
      | _ => return some (← getId Intrinsic.global.id key)

/-- The value of a variable. -/
def lookupVar (c : Context) (name : String) : M Value := do
  match ← lookupFrom name reach c.scope with
  | some v => return v
  | none => undefinedName name

/-- Assign to a variable. -/
def assignFrom (strict : Bool) (name : String) (v : Value) : Nat → Nat → M Unit
  | 0, _ => pure ()
  | n + 1, scope => do
    match ← look (·.spot name reach scope) with
    | .slot s i => do
      let b ← look (·.binding s i)
      match b.kind, b.value with
      | .own, _ => if strict then throwType ("'" ++ name ++ "' is read-only") else return
      | _, .absent => uninitialized name
      | .const_, _ => throwType ("'" ++ name ++ "' is read-only")
      | _, _ => change (·.setVar s i v)
    | .object id outer =>
      if ← withHas id name then setOf (.obj id) (.ofText name) v strict
      else match outer with
        | some s => assignFrom strict name v n s
        | none => return
    | .arguments s _ _ _ => do declareIn s name .var v
    | .global =>
      let key := Key.ofText name
      if strict && !(← hasProperty Intrinsic.global.id key) then undefinedName name
      else setOf (.obj Intrinsic.global.id) key v strict

/-- Assign to a variable. -/
def assignVar (c : Context) (name : String) (v : Value) : M Unit :=
  assignFrom c.strict name v reach c.scope

/-- Take a variable away; whether it is gone. -/
def deleteFrom (name : String) : Nat → Nat → M Bool
  | 0, _ => pure false
  | n + 1, scope => do
    match ← look (·.spot name reach scope) with
    | .slot .. | .arguments .. => return false
    | .object id outer =>
      if ← withHas id name then deleteProperty id (.ofText name)
      else match outer with
        | some s => deleteFrom name n s
        | none => return true
    | .global => deleteProperty Intrinsic.global.id (.ofText name)

/-- The object that a call of a name is made on: that of a `with`, or none. -/
def withBase (name : String) : Nat → Nat → M Value
  | 0, _ => pure .undefined
  | n + 1, scope => do
    match ← look (·.spot name reach scope) with
    | .object id outer =>
      if ← withHas id name then return .obj id
      match outer with
      | some s => withBase name n s
      | none => return .undefined
    | _ => return .undefined

/-! ## Functions that scripts make -/

/-- What a function body declares. -/
def hoistedOf (body : List Script.Stmt) : Hoisted :=
  ⟨Script.varsOfBody body, Script.functionsOf body⟩

/-- The number of parameters in front of the first one with a value of its own. -/
def expectedArguments (params : List Script.Pattern) : Nat :=
  (params.takeWhile fun p => match p with
    | .orElse .. | .rest _ => false
    | .property (.orElse ..) => false
    | _ => true).length

/-- The prototype of functions of a kind. -/
def functionPrototype (info : Script.FuncInfo) : Intrinsic :=
  if info.isAsync then (if info.isGenerator then .asyncGeneratorFunction else .asyncFunction)
  else if info.isGenerator then .generatorFunction else .function

/-- A function of a script as an object. -/
def makeFunction (c : Context) (f : Script.Func) (name : String) (home : Option Nat) : M Value := do
  let info := f.info
  let closure : Closure :=
    { func := f, scope := c.scope, activation := c.activation, home, hoisted := hoistedOf f.body }
  change fun w => { w with captures := w.captures + 1 }
  let v ← allocate
    { proto := .obj (functionPrototype info).id
      props := functionTable (expectedArguments f.params) name
      kind := .closure closure }
  match v with
  | .obj id =>
    if info.isGenerator then
      let p ← allocate { proto := .obj (if info.isAsync then Intrinsic.asyncGenerator else .generator).id }
      changeObject id (·.put (.text "prototype") (.data p ⟨true, false, false⟩))
    else if info.kind = .plain && !info.isAsync then
      let p ← allocate
        { proto := .obj Intrinsic.object.id,
          props := Table.insert {} (.text "constructor") (.data v .hidden) }
      changeObject id (·.put (.text "prototype") (.data p ⟨true, false, false⟩))
    return v
  | v => return v

/-- Give a function a name. -/
def renameFunction (v : Value) (name : String) : M Unit := do
  match v with
  | .obj id => changeObject id (·.put (.text "name") (.data (.str name) .fixed))
  | _ => return

/-- The name that a function gets from the name of its property. -/
def keyName (k : Key) : M String := do
  match k with
  | .sym id =>
    match ← look fun w => w.symbols.getD id none with
    | some text => return "[" ++ text ++ "]"
    | none => return ""
  | .priv id =>
    return (← look fun w => w.symbols.getD id none).getD ""
  | k => return k.shown

end ScriptHost.Engine
