import ScriptHost.Engine.Operator
/-!
What the evaluator is asked, and how statements end. Its rules use one another through `Runs`: every
rule is given a way to do any task inside its own, and the knot is tied once (`Eval.perform`).
-/

namespace ScriptHost.Engine

open Script (Expr Stmt Pattern Item Func Element Link DeclKind Chunk)

/-- How a statement ends. -/
inductive Flow where
  | next
  | break_ (label : Option String)
  | continue_ (label : Option String)
  | return_ (v : Value)
  deriving Inhabited

/-- What is done with the names of a pattern. -/
inductive BindMode where
  /-- They are assigned to. -/
  | assign
  /-- They get their first value in the innermost scope. -/
  | declare
  deriving DecidableEq

/-- A task of the evaluator; the type says what comes of it. -/
inductive Task : Type → Type where
  | expr (e : Expr) : Task Value
  /-- A value with the object it was found on; nothing where an optional chain stops. -/
  | reference (e : Expr) : Task (Option (Value × Value))
  | stmt (s : Stmt) (labels : List String) : Task Flow
  | block (body : List Stmt) : Task Flow
  | stmts (body : List Stmt) : Task Flow
  | bind (mode : BindMode) (p : Pattern) (v : Value) : Task Unit
  | klass (c : Script.Class) (name : String) : Task Value

/-- A way to do every task. -/
abbrev Runs := {α : Type} → Context → Task α → M α

/-- What the call that is under way knows. -/
def activationOf (c : Context) : M Activation := look fun w => w.activations.getD c.activation default

/-- The value of `this`. -/
def thisOf (c : Context) : M Value := do
  match (← activationOf c).this with
  | .absent => throwNew .reference "this is not initialized"
  | v => return v

/-- Keep the value of a statement as that of the script. -/
def keep (c : Context) (v : Value) : M Unit :=
  if c.keeps then change fun w => { w with result := v } else pure ()

/-- The expression is a function or class without a name. -/
def isAnonymous : Expr → Bool
  | .func f => f.name.isNone
  | .klass k => k.name.isNone
  | _ => false

/-- The value of an expression; a function without a name gets one. -/
def evalNamed (run : Runs) (c : Context) (e : Expr) (name : String) : M Value :=
  match e with
  | .func f => if f.name.isNone then makeFunction c f name none else run c (.expr e)
  | .klass k => if k.name.isNone then run c (.klass k name) else run c (.expr e)
  | .paren e => evalNamed run c e name
  | e => run c (.expr e)

/-- The name of a member. -/
def memberKey (run : Runs) (c : Context) (computed : Bool) (key : Expr) : M Key := do
  if computed then toKey (← run c (.expr key))
  else match key with
    | .ident name => return .text name
    | .str value _ => return .ofText value
    | .num x _ => toKey (.num x)
    | .big n _ => return .ofText (toString n)
    | .privateName name => do
      match ← lookupVar c ("#" ++ name) with
      | .sym id => return .priv id
      | _ => throwNew .syntaxError ("undefined private field '#" ++ name ++ "'")
    | e => toKey (← run c (.expr e))

/-! ## Patterns -/

/-- The elements of an array pattern. -/
def bindElements (run : Runs) (c : Context) (mode : BindMode) (it : Iterator) :
    List Pattern → Bool → M Bool
  | [], ended => pure ended
  | p :: ps, ended => do
    match p with
    | .rest q => do
      let items ← if ended then pure #[] else it.collect endless #[]
      let v ← newArray items
      run c (.bind mode q v)
      return true
    | p => do
      let step ← if ended then pure none else it.step
      match step with
      | none => do
        if !(p matches .hole) then run c (.bind mode p .undefined)
        bindElements run c mode it ps true
      | some v => do
        if !(p matches .hole) then it.guarding (run c (.bind mode p v))
        bindElements run c mode it ps false

/-- Copy the properties of an object that show up in listings, some left out. -/
def copyProperties (source : Value) (left : List Key) (target : Nat) : M Unit := do
  if source.isNothing then return
  match ← toObject source with
  | .obj id => do
    (← ownKeys id).forM fun k => do
      if !left.contains k && (← ownProperty id k).any Slot.enumerable then
        let v ← getId id k
        createData target k v
  | _ => return

/-- The members of an object pattern. -/
def bindMembers (run : Runs) (c : Context) (mode : BindMode) (v : Value) :
    List Pattern → List Key → M Unit
  | [], _ => pure ()
  | p :: ps, seen => do
    match p with
    | .short name e => do
      let k := Key.ofText name
      let x ← getOf v k
      let x ← if (x matches .undefined) && !e.isAbsent then evalNamed run c e name else pure x
      run c (.bind mode (.name name) x)
      bindMembers run c mode v ps (k :: seen)
    | .pair computed key q => do
      let k ← memberKey run c computed key
      let x ← getOf v k
      run c (.bind mode q x)
      bindMembers run c mode v ps (k :: seen)
    | .rest q => do
      let r ← newObject
      match r with
      | .obj id => copyProperties v seen id
      | _ => pure ()
      run c (.bind mode q r)
      bindMembers run c mode v ps seen
    | _ => bindMembers run c mode v ps seen

/-! ## Places -/

/-- Where a value is read and written. -/
inductive Place where
  | var (name : String)
  | member (base : Value) (key : Key)
  /-- A property whose name is not known yet. -/
  | element (base key : Value)
  /-- A private property of a class. -/
  | hidden (base : Value) (name : String) (key : Key)
  /-- A property of the parent of an object, on behalf of `this`. -/
  | inherited (parent this : Value) (key : Key)

/-- The object whose properties `super` means. -/
def parentOf (c : Context) : M Value := do
  match (← activationOf c).home with
  | some home => getPrototype home
  | none => throwNew .syntaxError "'super' is only valid in a method"

/-- The name of a property for a complaint; nothing is run to find it. -/
def shownKey (v : Value) : String :=
  match v with
  | .str s => s
  | .num x => Number.text x
  | .bool b => if b then "true" else "false"
  | .null => "null"
  | .undefined | .absent => "undefined"
  | .big n => toString n
  | .sym _ => "Symbol"
  | .obj _ => "\x7b\x7d"

/-- The property of a value under a name that is still to be converted. -/
def elementOf (base key : Value) : M Value := do
  if base.isNothing then
    throwType ("cannot read property '" ++ shownKey key ++ "' of " ++ nothingName base)
  getOf base (← toKey key)

/-- A private property of a class. -/
def readHidden (base : Value) (name : String) (k : Key) : M Value := do
  match base with
  | .obj id =>
    match (← objectOf id).own? k with
    | some (.data v _) => return v
    | some (.accessor g _ _) =>
      if g matches .undefined then throwType "no getter for property" else call g base #[]
    | none => throwType ("private class field '#" ++ name ++ "' does not exist")
  | _ => throwType "not an object"

/-- Assign to a private property of a class. -/
def writeHidden (base : Value) (name : String) (k : Key) (v : Value) : M Unit := do
  match base with
  | .obj id =>
    match (← objectOf id).own? k with
    | some (.data _ r) =>
      if r.writable then changeObject id (·.put k (.data v r))
      else throwType ("'#" ++ name ++ "' is read-only")
    | some (.accessor _ s _) =>
      if s matches .undefined then throwType "no setter for property"
      else discard (call s base #[v])
    | none => throwType ("private class field '#" ++ name ++ "' does not exist")
  | _ => throwType "not an object"

/-- The property that an inherited one is, on behalf of `this`. -/
def readInherited (parent this : Value) (k : Key) : M Value :=
  match parent with
  | .obj id => getOn reach id k this
  | _ => throwType ("cannot read property '" ++ k.shown ++ "' of " ++ nothingName parent)

/-- The place that an expression names. -/
def placeOfExpr (run : Runs) (c : Context) (e : Expr) : M Place := do
  match e with
  | .ident name => return .var name
  | .dot o name _ => return .member (← run c (.expr o)) (.ofText name)
  | .index o e _ => do
    let base ← run c (.expr o)
    return .element base (← run c (.expr e))
  | .privateDot o name _ => do
    let base ← run c (.expr o)
    return .hidden base name (← memberKey run c false (.privateName name))
  | .superDot name => do
    let this ← thisOf c
    return .inherited (← parentOf c) this (.ofText name)
  | .superIndex e => do
    let this ← thisOf c
    let key ← toKey (← run c (.expr e))
    return .inherited (← parentOf c) this key
  | e => do
    discard (run c (.expr e))
    throwNew .reference "invalid assignment left-hand side"

/-- The place with its name known. -/
def Place.settled : Place → M Place
  | .element base key => do
    if base.isNothing then
      throwType ("cannot read property '" ++ shownKey key ++ "' of " ++ nothingName base)
    return .member base (← toKey key)
  | p => pure p

/-- The value at a place. -/
def Place.read (c : Context) : Place → M Value
  | .var name => lookupVar c name
  | .member base k => getOf base k
  | .element base key => elementOf base key
  | .hidden base name k => readHidden base name k
  | .inherited parent this k => readInherited parent this k

/-- Write a value to a place. -/
def Place.write (c : Context) (v : Value) : Place → M Unit
  | .var name => assignVar c name v
  | .member base k => setOf base k v c.strict
  | .element base key => do
    if base.isNothing then
      throwType ("cannot set property '" ++ shownKey key ++ "' of " ++ nothingName base)
    setOf base (← toKey key) v c.strict
  | .hidden base name k => writeHidden base name k v
  | .inherited parent this k => do
    let done ← match parent with
      | .obj id => setOn reach id k v this
      | _ => pure false
    if !done && c.strict then throwType ("'" ++ k.shown ++ "' is read-only")

/-- The target of an assignment without the parentheses around it. -/
def bareTarget : Expr → Expr
  | .paren e | .typed e | .nonNull e => bareTarget e
  | e => e

/-- Bind a pattern to a value. -/
def bindPattern (run : Runs) (c : Context) (mode : BindMode) (p : Pattern) (v : Value) : M Unit := do
  match p with
  | .name name =>
    match mode with
    | .assign => assignVar c name v
    | .declare => initializeIn c.scope name v
  | .expr e =>
    (← placeOfExpr run c (bareTarget e)).write c v
  | .orElse q e => do
    let v ← if v matches .undefined then
        (match q with
          | .name name => evalNamed run c e name
          | _ => run c (.expr e))
      else pure v
    run c (.bind mode q v)
  | .array ps => do
    let it ← iteratorOf v
    let ended ← bindElements run c mode it ps false
    unless ended do it.close
  | .object ps => do
    if v.isNothing then throwType "cannot convert to object"
    bindMembers run c mode v ps []
  | .rest q | .property q => run c (.bind mode q v)
  | _ => return

end ScriptHost.Engine
