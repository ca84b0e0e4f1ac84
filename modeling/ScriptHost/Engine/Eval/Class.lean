import ScriptHost.Engine.Eval.Expr
/-!
Classes. The methods of a class are made first; what is done for the class itself, and what is kept to
be done for each of its objects, follows in the order of the text.
-/

namespace ScriptHost.Engine

open Script (Expr Stmt Pattern Item Func Element)

section

variable (run : Runs) (c : Context)

/-- The private names that elements declare. -/
def privateNames (es : List Element) : List String :=
  (es.filterMap fun e => match e with
    | .method _ _ (.privateName name) _ _ => some name
    | .field _ _ (.privateName name) _ _ => some name
    | .accessor _ _ (.privateName name) _ _ => some name
    | _ => none).eraseDups

/-- A further symbol. -/
def newSymbol (description : Option String) : M Nat :=
  update fun w => (w.symbols.size, { w with symbols := w.symbols.push description })

/-- The constructor among the elements of a class. -/
def constructorOf (es : List Element) : Option Func :=
  es.findSome? fun e => match e with
    | .method false false _ f _ =>
      if f.info.kind = .constructor || f.info.kind = .derivedConstructor then some f else none
    | _ => none

/-- What a class has collected of its elements. -/
structure Collected where
  /-- Private methods, which each object gets before its fields. -/
  slots : List (Key × Slot) := []
  fields : List FieldInit := []
  /-- What is done for the class itself. -/
  statics : List (Option Key × Element) := []
  deriving Inhabited

/-- Add half of a pair of functions to private methods. -/
def addPrivate (slots : List (Key × Slot)) (k : Key) (s : Slot) : List (Key × Slot) :=
  match slots with
  | [] => [(k, s)]
  | (k', s') :: rest =>
    if k' = k then
      match s', s with
      | .accessor g .undefined r, .accessor .undefined t _ => (k, .accessor g t r) :: rest
      | .accessor .undefined t r, .accessor g .undefined _ => (k, .accessor g t r) :: rest
      | _, _ => (k, s) :: rest
    else (k', s') :: addPrivate rest k s

/-- The property that a method becomes. -/
def methodSlot (f : Func) (v : Value) : Slot :=
  match f.info.kind with
  | .getter => .accessor v .undefined .fixed
  | .setter => .accessor .undefined v .fixed
  | _ => .data v .hidden

/-- Give an object a method. -/
def defineMethod (id : Nat) (k : Key) (f : Func) (v : Value) : M Unit := do
  let d : Wanted := match f.info.kind with
    | .getter => { get := some v, enumerable := some false, configurable := some true }
    | .setter => { set := some v, enumerable := some false, configurable := some true }
    | _ => .ofSlot (.data v .hidden)
  unless ← defineProperty id k d do throwType "property is not configurable"

/-- Make the methods of a class and collect everything else. -/
def collect (class_ proto : Nat) : List Element → Collected → M Collected
  | [], acc => pure acc
  | e :: es, acc => do
    match e with
    | .method isStatic computed key f _ =>
      if f.info.kind = .constructor || f.info.kind = .derivedConstructor then
        collect class_ proto es acc
      else
        let k ← memberKey run c computed key
        let name ← keyName k
        let owner := if isStatic then class_ else proto
        let name := match f.info.kind with
          | .getter => "get " ++ name
          | .setter => "set " ++ name
          | _ => name
        let v ← makeFunction c f name (some owner)
        match k with
        | .priv _ =>
          let slot := (methodSlot f v).withRights .frozen
          if isStatic then
            let old := ((← objectOf class_).own? k).toList.map fun s => (k, s)
            changeObject class_ (·.put k ((addPrivate old k slot).headD (k, slot)).2)
            collect class_ proto es acc
          else collect class_ proto es { acc with slots := addPrivate acc.slots k slot }
        | _ => do
          defineMethod owner k f v
          collect class_ proto es acc
    | .field isStatic computed key value _ | .accessor isStatic computed key value _ => do
      let k ← memberKey run c computed key
      if isStatic then collect class_ proto es { acc with statics := acc.statics ++ [(some k, e)] }
      else collect class_ proto es { acc with fields := acc.fields ++ [.value k value c.scope] }
    | .block _ => collect class_ proto es { acc with statics := acc.statics ++ [(none, e)] }
    | .empty => collect class_ proto es acc

/-- Do for the class itself what its static elements say. -/
def initializeStatics (class_ : Nat) : List (Option Key × Element) → M Unit
  | [] => pure ()
  | (k?, e) :: rest => do
    let activation ← update fun w =>
      (w.activations.size,
        { w with
          captures := w.captures + 1
          activations := w.activations.push
            ⟨.obj class_, .obj class_, .undefined, some class_, #[]⟩ })
    let inner : Context := { scope := c.scope, activation, strict := true }
    match k?, e with
    | some k, .field _ _ _ value _ | some k, .accessor _ _ _ value _ => do
      let v ← if value.isAbsent then pure .undefined
        else if isAnonymous value then evalNamed run inner value (← keyName k)
        else run inner (.expr value)
      match k with
      | .priv _ => changeObject class_ (·.put k (.data v ⟨true, false, false⟩))
      | _ => createData class_ k v
    | _, .block body => do
      let names := Script.varsOfBody body
      let scope ← newScope c.scope (.function activation [] true)
        (names.map fun name => ⟨name, .undefined, .var⟩).toArray
      discard (run { inner with scope } (.block body))
    | _, _ => pure ()
    initializeStatics class_ rest

/-- The prototypes of the objects of a class and of the class itself, as its parent says. -/
def parentsOf (parent : Expr) : M (Value × Value) := do
  if parent.isAbsent then return (.obj Intrinsic.object.id, .obj Intrinsic.function.id)
  match ← run c (.expr parent) with
  | .null => return (.null, .obj Intrinsic.function.id)
  | v => do
    unless ← isConstructor v do throwType "parent class must be constructor"
    match ← getNamed v "prototype" with
    | .null => return (.null, v)
    | .obj p => return (.obj p, v)
    | _ => throwType "parent prototype must be an object or null"

/-- A class as an object. -/
def evalClass (k : Script.Class) (name : String) : M Value := do
  let names := privateNames k.elements
  let scope ← newScope c.scope .plain
    ((k.name.toList.map fun name => ⟨name, .absent, .const_⟩).toArray)
  change fun w => { w with captures := w.captures + 1 }
  names.forM fun name => do
    let id ← newSymbol (some ("#" ++ name))
    initializeIn scope ("#" ++ name) (.sym id)
  let c : Context := { c with scope, strict := true }
  let (protoParent, classParent) ← parentsOf run c k.parent
  let isDerived := !k.parent.isAbsent
  let explicit := constructorOf k.elements
  let kind := if isDerived then Script.FuncKind.derivedConstructor else .constructor
  let func : Func := match explicit with
    | some (.mk name params body info) => .mk name params body { info with text := k.text, kind }
    | none => .mk none [] [] { kind, strict := true, text := k.text }
  let proto ← allocate { proto := protoParent }
  match proto with
  | .obj p => do
    let className := k.name.getD name
    let class_ ← allocate
      { proto := classParent
        props := (functionTable (expectedArguments func.params) className).insert
          (.text "prototype") (.data proto .frozen)
        kind := .closure
          { func, scope, activation := c.activation, home := some p
            hoisted := hoistedOf func.body, isClass := true, implicit := explicit.isNone } }
    match class_ with
    | .obj id => do
      changeObject p (·.put (.text "constructor") (.data class_ .hidden))
      let found ← collect run c id p k.elements {}
      let fields := found.slots.map (fun (k, s) => FieldInit.slot k s) ++ found.fields
      changeObject id fun o =>
        match o.kind with
        | .closure closure => { o with kind := .closure { closure with fields := fields.toArray } }
        | _ => o
      if let some name := k.name then initializeIn scope name class_
      initializeStatics run c id found.statics
      return class_
    | v => return v
  | v => return v

end

end ScriptHost.Engine
