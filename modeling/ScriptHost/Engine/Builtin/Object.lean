import ScriptHost.Engine.Builtin.Basic
/-!
Functions on objects of any kind.
-/

namespace ScriptHost.Engine.Builtin

/-- The name of an object's kind, as its text shows it. -/
def builtinTag (v : Value) : M String := do
  match v with
  | .undefined | .absent => return "Undefined"
  | .null => return "Null"
  | v => do
    let o ← toObject v
    if ← isArray o then return "Array"
    match o with
    | .obj id => do
      let o ← objectOf id
      if o.isCallable then return "Function"
      match o.kind with
      | .error => return "Error"
      | .box (.bool _) => return "Boolean"
      | .box (.num _) => return "Number"
      | .box (.str _) => return "String"
      | .date _ => return "Date"
      | .regexp .. => return "RegExp"
      | .arguments .. => return "Arguments"
      | _ => return "Object"
    | _ => return "Object"

/-- The text that objects have by default. -/
def objectText (v : Value) : M String := do
  let tag ← builtinTag v
  let own ← if v.isNothing then pure Value.undefined else getOf v WellKnown.toStringTag.key
  match own with
  | .str s => return "[object " ++ s ++ "]"
  | _ => return "[object " ++ tag ++ "]"

/-- Define a property as an object describes it; it must be possible. -/
def defineFrom (id : Nat) (k : Key) (d : Wanted) : M Unit := do
  let known ← ownProperty id k
  unless ← defineProperty id k d do
    if ← isProxy id then throwType "proxy: defineProperty exception"
    if known.isSome then throwType "property is not configurable"
    else throwType "object is not extensible"

/-- Define all properties that an object describes. -/
def defineAll (id : Nat) (descriptions : Value) : M Unit := do
  let source ← toObjectId descriptions
  let keys ← ownKeys source
  let wanted ← keys.filterMapM fun k => do
    if (← ownProperty source k).any Slot.enumerable then
      return some (k, ← wantedOf (← getId source k))
    else return none
  wanted.forM fun (k, d) => defineFrom id k d

/-- Freeze an object or only fix its properties. -/
def fix (id : Nat) (freeze : Bool) : M Unit := do
  unless ← preventOn reach id do throwType "proxy preventExtensions handler returned false"
  (← ownKeys id).forM fun k => do
    match ← ownProperty id k with
    | some (.data ..) =>
      defineFrom id k
        { configurable := some false, writable := if freeze then some false else none }
    | some (.accessor ..) => defineFrom id k { configurable := some false }
    | none => pure ()

/-- No property of an object can be changed any more, or at least none be redefined. -/
def isFixed (id : Nat) (frozen : Bool) : M Bool := do
  if ← extensibleOn reach id then return false
  let open_ ← (← ownKeys id).anyM fun k => do
    return (← ownProperty id k).any fun s => s.configurable || (frozen && match s with
      | .data _ r => r.writable
      | _ => false)
  return !open_

/-- Copy the listed properties of sources to a target. -/
def assignAll (target : Nat) : List Value → M Unit
  | [] => pure ()
  | s :: rest => do
    unless s.isNothing do
      let id ← toObjectId s
      (← ownKeys id).forM fun k => do
        if (← ownProperty id k).any Slot.enumerable then
          setOf (.obj target) k (← getId id k) true
    assignAll target rest

/-- The values or pairs of the listed properties of an object. -/
def listValues (id : Nat) (pairs : Bool) : M Value := do
  let keys ← enumerableKeys id
  let items ← keys.mapM fun k => do
    let v ← getId id k
    if pairs then pairArray k.toValue v else return v
  newArray items.toArray

/-- Half of a pair of functions that an object has or inherits under a name. -/
def lookupHalf (getter : Bool) (k : Key) : Nat → Value → M Value
  | n + 1, .obj id => do
    match ← ownProperty id k with
    | some (.accessor g s _) => return if getter then g else s
    | some (.data ..) => return .undefined
    | none => do lookupHalf getter k n (← getPrototype id)
  | _, _ => pure .undefined

/-- Groups of values by a name that a function finds for each. -/
def groupInto (groups : List (Key × Array Value)) (k : Key) (v : Value) : List (Key × Array Value) :=
  match groups with
  | [] => [(k, #[v])]
  | (k', vs) :: rest => if k' = k then (k', vs.push v) :: rest else (k', vs) :: groupInto rest k v

/-- Group values by what a function finds for each. -/
def groupAll (f : Value) : List Value → Nat → List (Key × Array Value) → M (List (Key × Array Value))
  | [], _, acc => pure acc
  | v :: vs, n, acc => do
    let k ← toKey (← call f .undefined #[v, .ofNat n])
    groupAll f vs (n + 1) (groupInto acc k v)

/-- Functions on objects. -/
def object (f : ObjectFn) (i : Invocation) : M Value := do
  let v := i.arg 0
  match f with
  | .new =>
    if i.isNew && !sameValue i.newTarget i.callee then
      allocate { proto := ← prototypeFor i.newTarget .object }
    else if v.isNothing then newObject else toObject v
  | .assign => do
    let target ← toObjectId v
    assignAll target (i.args.toList.drop 1)
    return .obj target
  | .create =>
    match v with
    | .null | .obj _ => do
      let o ← allocate { proto := v }
      let id ← objectId o
      unless i.arg 1 matches .undefined do defineAll id (i.arg 1)
      return o
    | _ => throwType "not a prototype"
  | .defineProperty => do
    let id ← objectId v
    let k ← toKey (i.arg 1)
    defineFrom id k (← wantedOf (i.arg 2))
    return v
  | .defineProperties => do
    let id ← objectId v
    defineAll id (i.arg 1)
    return v
  | .entries => do listValues (← toObjectId v) true
  | .values => do listValues (← toObjectId v) false
  | .keys => do namesArray (← enumerableKeys (← toObjectId v))
  | .freeze => do
    if let .obj id := v then fix id true
    return v
  | .seal => do
    if let .obj id := v then fix id false
    return v
  | .isFrozen => match v with
    | .obj id => return .bool (← isFixed id true)
    | _ => return .bool true
  | .isSealed => match v with
    | .obj id => return .bool (← isFixed id false)
    | _ => return .bool true
  | .preventExtensions => do
    if let .obj id := v then
      unless ← preventOn reach id do throwType "proxy preventExtensions handler returned false"
    return v
  | .isExtensible => match v with
    | .obj id => return .bool (← extensibleOn reach id)
    | _ => return .bool false
  | .fromEntries => do
    let o ← newObject
    let id ← objectId o
    let it ← iteratorOf v
    it.forEach (fun pair => do
      if pair.isPrimitive then throwType "not an object"
      let k ← toKey (← getOf pair (.index 0))
      createData id k (← getOf pair (.index 1))) endless
    return o
  | .getOwnPropertyDescriptor => do
    let id ← toObjectId v
    match ← ownProperty id (← toKey (i.arg 1)) with
    | some s => describeSlot s
    | none => return .undefined
  | .getOwnPropertyDescriptors => do
    let id ← toObjectId v
    let o ← newObject
    (← ownKeys id).forM fun k => do
      if let some s ← ownProperty id k then putField o k (← describeSlot s)
    return o
  | .getOwnPropertyNames => do
    namesArray ((← ownKeys (← toObjectId v)).filter (!·.isSymbol))
  | .getOwnPropertySymbols => do
    namesArray ((← ownKeys (← toObjectId v)).filter (·.isSymbol))
  | .getPrototypeOf => do getPrototype (← toObjectId v)
  | .setPrototypeOf => do
    if v.isNothing then throwType "not an object"
    unless (i.arg 1) matches .obj _ | .null do throwType "not an object"
    if let .obj id := v then
      unless ← setPrototype id (i.arg 1) do
        throwType (if ← isProxy id then "proxy: bad prototype" else "object is not extensible")
    return v
  | .is => return .bool (sameValue v (i.arg 1))
  | .hasOwn => do
    let id ← toObjectId v
    return .bool (← ownProperty id (← toKey (i.arg 1))).isSome
  | .groupBy => do
    let fn ← i.callback 1
    let groups ← groupAll fn (← listOf v).toList 0 []
    let o ← allocate { proto := .null }
    groups.forM fun (k, vs) => do putField o k (← newArray vs)
    return o
  | .hasOwnProperty => do
    let k ← toKey v
    return .bool (← ownProperty (← toObjectId i.this) k).isSome
  | .isPrototypeOf =>
    match v with
    | .obj _ => do
      let this ← toObject i.this
      return .bool (← isInstanceIn this reach v)
    | _ => return .bool false
  | .propertyIsEnumerable => do
    let k ← toKey v
    return .bool ((← ownProperty (← toObjectId i.this) k).any Slot.enumerable)
  | .toLocaleString => do call (← getNamed i.this "toString") i.this #[]
  | .toString => return .str (← objectText i.this)
  | .valueOf => toObject i.this
  | .protoGet => do getPrototype (← toObjectId i.this)
  | .protoSet => do
    if i.this.isNothing then throwType "not an object"
    match i.this, v with
    | .obj id, .obj _ | .obj id, .null => do
      unless ← setPrototype id v do
        throwType (if ← isProxy id then "proxy: bad prototype" else "object is not extensible")
      return .undefined
    | _, _ => return .undefined
  | .defineGetter => do
    let id ← toObjectId i.this
    let g ← i.callback 1
    defineFrom id (← toKey v) { get := some g, enumerable := some true, configurable := some true }
    return .undefined
  | .defineSetter => do
    let id ← toObjectId i.this
    let s ← i.callback 1
    defineFrom id (← toKey v) { set := some s, enumerable := some true, configurable := some true }
    return .undefined
  | .lookupGetter => do
    let this ← toObject i.this
    lookupHalf true (← toKey v) reach this
  | .lookupSetter => do
    let this ← toObject i.this
    lookupHalf false (← toKey v) reach this

end ScriptHost.Engine.Builtin
