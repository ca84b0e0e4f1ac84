import ScriptHost.Engine.Heap
/-!
Properties as scripts see them: through prototypes, pairs of functions and proxies. Every operation is
given a bound on how many objects it goes through (`reach`); no chain of prototypes is as long.
`ScriptHost.Engine.Assign` changes them.
-/

namespace ScriptHost.Engine

/-- More objects than a property is looked up in. -/
def reach : Nat := 100000

/-! ## Looking up -/

/-- What a name leads to. -/
inductive Found where
  | nothing
  | value (v : Value)
  | getter (f : Value)
  | proxy (id : Nat)

/-- Follow a name through prototypes, up to a pair of functions or a proxy. -/
def World.find (w : World) (k : Key) : Nat → Nat → Found
  | 0, _ => .nothing
  | n + 1, id =>
    let o := w.obj id
    match o.kind with
    | .proxy .. => .proxy id
    | _ =>
      match w.own? id k with
      | some (.data v _) => .value v
      | some (.accessor g _ _) => .getter g
      | none =>
        match o.proto with
        | .obj p => w.find k n p
        | _ => .nothing

/-- The target and the handler of a proxy, which must not be revoked. -/
def proxyParts (id : Nat) : M (Nat × Nat) := do
  match (← objectOf id).kind with
  | .proxy (.obj t) (.obj h) .. => return (t, h)
  | _ => throwType "revoked proxy"

/-- The property may be read as a value: one that never changes only as the value it has. -/
def Slot.reads (v : Value) : Slot → Bool
  | .data x r => r.writable || r.configurable || sameValue x v
  | .accessor g _ r => r.configurable || !(g matches .undefined) || v matches .undefined

/-- The property may be given a value: one that never changes only the value it has. -/
def Slot.takes (v : Value) : Slot → Bool
  | .data x r => r.writable || r.configurable || sameValue x v
  | .accessor _ s r => r.configurable || !(s matches .undefined)

/-- What a trap has done must agree with the property of its target. -/
def agree (target : Nat) (k : Key) (name : String) (agrees : Slot → Bool) : M Unit := do
  let own ← look (·.own? target k)
  unless own.all agrees do throwType ("proxy: inconsistent " ++ name)

/-- The property of an object under a name, on behalf of a receiver. -/
def getOn : Nat → Nat → Key → Value → M Value
  | 0, _, _, _ => pure .undefined
  | n + 1, id, k, receiver => do
    match ← look (·.find k reach id) with
    | .nothing => return .undefined
    | .value v => return v
    | .getter .undefined => return .undefined
    | .getter f => call f receiver #[]
    | .proxy p =>
      match k with
      | .priv _ => return .undefined
      | _ =>
        let (target, handler) ← proxyParts p
        let trap ← getOn n handler (.text "get") (.obj handler)
        if trap.isNothing then getOn n target k receiver
        else
          let v ← call trap (.obj handler) #[.obj target, k.toValue, receiver]
          agree target k "get" (·.reads v)
          return v

/-- The property of an object. -/
def getId (id : Nat) (k : Key) : M Value := getOn reach id k (.obj id)

/-- The object on which the properties of a primitive value are looked up. -/
def prototypeOf : Value → Option Intrinsic
  | .str _ => some .string
  | .num _ => some .number
  | .bool _ => some .boolean
  | .sym _ => some .symbol
  | .big _ => some .bigint
  | _ => none

/-- The name of a value that is nothing. -/
def nothingName : Value → String
  | .null => "null"
  | _ => "undefined"

/-- A property of a value. -/
def getOf (v : Value) (k : Key) : M Value :=
  match v with
  | .obj id => getOn reach id k v
  | .str s =>
    match k with
    | .index i =>
      match Text.unitAt? s i with
      | some u => pure (.str (Text.ofUnits [u]))
      | none => getOn reach Intrinsic.string.id k v
    | .text "length" => pure (.ofNat (Text.length s))
    | _ => getOn reach Intrinsic.string.id k v
  | v =>
    match prototypeOf v with
    | some p => getOn reach p.id k v
    | none =>
      throwType ("cannot read property '" ++ k.shown ++ "' of " ++ nothingName v)

/-- A property of an object by a plain name. -/
def getNamed (v : Value) (name : String) : M Value := getOf v (.text name)

/-- A method, or nothing. -/
def methodOf (v : Value) (k : Key) : M (Option Value) := do
  let f ← getOf v k
  if f.isNothing then return none
  if ← isCallable f then return some f
  throwType "not a function"

/-- The value as a truth value. -/
def Value.truthy : Value → Bool
  | .absent | .undefined | .null => false
  | .bool b => b
  | .num x => !(x == 0 || x.isNaN)
  | .str s => !s.isEmpty
  | .big n => n != 0
  | .sym _ | .obj _ => true

/-- A trap of a proxy, with its target and handler. -/
def trapOf (id : Nat) (name : String) : M (Nat × Nat × Option Value) := do
  let (target, handler) ← proxyParts id
  return (target, handler, ← methodOf (.obj handler) (.text name))

/-! ## Descriptions of properties as objects -/

/-- A description of a property as an object. -/
def describeSlot (s : Slot) : M Value := do
  let v ← newObject
  let put (name : String) (x : Value) : M Unit := match v with
    | .obj id => change (·.putValue id (.text name) x)
    | _ => pure ()
  match s with
  | .data x r => do
    put "value" x
    put "writable" (.bool r.writable)
  | .accessor g s _ => do
    put "get" g
    put "set" s
  put "enumerable" (.bool s.enumerable)
  put "configurable" (.bool s.configurable)
  return v

/-- The property of an object of its own; through a proxy, what it says. -/
def hasOn : Nat → Nat → Key → M Bool
  | 0, _, _ => pure false
  | n + 1, id, k => do
    let o ← objectOf id
    match o.kind with
    | .proxy .. => do
      let (target, handler, trap) ← trapOf id "has"
      match trap with
      | none => hasOn n target k
      | some f =>
        let there := (← call f (.obj handler) #[.obj target, k.toValue]).truthy
        unless there do
          let extensible ← look fun w => (w.obj target).extensible
          agree target k "has" fun s => s.configurable && extensible
        return there
    | _ =>
      if (o.own? k).isSome then return true
      match o.proto with
      | .obj p => hasOn n p k
      | _ => return false

/-- The object has a property under a name. -/
def hasProperty (id : Nat) (k : Key) : M Bool := hasOn reach id k

/-- What an object asks of a property. -/
def wantedOf (v : Value) : M Wanted := do
  match v with
  | .obj id => do
    let field (name : String) : M (Option Value) := do
      if ← hasProperty id (.text name) then some <$> getId id (.text name) else pure none
    let flag (name : String) : M (Option Bool) := do return (← field name).map Value.truthy
    let enumerable ← flag "enumerable"
    let configurable ← flag "configurable"
    let value ← field "value"
    let writable ← flag "writable"
    let get ← field "get"
    if let some g := get then
      unless (g matches .undefined) || (← isCallable g) do throwType "invalid getter"
    let set ← field "set"
    if let some s := set then
      unless (s matches .undefined) || (← isCallable s) do throwType "invalid setter"
    if (get.isSome || set.isSome) && (value.isSome || writable.isSome) then
      throwType "cannot have setter/getter and value or writable"
    return { value, get, set, writable, enumerable, configurable }
  | _ => throwType "not an object"

/-- The property of an object of its own. -/
def ownSlot : Nat → Nat → Key → M (Option Slot)
  | 0, _, _ => pure none
  | n + 1, id, k => do
    let o ← objectOf id
    match o.kind with
    | .proxy .. => do
      let (target, handler, trap) ← trapOf id "getOwnPropertyDescriptor"
      match trap with
      | none => ownSlot n target k
      | some f =>
        let v ← call f (.obj handler) #[.obj target, k.toValue]
        match v with
        | .undefined => return none
        | .obj _ => return some (← wantedOf v).fresh
        | _ => throwType "proxy: inconsistent getOwnPropertyDescriptor"
    | _ => look (·.own? id k)

/-- The property of an object of its own. -/
def ownProperty (id : Nat) (k : Key) : M (Option Slot) := ownSlot reach id k

/-! ## Listing -/

/-- The elements of something like an array, by index. -/
def elementsOf (v : Value) (length : Nat) : M (Array Value) :=
  (List.range length).foldlM (fun acc i => do return acc.push (← getOf v (.index i))) #[]

/-- The names of the properties of an object of its own. -/
def keysOn : Nat → Nat → M (List Key)
  | 0, _ => pure []
  | n + 1, id => do
    let o ← objectOf id
    match o.kind with
    | .proxy .. => do
      let (target, handler, trap) ← trapOf id "ownKeys"
      match trap with
      | none => keysOn n target
      | some f =>
        let v ← call f (.obj handler) #[.obj target]
        match ← getNamed v "length" with
        | .num x => do
          let items ← elementsOf v x.toUInt64.toNat
          items.toList.filterMapM fun v => match v with
            | .str s => pure (some (Key.ofText s))
            | .sym s => pure (some (Key.sym s))
            | _ => throwType "proxy: properties must be strings or symbols"
        | _ => return []
    | _ => return o.ownKeys

/-- The names of the properties of an object of its own. -/
def ownKeys (id : Nat) : M (List Key) := keysOn reach id

/-- The names of the properties of its own that show up in listings. -/
def enumerableKeys (id : Nat) : M (List Key) := do
  let keys ← ownKeys id
  keys.filterM fun k => do
    match k with
    | .index _ | .text _ => return (← ownProperty id k).any Slot.enumerable
    | _ => return false

/-- The prototype of an object. -/
def prototypeOn : Nat → Nat → M Value
  | 0, _ => pure .null
  | n + 1, id => do
    let o ← objectOf id
    match o.kind with
    | .proxy .. => do
      let (target, handler, trap) ← trapOf id "getPrototypeOf"
      match trap with
      | none => prototypeOn n target
      | some f => call f (.obj handler) #[.obj target]
    | _ => return o.proto

/-- The prototype of an object. -/
def getPrototype (id : Nat) : M Value := prototypeOn reach id

/-- An object stands above another one in the chain of prototypes. -/
def World.isAbove (w : World) (above : Nat) : Nat → Value → Bool
  | n + 1, .obj id => id = above || w.isAbove above n (w.obj id).proto
  | _, _ => false

/-- Give an object a prototype; whether it could be done. -/
def setPrototypeOn : Nat → Nat → Value → M Bool
  | 0, _, _ => pure false
  | n + 1, id, p => do
    let o ← objectOf id
    match o.kind with
    | .proxy .. => do
      let (target, handler, trap) ← trapOf id "setPrototypeOf"
      match trap with
      | none => setPrototypeOn n target p
      | some f => return (← call f (.obj handler) #[.obj target, p]).truthy
    | _ =>
      if sameValue o.proto p then return true
      if !o.extensible || id = Intrinsic.object.id then return false
      if ← look (·.isAbove id reach p) then throwType "circular prototype chain"
      changeObject id ({ · with proto := p })
      return true

/-- Give an object a prototype; whether it could be done. -/
def setPrototype (id : Nat) (p : Value) : M Bool := setPrototypeOn reach id p

/-- The object can have further properties. -/
def extensibleOn : Nat → Nat → M Bool
  | 0, _ => pure true
  | n + 1, id => do
    let o ← objectOf id
    match o.kind with
    | .proxy .. => do
      let (target, handler, trap) ← trapOf id "isExtensible"
      match trap with
      | none => extensibleOn n target
      | some f => return (← call f (.obj handler) #[.obj target]).truthy
    | _ => return o.extensible

/-- Let an object have no further properties; whether it could be done. -/
def preventOn : Nat → Nat → M Bool
  | 0, _ => pure false
  | n + 1, id => do
    let o ← objectOf id
    match o.kind with
    | .proxy .. => do
      let (target, handler, trap) ← trapOf id "preventExtensions"
      match trap with
      | none => preventOn n target
      | some f => return (← call f (.obj handler) #[.obj target]).truthy
    | _ => do
      changeObject id ({ · with extensible := false })
      return true

/-- The value is an array, also through proxies. -/
def isArrayOn : Nat → Value → M Bool
  | n + 1, .obj id => do
    let o ← objectOf id
    match o.kind with
    | .array .. => return true
    | .proxy target .. => isArrayOn n target
    | _ => return false
  | _, _ => pure false

/-- The value is an array, also through proxies. -/
def isArray (v : Value) : M Bool := isArrayOn reach v

end ScriptHost.Engine
