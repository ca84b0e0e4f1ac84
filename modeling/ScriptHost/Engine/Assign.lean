import ScriptHost.Engine.Convert
/-!
Making, changing and taking away properties. An assignment follows the prototypes to the property that
it concerns; the length of an array can only become a length.
-/

namespace ScriptHost.Engine

/-- Ask for a property of what is described; whether it could be done. -/
def wantedObject (d : Wanted) : M Value := do
  let v ← newObject
  let put (name : String) (x : Option Value) : M Unit := match v, x with
    | .obj id, some x => change (·.putValue id (.text name) x)
    | _, _ => pure ()
  put "value" d.value
  put "writable" (d.writable.map .bool)
  put "get" d.get
  put "set" d.set
  put "enumerable" (d.enumerable.map .bool)
  put "configurable" (d.configurable.map .bool)
  return v

/-- The object stands for another one. -/
def isProxy (id : Nat) : M Bool := look fun w => (w.obj id).kind matches .proxy ..

/-- The length that a value asks for; an array cannot have any other than a small natural number. An
object is asked for its number twice. -/
def toArrayLength (v : Value) : M Nat := do
  if v matches .obj _ then discard (toNumber v)
  let x ← toNumber v
  if x < 0 || x ≥ 4294967296 || x.floor != x then throwNew .range "invalid array length"
  return x.toUInt64.toNat

/-- What is wanted of a property, where the length of an array is a length. -/
def withLength (id : Nat) (k : Key) (d : Wanted) : M Wanted := do
  match k, d.value with
  | .text "length", some v =>
    if ← look fun w => (w.obj id).isArray then
      return { d with value := some (.ofNat (← toArrayLength v)) }
    else return d
  | _, _ => return d

/-- Change an element of the arguments of a call that stands for a variable. It no longer does when it
becomes a pair of functions or may not change any more. -/
def World.defineAlias (w : World) (id : Nat) (k : Key) (d : Wanted) (scope i : Nat) : Bool × World :=
  let v := (w.binding scope i).value
  let (done, w) := w.updateObj id fun o =>
    (match o.own? k with
      | some (.data _ r) => o.put k (.data v r)
      | _ => o).define k d
  if !done then (false, w)
  else
    let w := match d.value with
      | some v => w.setVar scope i v
      | none => w
    if d.get.isSome || d.set.isSome || d.writable = some false then
      (true, w.setObj id (·.dropAlias k))
    else (true, w)

/-- Make or change a property of an object of its own; whether it could be done. -/
def defineOn : Nat → Nat → Key → Wanted → M Bool
  | 0, _, _, _ => pure false
  | n + 1, id, k, d => do
    if ← isProxy id then
      let (target, handler, trap) ← trapOf id "defineProperty"
      match trap with
      | none => defineOn n target k d
      | some f =>
        return (← call f (.obj handler) #[.obj target, k.toValue, ← wantedObject d]).truthy
    else
      let d ← withLength id k d
      let shared ← look fun w => (w.obj id).aliased? k
      match shared with
      | none => update fun w => w.updateObj id (·.define k d)
      | some (scope, i) => update fun w => w.defineAlias id k d scope i

/-- Make or change a property of an object of its own; whether it could be done. -/
def defineProperty (id : Nat) (k : Key) (d : Wanted) : M Bool := defineOn reach id k d

/-- Make a property that anyone may change; it must be possible. -/
def createData (id : Nat) (k : Key) (v : Value) : M Unit := do
  let done ← defineProperty id k (.ofSlot (.data v .full))
  unless done do throwType "property is not configurable"

/-- Where an assignment to a name leads. -/
inductive Target where
  /-- The property is made on the receiver. -/
  | receiver
  /-- The property of the receiver of its own gets the value. -/
  | own
  | blocked
  | setter (f : Value)
  | proxy (id : Nat)

/-- Follow a name through prototypes up to the property that an assignment concerns. -/
def World.findTarget (w : World) (k : Key) (first : Nat) : Nat → Nat → Target
  | 0, _ => .receiver
  | n + 1, id =>
    let o := w.obj id
    match o.kind with
    | .proxy .. => .proxy id
    | _ =>
      match o.own? k with
      | some (.data _ r) => if !r.writable then .blocked else if id = first then .own else .receiver
      | some (.accessor _ s _) => if s matches .undefined then .blocked else .setter s
      | none =>
        match o.proto with
        | .obj p => w.findTarget k first n p
        | _ => .receiver

/-- Give the receiver a value under a name; whether it could be done. -/
def setReceiver (receiver : Value) (k : Key) (v : Value) : M Bool := do
  match receiver with
  | .obj id =>
    match ← ownProperty id k with
    | some (.data _ r) =>
      if r.writable then defineProperty id k { value := some v } else return false
    | some (.accessor ..) => return false
    | none => defineProperty id k (.ofSlot (.data v .full))
  | _ => return false

/-- Assign to a name of an object on behalf of a receiver; whether it could be done. -/
def setOn : Nat → Nat → Key → Value → Value → M Bool
  | 0, _, _, _, _ => pure false
  | n + 1, id, k, v, receiver => do
    match ← look fun w => w.findTarget k id reach id with
    | .blocked => return false
    | .setter f => do
      discard (call f receiver #[v])
      return true
    | .own =>
      match receiver with
      | .obj r =>
        if r = id then
          let isLength ← look fun w => k == .text "length" && (w.obj id).isArray
          if isLength then defineProperty id k { value := some v }
          else
            let shared ← look fun w => (w.obj id).aliased? k
            if let some (scope, i) := shared then change (·.setVar scope i v)
            changeObject id fun o =>
              match o.own? k with
              | some s => o.put k (.data v s.rights)
              | none => o
            return true
        else setReceiver receiver k v
      | _ => return false
    | .receiver =>
      match receiver with
      | .obj r =>
        if r = id then
          let blocked ← look fun w =>
            let o := w.obj id
            !o.extensible || o.endsBefore k
          if blocked then return false
          if k matches .index _ then claim 16
          changeObject id (·.put k (.data v .full))
          return true
        else setReceiver receiver k v
      | _ => return false
    | .proxy p =>
      let (target, handler, trap) ← trapOf p "set"
      match trap with
      | none => setOn n target k v receiver
      | some f =>
        let done := (← call f (.obj handler) #[.obj target, k.toValue, v, receiver]).truthy
        if done then agree target k "set" (·.takes v)
        return done

/-- Assign to a name of a value; in strict code an assignment that cannot be done is an error. -/
def setOf (o : Value) (k : Key) (v : Value) (strict : Bool) : M Unit := do
  let done ← match o with
    | .obj id => setOn reach id k v o
    | .undefined | .null | .absent =>
      throwType ("cannot set property '" ++ k.shown ++ "' of " ++ nothingName o)
    | o =>
      match prototypeOf o with
      | some p => setOn reach p.id k v o
      | none => pure false
  if !done && strict then
    match o with
    | .obj id =>
      if ← isProxy id then throwType "proxy: cannot set property"
      let o ← objectOf id
      match o.own? k with
      | some (.accessor ..) => throwType "no setter for property"
      | some (.data ..) => throwType ("'" ++ k.shown ++ "' is read-only")
      | none =>
        if o.endsBefore k then throwType "'length' is read-only"
        if o.extensible then throwType ("'" ++ k.shown ++ "' is read-only")
        else throwType "object is not extensible"
    | _ => throwType "not an object"

/-- Assign to a name of an object as strict code does. -/
def setNamed (o : Value) (name : String) (v : Value) : M Unit := setOf o (.text name) v true

/-- Take a property of an object away, unless it may not be; whether it is gone. -/
def Obj.delete (o : Obj) (k : Key) : Bool × Obj :=
  match o.own? k with
  | none => (true, o)
  | some s => if s.configurable then (true, (o.remove k).dropAlias k) else (false, o)

/-- Take a property away; whether it is gone. -/
def deleteOn : Nat → Nat → Key → M Bool
  | 0, _, _ => pure false
  | n + 1, id, k => do
    if ← isProxy id then
      let (target, handler, trap) ← trapOf id "deleteProperty"
      match trap with
      | none => deleteOn n target k
      | some f =>
        let gone := (← call f (.obj handler) #[.obj target, k.toValue]).truthy
        if gone then
          let extensible ← look fun w => (w.obj target).extensible
          agree target k "deleteProperty" fun s => s.configurable && extensible
        return gone
    else update fun w => w.updateObj id (·.delete k)

/-- Take a property away; whether it is gone. -/
def deleteProperty (id : Nat) (k : Key) : M Bool := deleteOn reach id k

end ScriptHost.Engine
