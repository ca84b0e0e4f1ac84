import ScriptHost.Engine.Builtin.Array
/-!
Functions on maps and sets, weak ones included, and on arrays of bytes. A map keeps its entries in the
order in which they were made.
-/

namespace ScriptHost.Engine.Entries

/-- The value of a key. -/
def find? (m : Entries) (k : Value) : Option Value :=
  match m.place[MapKey.of k]? with
  | some i => ((m.items[i]?).join).map (·.2)
  | none => none

/-- Give a key a value; a new key comes last. -/
def insert (m : Entries) (k v : Value) : Entries :=
  let k := match k with
    | .num x => if x == 0 then Value.num 0 else k
    | k => k
  match m.place[MapKey.of k]? with
  | some i => { m with items := m.items.set! i (some (k, v)) }
  | none => ⟨m.items.push (some (k, v)), m.place.insert (MapKey.of k) m.items.size⟩

/-- Take a key away. -/
def erase (m : Entries) (k : Value) : Entries :=
  match m.place[MapKey.of k]? with
  | some i => ⟨m.items.set! i none, m.place.erase (MapKey.of k)⟩
  | none => m

/-- The number of keys. -/
def size (m : Entries) : Nat := m.place.size

/-- No entries any more; those who walk over them are at the end. -/
def clear (m : Entries) : Entries := ⟨m.items.map fun _ => none, ∅⟩

/-- The first entry from a place on, and the place behind it. -/
def nextFrom (m : Entries) : Nat → Nat → Option ((Value × Value) × Nat)
  | 0, _ => none
  | n + 1, i =>
    match m.items[i]? with
    | some (some e) => some (e, i + 1)
    | some none => m.nextFrom n (i + 1)
    | none => none

end ScriptHost.Engine.Entries

namespace ScriptHost.Engine.Builtin

/-- The entries of a map or set that a method was called on. -/
def entriesOf (v : Value) : M (Nat × Entries) := do
  match v with
  | .obj id =>
    match (← objectOf id).kind with
    | .map m | .set m | .weakMap m | .weakSet m => return (id, m)
    | _ => throwType "not a map or set"
  | _ => throwType "not a map or set"

/-- Change the entries of a map or set. -/
def changeEntries (id : Nat) (f : Entries → Entries) : M Unit :=
  changeObject id fun o => match o with
    | ⟨proto, props, extensible, .map m⟩ => ⟨proto, props, extensible, .map (f m)⟩
    | ⟨proto, props, extensible, .set m⟩ => ⟨proto, props, extensible, .set (f m)⟩
    | ⟨proto, props, extensible, .weakMap m⟩ => ⟨proto, props, extensible, .weakMap (f m)⟩
    | ⟨proto, props, extensible, .weakSet m⟩ => ⟨proto, props, extensible, .weakSet (f m)⟩
    | o => o

/-- A new map or set, filled through its own method. -/
def newCollection (i : Invocation) (proto : Intrinsic) (kind : Kind) (isMap : Bool) : M Value := do
  unless i.isNew do throwType "must be called with new"
  let v ← allocate { proto := ← prototypeFor i.newTarget proto, kind }
  let source := i.arg 0
  if source.isNothing then return v
  let adder ← getNamed v (if isMap then "set" else "add")
  unless ← isCallable adder do throwType "set/add is not a function"
  let it ← iteratorOf source
  it.forEach (fun x => do
    if isMap then
      if x.isPrimitive then throwType "not an object"
      let k ← getOf x (.index 0)
      discard (call adder v #[k, ← getOf x (.index 1)])
    else discard (call adder v #[x])) endless
  return v

/-- Call a function for all entries, those that join meanwhile included. -/
def forEntries (id : Nat) (f this : Value) : Nat → Nat → M Unit
  | 0, _ => pure ()
  | n + 1, place => do
    tick
    let (_, m) ← entriesOf (.obj id)
    match m.nextFrom m.items.size place with
    | none => return
    | some ((k, v), place) => do
      discard (call f this #[v, k, .obj id])
      forEntries id f this n place

/-- A key that can be held weakly. -/
def weakKey (v : Value) : M Unit :=
  match v with
  | .obj _ | .sym _ => pure ()
  | _ => throwType "invalid value used as WeakMap key"

/-- The next step of an iterator over entries. -/
def stepEntries (this : Value) : M Value := do
  match this with
  | .obj id =>
    match (← objectOf id).kind with
    | .iterator (.obj source) place walk => do
      let (_, m) ← entriesOf (.obj source)
      match m.nextFrom m.items.size place with
      | none => do
        changeObject id ({ · with kind := .iterator .undefined place walk })
        stepResult .undefined true
      | some ((k, v), next) => do
        changeObject id ({ · with kind := .iterator (.obj source) next walk })
        match walk with
        | .keys => stepResult k false
        | .values => stepResult v false
        | .entries => do stepResult (← pairArray k v) false
    | .iterator .. => stepResult .undefined true
    | _ => throwType "Map Iterator object expected"
  | _ => throwType "Map Iterator object expected"

/-- The iterator over the entries of a map or set. -/
def entriesIterator (v : Value) (walk : Walk) : M Value := do
  let (id, _) ← entriesOf v
  let isSet := (← objectOf id).kind matches .set _
  newIterator (if isSet then .setIterator else .mapIterator) v walk

/-- Functions on maps and sets. -/
def collection (f : CollectionFn) (i : Invocation) : M Value := do
  let v := i.arg 0
  match f with
  | .newMap => newCollection i .map (.map {}) true
  | .newSet => newCollection i .set (.set {}) false
  | .newWeakMap => newCollection i .weakMap (.weakMap {}) true
  | .newWeakSet => newCollection i .weakSet (.weakSet {}) false
  | .newWeakRef => do
    unless i.isNew do throwType "must be called with new"
    weakKey v
    allocate { proto := ← prototypeFor i.newTarget .weakRef, kind := .weakRef v }
  | .species => return i.this
  | .next => stepEntries i.this
  | .deref => do
    match i.this with
    | .obj id =>
      match (← objectOf id).kind with
      | .weakRef v => return v
      | _ => throwType "not a WeakRef"
    | _ => throwType "not a WeakRef"
  | .groupBy => do
    let fn ← i.callback 1
    let result ← allocate { proto := .obj Intrinsic.map.id, kind := .map {} }
    let id ← objectId result
    let items ← listOf v
    countUp (fun n => do
      let x := argAt items n
      let k ← call fn .undefined #[x, .ofNat n]
      let (_, m) ← entriesOf result
      match m.find? k with
      | some (.obj group) => discard (pushAll group (← lengthOf (.obj group)) #[x])
      | _ => do
        let group ← newArray #[x]
        changeEntries id (·.insert k group)) items.size 0
    return result
  | f => do
    let (id, m) ← entriesOf i.this
    match f with
    | .clear => do
      changeEntries id Entries.clear
      return .undefined
    | .delete => do
      changeEntries id (·.erase v)
      return .bool (m.find? v).isSome
    | .get => return (m.find? v).getD .undefined
    | .has => return .bool (m.find? v).isSome
    | .size => return .ofNat m.size
    | .set => do
      if (← objectOf id).kind matches .weakMap _ then weakKey v
      claim 32
      changeEntries id (·.insert v (i.arg 1))
      return i.this
    | .add => do
      if (← objectOf id).kind matches .weakSet _ then weakKey v
      claim 32
      changeEntries id (·.insert v v)
      return i.this
    | .forEach => do
      forEntries id (← i.callback 0) (i.arg 1) endless 0
      return .undefined
    | .entries => entriesIterator i.this .entries
    | .keys => entriesIterator i.this .keys
    | .values => entriesIterator i.this .values
    | _ => return .undefined

/-! ## Bytes -/

/-- The bytes that a method was called on. -/
def bytesOf (v : Value) : M ByteArray := do
  match v with
  | .obj id =>
    match (← objectOf id).kind with
    | .bytes items => return items
    | _ => throwType "not a TypedArray"
  | _ => throwType "not a TypedArray"

/-- The value as a byte. -/
def byteOf (v : Value) : M UInt8 := do return (Number.word (← toNumber v)).toUInt8

/-- A further array of bytes. -/
def newBytes (items : ByteArray) : M Value :=
  allocate { proto := .obj Intrinsic.bytes.id, kind := .bytes items }

/-- Functions on arrays of bytes. -/
def bytes (f : BytesFn) (i : Invocation) : M Value := do
  let v := i.arg 0
  let fromValues (vs : Array Value) : M ByteArray := do
    return ⟨(← vs.toList.mapM byteOf).toArray⟩
  match f with
  | .base => throwType "cannot be called"
  | .new => do
    unless i.isNew do throwType "must be called with new"
    let items ← match v with
      | .obj _ => do
        match ← methodOf v WellKnown.iterator.key with
        | some m => do
          let it ← iteratorBy v m
          fromValues (← it.collect endless #[])
        | none => do fromValues (← elementsOf v (← lengthOf v))
      | v => do
        let n ← toLength v
        claim n
        if n > 4294967295 then throwNew .range "invalid array buffer length"
        pure ⟨Array.replicate n 0⟩
    allocate { proto := ← prototypeFor i.newTarget .bytes, kind := .bytes items }
  | .from_ => do newBytes (← fromValues (← listOf v))
  | .of_ => do newBytes (← fromValues i.args)
  | f => do
    let items ← bytesOf i.this
    let n := items.size
    let slice : M ByteArray := do
      let start ← toPosition v n 0
      let stop ← toPosition (i.arg 1) n n
      return items.extract start stop
    match f with
    | .length => return .ofNat n
    | .slice | .subarray => do newBytes (← slice)
    | .values => newIterator .arrayIterator i.this .values
    | .at_ => do
      let x ← toWhole v
      let x := if x < 0 then Float.ofNat n + x else x
      if x < 0 || x ≥ Float.ofNat n then return .undefined
      getOf i.this (.index x.toUInt64.toNat)
    | .fill => do
      let b ← byteOf v
      let start ← toPosition (i.arg 1) n 0
      let stop ← toPosition (i.arg 2) n n
      let id ← objectId i.this
      let filled := (List.range n).map fun k =>
        if start ≤ k && k < stop then b else items.get! k
      changeObject id ({ · with kind := .bytes ⟨filled.toArray⟩ })
      return i.this
    | .set => do
      let id ← objectId i.this
      let source ← elementsOf v (← lengthOf v)
      let start ← toPosition (i.arg 1) n 0
      if start + source.size > n then throwNew .range "invalid array length"
      countUp (fun k => putElement id (start + k) (argAt source k)) source.size 0
      return .undefined
    | .toString | .join => do
      let separator ← if (f matches .toString) || (v matches .undefined) then pure ","
        else toText v
      return .str (String.intercalate separator (items.toList.map fun b => toString b.toNat))
    | .forEach => do
      let fn ← i.callback 0
      countUp (fun k => do
        discard (call fn (i.arg 1) #[.ofNat (items.get! k).toNat, .ofNat k, i.this])) n 0
      return .undefined
    | .map => do
      let fn ← i.callback 0
      let mapped ← (List.range n).mapM fun k =>
        call fn (i.arg 1) #[.ofNat (items.get! k).toNat, .ofNat k, i.this]
      newBytes (← fromValues mapped.toArray)
    | _ => return .undefined

end ScriptHost.Engine.Builtin
