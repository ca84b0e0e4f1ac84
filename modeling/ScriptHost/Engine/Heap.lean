import ScriptHost.Engine.Tree
/-!
Objects one at a time, without prototypes and proxies: which properties an object has of its own, how
they are made, changed and taken away, and in which order they are listed. `Obj.define` keeps the rules
about properties that may not be changed.
-/

namespace ScriptHost.Engine

/-! ## Descriptions of properties -/

/-- What is asked of a property. -/
structure Wanted where
  value : Option Value := none
  get : Option Value := none
  set : Option Value := none
  writable : Option Bool := none
  enumerable : Option Bool := none
  configurable : Option Bool := none
  deriving Inhabited

namespace Wanted

/-- A pair of functions is asked for. -/
def isAccessor (d : Wanted) : Bool := d.get.isSome || d.set.isSome

/-- A value is asked for. -/
def isData (d : Wanted) : Bool := d.value.isSome || d.writable.isSome

/-- All that a property is. -/
def ofSlot : Slot → Wanted
  | .data v r =>
    { value := some v, writable := some r.writable, enumerable := some r.enumerable,
      configurable := some r.configurable }
  | .accessor g s r =>
    { get := some g, set := some s, enumerable := some r.enumerable,
      configurable := some r.configurable }

/-- The property that is asked for, where there was none. -/
def fresh (d : Wanted) : Slot :=
  let e := d.enumerable.getD false
  let c := d.configurable.getD false
  if d.isAccessor then .accessor (d.get.getD .undefined) (d.set.getD .undefined) ⟨false, e, c⟩
  else .data (d.value.getD .undefined) ⟨d.writable.getD false, e, c⟩

/-- The property as it is asked to become. -/
def onto (d : Wanted) (old : Slot) : Slot :=
  let e := d.enumerable.getD old.enumerable
  let c := d.configurable.getD old.configurable
  match old with
  | .data v r =>
    if d.isAccessor then .accessor (d.get.getD .undefined) (d.set.getD .undefined) ⟨false, e, c⟩
    else .data (d.value.getD v) ⟨d.writable.getD r.writable, e, c⟩
  | .accessor g s _ =>
    if d.isData then .data (d.value.getD .undefined) ⟨d.writable.getD false, e, c⟩
    else .accessor (d.get.getD g) (d.set.getD s) ⟨false, e, c⟩

end Wanted

/-- Values are the same: numbers by their bits, except that one NaN is as good as another. -/
def sameValue : Value → Value → Bool
  | .absent, .absent | .undefined, .undefined | .null, .null => true
  | .bool a, .bool b => a = b
  | .num a, .num b => if a.isNaN then b.isNaN else a.toBits = b.toBits
  | .str a, .str b => a = b
  | .sym a, .sym b => a = b
  | .big a, .big b => a = b
  | .obj a, .obj b => a = b
  | _, _ => false

/-- A property that may not be redefined may become this. -/
def Wanted.allowed (d : Wanted) (old : Slot) : Bool :=
  if old.configurable then true
  else if d.configurable = some true then false
  else if d.enumerable.any (· != old.enumerable) then false
  else
    match old with
    | .data v r =>
      if d.isAccessor then false
      else if r.writable then true
      else d.writable != some true && d.value.all (sameValue · v)
    | .accessor g s _ => !d.isData && d.get.all (sameValue · g) && d.set.all (sameValue · s)

/-! ## Objects -/

namespace Value

/-- A whole number. -/
def ofNat (n : Nat) : Value := .num (Float.ofNat n)

/-- The number of the object. -/
def id? : Value → Option Nat
  | .obj id => some id
  | _ => none

/-- The value is no object. -/
def isPrimitive : Value → Bool
  | .obj _ => false
  | _ => true

/-- There is no value to speak of. -/
def isNothing : Value → Bool
  | .undefined | .null | .absent => true
  | _ => false

end Value

/-- A name of an object that is a text. -/
def Key.name (s : String) : Key := .text s

/-- The longest run of holes that an array keeps room for. -/
def widestGap : Nat := 1024

namespace Obj

/-- The object is an array and not a proxy for one. -/
def isArray (o : Obj) : Bool := o.kind matches .array ..

/-- The object may be called. -/
def isCallable (o : Obj) : Bool :=
  match o.kind with
  | .closure _ | .native .. | .bound .. => true
  | .proxy _ _ callable _ => callable
  | _ => false

/-- The property of an object of its own. -/
def own? (o : Obj) (k : Key) : Option Slot :=
  match o.kind with
  | .array items length fixed _ =>
    match k with
    | .index i =>
      match items[i]? with
      | some .absent => o.props.find? k
      | some v => some (.data v .full)
      | none => o.props.find? k
    | .text "length" => some (.data (.ofNat length) ⟨!fixed, false, false⟩)
    | _ => o.props.find? k
  | .box (.str s) =>
    match k with
    | .index i =>
      match Text.unitAt? s i with
      | some u => some (.data (.str (Text.ofUnits [u])) ⟨false, true, false⟩)
      | none => o.props.find? k
    | .text "length" => some (.data (.ofNat (Text.length s)) .frozen)
    | _ => o.props.find? k
  | .bytes items =>
    match k with
    | .index i => (items[i]?).map fun b => .data (.ofNat b.toNat) .full
    | _ => o.props.find? k
  | _ => o.props.find? k

/-- All elements of an array as properties. -/
def loosen (o : Obj) : Obj :=
  match o.kind with
  | .array items length fixed false =>
    let props := (items.foldl (fun (t, i) v =>
      (match v with
        | .absent => t
        | v => t.insert (.index i) (.data v .full), i + 1)) (o.props, 0)).1
    { o with props, kind := .array #[] length fixed true }
  | _ => o

/-- Give an object a property of its own, whatever it had there. -/
def put (o : Obj) (k : Key) (s : Slot) : Obj :=
  match o with
  | ⟨proto, props, extensible, .array items length fixed loose⟩ =>
    match k, s with
    | .index i, .data v ⟨true, true, true⟩ =>
      if !loose && i < items.size then ⟨proto, props, extensible, .array (items.set! i v) length fixed loose⟩
      else if !loose && i = items.size && length ≤ i + 1 then
        ⟨proto, props, extensible, .array (items.push v) (max length (i + 1)) fixed loose⟩
      else if !loose && length = items.size && i < items.size + widestGap then
        let items := (List.range (i - items.size)).foldl (fun items _ => items.push .absent) items
        ⟨proto, props, extensible, .array (items.push v) (max length (i + 1)) fixed loose⟩
      else
        ⟨proto, props.insert k s, extensible, .array items (max length (i + 1)) fixed loose⟩
    | .index i, _ =>
      let o := loosen ⟨proto, props, extensible, .array items length fixed loose⟩
      { o with
        props := o.props.insert k s
        kind := match o.kind with
          | .array items length fixed loose => .array items (max length (i + 1)) fixed loose
          | kind => kind }
    | .text "length", .data (.num x) r =>
      ⟨proto, props, extensible, .array items x.toUInt64.toNat (fixed || !r.writable) loose⟩
    | _, _ => ⟨proto, props.insert k s, extensible, .array items length fixed loose⟩
  | ⟨proto, props, extensible, .bytes items⟩ =>
    match k, s with
    | .index i, .data (.num x) _ =>
      let n : Int := if x.isNaN || x.isInf then 0 else
        (if x < 0 then -Int.ofNat (-x).toUInt64.toNat else Int.ofNat x.toUInt64.toNat)
      ⟨proto, props, extensible,
        .bytes (if i < items.size then items.set! i (UInt8.ofNat (n % 256).toNat) else items)⟩
    | .index _, _ => ⟨proto, props, extensible, .bytes items⟩
    | _, _ => ⟨proto, props.insert k s, extensible, .bytes items⟩
  | ⟨proto, props, extensible, kind⟩ => ⟨proto, props.insert k s, extensible, kind⟩

/-- Take a property away. -/
def remove (o : Obj) (k : Key) : Obj :=
  match o, k with
  | ⟨proto, props, extensible, .array items length fixed loose⟩, .index i =>
    if i < items.size then
      ⟨proto, props, extensible, .array (items.set! i .absent) length fixed loose⟩
    else ⟨proto, props.erase k, extensible, .array items length fixed loose⟩
  | ⟨proto, props, extensible, kind⟩, k => ⟨proto, props.erase k, extensible, kind⟩

/-- Make an array so long; whether all elements behind the new end could be taken away. -/
def setLength (o : Obj) (n : Nat) : Bool × Obj :=
  match o with
  | ⟨proto, props, extensible, .array items length fixed loose⟩ =>
    let items := if n < items.size then items.shrink n else items
    let gone := if props.entries.isEmpty then [] else props.keys.filter fun k => match k with
      | .index i => n ≤ i
      | _ => false
    if length = n && gone.isEmpty then
      (true, ⟨proto, props, extensible, .array items n fixed loose⟩)
    else
      let stays := gone.filter fun k => (props.find? k).any (!·.configurable)
      match stays.getLast? with
      | some (.index i) =>
        let props := (gone.filter fun k => match k with
          | .index j => i < j
          | _ => false).foldl Table.erase props
        (false, ⟨proto, props, extensible, .array items (i + 1) fixed loose⟩)
      | _ => (true, ⟨proto, gone.foldl Table.erase props, extensible, .array items n fixed loose⟩)
  | o => (true, o)

/-- The names of the properties of an object of its own. -/
def ownKeys (o : Obj) : List Key :=
  let rest := o.props.keys
  match o.kind with
  | .array items _ _ _ =>
    let present := (List.range items.size).filter fun i => match items[i]? with
      | some .absent | none => false
      | some _ => true
    let (indices, others) := rest.span fun k => k matches .index _
    present.map Key.index ++ indices ++ [.text "length"] ++ others
  | .box (.str s) =>
    let (indices, others) := rest.span fun k => k matches .index _
    (List.range (Text.length s)).map Key.index ++ indices ++ [.text "length"] ++ others
  | .bytes items => (List.range items.size).map Key.index ++ rest
  | _ => rest

/-- The name is an index behind the end of an array that keeps its length. -/
def endsBefore (o : Obj) (k : Key) : Bool :=
  match o.kind, k with
  | .array _ length true _, .index i => length ≤ i
  | _, _ => false

/-- Make or change a property, if the object and the property as it is allow it. -/
def define (o : Obj) (k : Key) (d : Wanted) : Bool × Obj :=
  match o.own? k with
  | none =>
    if !o.extensible || o.endsBefore k then (false, o) else (true, o.put k d.fresh)
  | some old =>
    if !d.allowed old then (false, o)
    else
      match o.kind, k, d.onto old with
      | .array .., .text "length", .data (.num x) r =>
        let n := x.toUInt64.toNat
        let (all, o) := o.setLength n
        (all, if r.writable then o else o.put k (.data (match o.kind with
          | .array _ n _ _ => .ofNat n
          | _ => .num x) r))
      | _, _, s => (true, o.put k s)

end Obj

/-- The variable that an element of the arguments of a call stands for. -/
def Obj.aliased? (o : Obj) (k : Key) : Option (Nat × Nat) :=
  match o.kind, k with
  | .arguments scope slots, .index i => (slots.getD i none).map ((scope, ·))
  | _, _ => none

/-- From now on an element of the arguments of a call stands for itself. -/
def Obj.dropAlias (o : Obj) (k : Key) : Obj :=
  match o, k with
  | ⟨proto, props, extensible, .arguments scope slots⟩, .index i =>
    ⟨proto, props, extensible, .arguments scope (if i < slots.size then slots.set! i none else slots)⟩
  | o, _ => o

/-! ## Variables -/

/-- A variable. -/
def World.binding (w : World) (scope i : Nat) : Binding :=
  match w.scopes[scope]? with
  | some s => s.vars.getD i default
  | none => default

/-- Give a variable a value. -/
@[inline] def World.setVar (w : World) (scope i : Nat) (v : Value) : World :=
  { w with scopes := alterAt w.scopes scope fun s =>
      { s with vars := alterAt s.vars i fun b => { b with value := v } } }

/-! ## The heap -/

namespace World

/-- An object. -/
@[inline] def obj (w : World) (id : Nat) : Obj := w.heap.getD id default

/-- Bytes that an object is taken to need. -/
def objectSize : Nat := 64

/-- The property of an object of its own; an element that stands for a variable has its value. -/
def own? (w : World) (id : Nat) (k : Key) : Option Slot :=
  let o := w.obj id
  match o.kind, o.own? k with
  | .arguments .., some (.data v r) =>
    match o.aliased? k with
    | some (scope, i) => some (.data (w.binding scope i).value r)
    | none => some (.data v r)
  | _, s => s

/-- A further object. -/
def alloc (w : World) (o : Obj) : Nat × World :=
  (w.heap.size, { w with heap := w.heap.push o, used := w.used + objectSize })

/-- Change an object. -/
def setObj (w : World) (id : Nat) (f : Obj → Obj) : World :=
  { w with heap := alterAt w.heap id f }

/-- Change an object and find something out by it. -/
def updateObj {α : Type} (w : World) (id : Nat) (f : Obj → α × Obj) : α × World :=
  let (a, heap) := updateAt w.heap id default f
  (a, { w with heap })

/-- A property that anyone may change. -/
def putValue (w : World) (id : Nat) (k : Key) (v : Value) : World :=
  w.setObj id (·.put k (.data v .full))

/-- The text that tells that something happened in a script. -/
def insideScript : String := "    at <eval>\n"

/-- The text that tells where an error was made; empty outside of all scripts. -/
def trace (w : World) : String := if w.frames = 0 && w.scripts = 0 then "" else insideScript

/-- An error with its text. -/
def makeError (w : World) (kind : ErrorKind) (text : String) : Value × World :=
  -- What is wrong with a script is always inside of it.
  let trace := if kind = .syntaxError then insideScript else w.trace
  let props : Table := (Table.insert {} (.text "message") (.data (.str text) .hidden)).insert
    (.text "stack") (.data (.str trace) .hidden)
  let (id, w) := w.alloc { proto := .obj kind.prototype.id, props, kind := .error }
  (.obj id, w)

end World

/-- Throw an error of a kind. -/
def throwNew {α : Type} (kind : ErrorKind) (text : String) : M α := fun w =>
  let (e, w) := w.makeError kind text
  .thrown (.value e) w

/-- Throw a type error. -/
def throwType {α : Type} (text : String) : M α := throwNew .type text

/-- An object. -/
@[inline] def objectOf (id : Nat) : M Obj := look (·.obj id)

/-- There is no room for so many bytes. -/
def World.isFull (w : World) (bytes : Nat) : Bool :=
  match w.memoryLimit with
  | some limit => limit > 0 && w.used + bytes > limit
  | none => false

/-- Take so many bytes. -/
def claim (bytes : Nat) : M Unit := fun w =>
  if w.isFull bytes then throwNew .internal "out of memory" w
  else .ok () { w with used := w.used + bytes }

/-- A further object. -/
def allocate (o : Obj) : M Value := fun w =>
  if w.isFull World.objectSize then throwNew .internal "out of memory" w
  else
    let (id, w) := w.alloc o
    .ok (.obj id) w

/-- A further object without properties. -/
def newObject : M Value := allocate { proto := .obj Intrinsic.object.id }

/-- A further array. -/
def newArray (items : Array Value) : M Value :=
  allocate { proto := .obj Intrinsic.array.id, kind := .array items items.size false false }

/-- A further regular expression. -/
def newPattern (body flags : String) : M Value :=
  allocate
    { proto := .obj Intrinsic.regexp.id
      props := Table.insert {} (.text "lastIndex") (.data (.num 0) ⟨true, false, false⟩)
      kind := .regexp body flags }

/-- Change an object. -/
@[inline] def changeObject (id : Nat) (f : Obj → Obj) : M Unit := change (·.setObj id f)

/-- The length that no text reaches. -/
def longestText : Nat := 0x3FFFFFFF

/-- The text is refused if it needs more memory than there is. -/
def claimText (bytes : Nat) : M Unit := fun w =>
  if w.isFull (2 * bytes) then throwNew .internal "out of memory" w
  else if bytes ≥ longestText then throwNew .internal "invalid string length" w
  else .ok () w

/-- One text after the other. -/
def concatTexts (a b : String) : M String := do
  let n := a.utf8ByteSize + b.utf8ByteSize
  if n > 10000 then claimText n
  return Text.append a b

/-- The value is a function. -/
def isCallable (v : Value) : M Bool :=
  match v with
  | .obj id => return (← objectOf id).isCallable
  | _ => pure false

end ScriptHost.Engine
