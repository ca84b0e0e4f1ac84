import ScriptHost.Engine.Builtin.Object
/-!
Functions on arrays. They work on anything with a length and elements, and what they make is made by
the constructor of what they are called on.
-/

namespace ScriptHost.Engine.Builtin

/-- A new array that an object's constructor makes. -/
def arraySpecies (v : Value) (length : Nat) : M Value := do
  let plain : M Value := allocate
    { proto := .obj Intrinsic.array.id, kind := .array #[] length false false }
  unless ← isArray v do return ← plain
  let c ← getNamed v "constructor"
  let c ← match c with
    | .obj id => getId id WellKnown.species.key
    | c => pure c
  if c.isNothing then return ← plain
  if sameValue c (.obj Intrinsic.arrayClass.id) then return ← plain
  unless ← isConstructor c do throwType "not a constructor"
  construct c #[.ofNat length] c

/-- The object that a function works on, and its length. -/
def arrayThis (v : Value) : M (Nat × Nat) := do
  let id ← toObjectId v
  return (id, ← lengthOf (.obj id))

/-- Set the length of an array-like. -/
def putLength (id n : Nat) : M Unit := setOf (.obj id) (.text "length") (.ofNat n) true

/-- Set an element. -/
def putElement (id n : Nat) (v : Value) : M Unit := setOf (.obj id) (.index n) v true

/-- Take an element away. -/
def dropElement (id n : Nat) : M Unit := do
  unless ← deleteProperty id (.index n) do throwType "could not delete property"

/-- Move an element, or the lack of one, to another place. -/
def moveElement (id start target : Nat) : M Unit := do
  if ← hasProperty id (.index start) then putElement id target (← getId id (.index start))
  else dropElement id target

/-- Call a function for every element that is there, and do something with what it says. -/
def eachElement (id n : Nat) (f this : Value) (next : Nat → Value → Value → M Unit) : M Unit :=
  countUp (fun k => do
    tick
    if ← hasProperty id (.index k) then
      let v ← getId id (.index k)
      next k v (← call f this #[v, .ofNat k, .obj id])) n 0

/-- The first element from the front or the back that a function accepts. -/
def findElement (id n : Nat) (f this : Value) (backwards : Bool) : M (Option (Nat × Value)) :=
  firstOf (fun k => do
    let k := if backwards then n - 1 - k else k
    let v ← getId id (.index k)
    if (← call f this #[v, .ofNat k, .obj id]).truthy then return some (k, v) else return none) n 0

/-- Whether some element that is there answers as wanted. -/
def anyElement (id n : Nat) (f this : Value) (wanted : Bool) : M Bool := do
  let found ← firstOf (fun k => do
    tick
    if ← hasProperty id (.index k) then
      let v ← getId id (.index k)
      if (← call f this #[v, .ofNat k, .obj id]).truthy = wanted then return some () else return none
    else return none) n 0
  return found.isSome

/-- The values of an array-like with a separator between them. `seen` holds the arrays whose text is
being made. -/
def joinElements (id n : Nat) (separator : String) (localized : Bool) : M String := do
  let rec go : Nat → Nat → String → M String
    | 0, _, acc => pure acc
    | m + 1, k, acc => do
      let v ← getId id (.index k)
      let acc ← if k = 0 then pure acc else concatTexts acc separator
      let text ← if v.isNothing then pure ""
        else if localized then do toText (← call (← getNamed v "toLocaleString") v #[])
        else toText v
      go m (k + 1) (← concatTexts acc text)
  go n 0 ""

/-- The elements of arrays inside a list, up to a depth. -/
def flatten : Nat → List Value → Array Value → M (Array Value)
  | _, [], acc => pure acc
  | depth, v :: vs, acc => do
    let nested ← if depth = 0 then pure false else isArray v
    let acc ← if nested then
        match depth with
        | 0 => pure acc
        | d + 1 => do
          let n ← lengthOf v
          let items ← elementsOf v n
          flatten d items.toList acc
      else pure (acc.push v)
    flatten depth vs acc
termination_by depth vs => (depth, vs.length)

/-- Merge two sorted lists; equal values keep their order. -/
def mergeLists (le : Value → Value → M Bool) : Nat → List Value → List Value → List Value →
    M (List Value)
  | 0, xs, ys, acc => pure (acc.reverse ++ xs ++ ys)
  | n + 1, xs, ys, acc => do
    match xs, ys with
    | [], ys => return acc.reverse ++ ys
    | xs, [] => return acc.reverse ++ xs
    | x :: xs, y :: ys => do
      if ← le x y then mergeLists le n xs (y :: ys) (x :: acc)
      else mergeLists le n (x :: xs) ys (y :: acc)

/-- Sort a list by halves. -/
def sortList (le : Value → Value → M Bool) : Nat → List Value → M (List Value)
  | 0, vs => pure vs
  | n + 1, vs => do
    match vs with
    | [] | [_] => return vs
    | vs => do
      tick
      let half := vs.length / 2
      let a ← sortList le n (vs.take half)
      let b ← sortList le n (vs.drop half)
      mergeLists le vs.length a b []

/-- Whether a value may stand in front of another one: values that are undefined come last. -/
def inOrder (compare a b : Value) : M Bool := do
  match a, b with
  | .undefined, .undefined => return true
  | .undefined, _ => return false
  | _, .undefined => return true
  | a, b =>
    if compare matches .undefined then
      let s ← toText a
      let t ← toText b
      return !Text.unitsLt t s
    else
      let x ← toNumber (← call compare .undefined #[a, b])
      return !(x > 0)

/-- The values of an array-like in order. -/
def sortedElements (compare : Value) (vs : List Value) : M (List Value) := do
  unless (compare matches .undefined) || (← isCallable compare) do throwType "not a function"
  sortList (inOrder compare) vs.length vs

/-- An iterator of the engine. -/
def newIterator (proto : Intrinsic) (source : Value) (walk : Walk) : M Value :=
  allocate { proto := .obj proto.id, kind := .iterator source 0 walk }

/-- The next step of an iterator over elements. -/
def stepArray (this : Value) : M Value := do
  match this with
  | .obj id =>
    match (← objectOf id).kind with
    | .iterator source n walk => do
      if source.isNothing then return ← stepResult .undefined true
      let length ← lengthOf source
      if n ≥ length then
        changeObject id ({ · with kind := .iterator .undefined n walk })
        stepResult .undefined true
      else
        changeObject id ({ · with kind := .iterator source (n + 1) walk })
        match walk with
        | .keys => stepResult (.ofNat n) false
        | .values => do stepResult (← getOf source (.index n)) false
        | .entries => do stepResult (← pairArray (.ofNat n) (← getOf source (.index n))) false
    | _ => throwType "Array Iterator object expected"
  | _ => throwType "Array Iterator object expected"

/-- The array holds all its elements in order and takes further ones. -/
def isDense (o : Obj) (n : Nat) : Bool :=
  match o.kind with
  | .array items length false false => o.extensible && length = n && items.size = n
  | _ => false

/-- Put a value behind those of an array that is dense. -/
def appendTo (o : Obj) (v : Value) : Obj :=
  match o with
  | ⟨proto, props, extensible, .array items length fixed loose⟩ =>
    ⟨proto, props, extensible, .array (items.push v) (length + 1) fixed loose⟩
  | o => o

/-- Put values in front of those of an array that is dense. -/
def prependTo (o : Obj) (vs : Array Value) : Obj :=
  match o with
  | ⟨proto, props, extensible, .array items length fixed loose⟩ =>
    ⟨proto, props, extensible, .array (vs ++ items) (length + vs.size) fixed loose⟩
  | o => o

/-- Take the first value of an array that is dense. -/
def behead (o : Obj) : Value × Obj :=
  match o with
  | ⟨proto, props, extensible, .array items length fixed loose⟩ =>
    (argAt items 0,
      ⟨proto, props, extensible, .array (items.extract 1 items.size) (length - 1) fixed loose⟩)
  | o => (.undefined, o)

/-- Put values behind those of an array. -/
def pushAll (id n : Nat) (vs : Array Value) : M Value := do
  if ← look fun w => isDense (w.obj id) n then
    claim (16 * vs.size)
    vs.toList.forM fun v => changeObject id (appendTo · v)
    return .ofNat (n + vs.size)
  countUp (fun k => putElement id (n + k) (argAt vs k)) vs.size 0
  putLength id (n + vs.size)
  return .ofNat (n + vs.size)

/-- Take out some elements and put values in their place; what was taken out. -/
def splice (id n start count : Nat) (vs : Array Value) : M Value := do
  let removed ← arraySpecies (.obj id) count
  let r ← objectId removed
  countUp (fun k => do
    if ← hasProperty id (.index (start + k)) then
      createData r (.index k) (← getId id (.index (start + k)))) count 0
  putLength r count
  let tail := n - start - count
  if vs.size < count then
    countUp (fun k => moveElement id (start + count + k) (start + vs.size + k)) tail 0
    countUp (fun k => dropElement id (n - 1 - k)) (count - vs.size) 0
  else if vs.size > count then
    countUp (fun k => moveElement id (n - 1 - k) (n - 1 - k + vs.size - count)) tail 0
  countUp (fun k => putElement id (start + k) (argAt vs k)) vs.size 0
  putLength id (n - count + vs.size)
  return removed

/-- How many elements a call of `splice` takes out. -/
def spliceCount (i : Invocation) (n start : Nat) : M Nat := do
  if i.args.size = 0 then return 0
  if i.args.size = 1 then return n - start
  let x ← toWhole (i.arg 1)
  return if x ≤ 0 then 0 else if x > Float.ofNat (n - start) then n - start else x.toUInt64.toNat

/-- An array from an iterable or an array-like. -/
def arrayFrom (i : Invocation) : M Value := do
  let source := i.arg 0
  let f := i.arg 1
  let this := i.arg 2
  let mapped := !(f matches .undefined)
  if mapped then discard (i.callback 1)
  if source.isNothing then throwType "cannot convert to object"
  let method ← methodOf source WellKnown.iterator.key
  let items ← match method with
    | some m => do
      let it ← iteratorBy source m
      it.collect endless #[]
    | none => do elementsOf source (← lengthOf source)
  let fresh ← if ← isConstructor i.this then construct i.this #[] i.this else newArray #[]
  let id ← objectId fresh
  countUp (fun k => do
    let v := argAt items k
    let v ← if mapped then call f this #[v, .ofNat k] else pure v
    createData id (.index k) v) items.size 0
  putLength id items.size
  return fresh

/-- The place from which a search goes backwards. -/
def lastStart (i : Invocation) (n : Nat) : M (Option Nat) := do
  if i.args.size < 2 then return if n = 0 then none else some (n - 1)
  let x ← toWhole (i.arg 1)
  let x := if x < 0 then Float.ofNat n + x else x
  if x < 0 || n = 0 then return none
  return some (min (n - 1) (if x > Float.ofNat n then n else x.toUInt64.toNat))

/-- Functions on arrays. -/
def array (f : ArrayFn) (i : Invocation) : M Value := do
  match f with
  | .new => do
    let proto ← prototypeFor (if i.isNew then i.newTarget else i.callee) .array
    match i.args.toList with
    | [.num x] => do
      allocate { proto, kind := .array #[] (← toArrayLength (.num x)) false false }
    | _ => allocate { proto, kind := .array i.args i.args.size false false }
  | .isArray => return .bool (← isArray (i.arg 0))
  | .from_ => arrayFrom i
  | .of_ => newArray i.args
  | .species => return i.this
  | .next => stepArray i.this
  | .concat => do
    let this ← toObject i.this
    let result ← arraySpecies this 0
    let r ← objectId result
    let n ← (#[this] ++ i.args).toList.foldlM (fun n v => do
      let spreads ← match v with
        | .obj id => do
          match ← getId id WellKnown.isConcatSpreadable.key with
          | .undefined => isArray v
          | flag => pure flag.truthy
        | _ => pure false
      if spreads then
        let id ← objectId v
        let length ← lengthOf v
        countUp (fun k => do
          if ← hasProperty id (.index k) then
            createData r (.index (n + k)) (← getId id (.index k))) length 0
        return n + length
      else
        createData r (.index n) v
        return n + 1) 0
    putLength r n
    return result
  | f => do
    let (id, n) ← arrayThis i.this
    let this := Value.obj id
    match f with
    | .at_ => do
      let x ← toWhole (i.arg 0)
      let x := if x < 0 then Float.ofNat n + x else x
      if x < 0 || x ≥ Float.ofNat n then return .undefined
      getId id (.index x.toUInt64.toNat)
    | .copyWithin => do
      let target ← toPosition (i.arg 0) n 0
      let start ← toPosition (i.arg 1) n 0
      let stop ← toPosition (i.arg 2) n n
      let count := min (stop - start) (n - target)
      if start < target then
        countUp (fun k => moveElement id (start + count - 1 - k) (target + count - 1 - k)) count 0
      else countUp (fun k => moveElement id (start + k) (target + k)) count 0
      return this
    | .entries => newIterator .arrayIterator this .entries
    | .keys => newIterator .arrayIterator this .keys
    | .values => newIterator .arrayIterator this .values
    | .every => do return .bool !(← anyElement id n (← i.callback 0) (i.arg 1) false)
    | .some => do return .bool (← anyElement id n (← i.callback 0) (i.arg 1) true)
    | .fill => do
      let start ← toPosition (i.arg 1) n 0
      let stop ← toPosition (i.arg 2) n n
      countUp (fun k => do
        tick
        putElement id (start + k) (i.arg 0)) (stop - start) 0
      return this
    | .filter => do
      let fn ← i.callback 0
      let result ← arraySpecies this 0
      let r ← objectId result
      eachElement id n fn (i.arg 1) fun _ v answer => do
        if answer.truthy then createData r (.index (← lengthOf result)) v
      return result
    | .find => do
      return ((← findElement id n (← i.callback 0) (i.arg 1) false).map (·.2)).getD .undefined
    | .findIndex => do
      match ← findElement id n (← i.callback 0) (i.arg 1) false with
      | some (k, _) => return .ofNat k
      | none => return .num (-1)
    | .findLast => do
      return ((← findElement id n (← i.callback 0) (i.arg 1) true).map (·.2)).getD .undefined
    | .findLastIndex => do
      match ← findElement id n (← i.callback 0) (i.arg 1) true with
      | some (k, _) => return .ofNat k
      | none => return .num (-1)
    | .flat => do
      let depth ← if i.arg 0 matches .undefined then pure 1 else do
        let x ← toWhole (i.arg 0)
        pure (if x ≤ 0 then 0 else if x > 1000 then 1000 else x.toUInt64.toNat)
      newArray (← flatten depth (← elementsOf this n).toList #[])
    | .flatMap => do
      let fn ← i.callback 0
      let items ← elementsOf this n
      let mapped ← (List.range n).mapM fun k => call fn (i.arg 1) #[argAt items k, .ofNat k, this]
      newArray (← flatten 1 mapped #[])
    | .forEach => do
      eachElement id n (← i.callback 0) (i.arg 1) fun _ _ _ => pure ()
      return .undefined
    | .includes => do
      let start ← toPosition (i.arg 1) n 0
      let found ← firstOf (fun k => do
        return if sameValueZero (← getId id (.index k)) (i.arg 0) then some () else none)
        (n - start) start
      return .bool found.isSome
    | .indexOf => do
      let start ← toPosition (i.arg 1) n 0
      let found ← firstOf (fun k => do
        if ← hasProperty id (.index k) then
          return if strictEquals (← getId id (.index k)) (i.arg 0) then some k else none
        else return none) (n - start) start
      match found with
      | some k => return .ofNat k
      | none => return .num (-1)
    | .lastIndexOf => do
      match ← lastStart i n with
      | none => return .num (-1)
      | some last => do
        let found ← firstOf (fun k => do
          let k := last - k
          if ← hasProperty id (.index k) then
            return if strictEquals (← getId id (.index k)) (i.arg 0) then some k else none
          else return none) (last + 1) 0
        match found with
        | some k => return .ofNat k
        | none => return .num (-1)
    | .join => do
      let separator ← if i.arg 0 matches .undefined then pure "," else toText (i.arg 0)
      return .str (← joinElements id n separator false)
    | .toLocaleString => return .str (← joinElements id n "," true)
    | .toString => do
      let join ← getNamed this "join"
      if ← isCallable join then call join this #[] else return .str (← objectText this)
    | .map => do
      let fn ← i.callback 0
      let result ← arraySpecies this n
      let r ← objectId result
      eachElement id n fn (i.arg 1) fun k _ answer => createData r (.index k) answer
      return result
    | .pop => do
      if n = 0 then
        putLength id 0
        return .undefined
      let v ← getId id (.index (n - 1))
      dropElement id (n - 1)
      putLength id (n - 1)
      return v
    | .push => pushAll id n i.args
    | .reduce | .reduceRight => do
      let fn ← i.callback 0
      let place (k : Nat) : Nat := if f matches .reduce then k else n - 1 - k
      let start ← if i.args.size ≥ 2 then pure (some (i.arg 1, 0)) else
        firstOf (fun k => do
          if ← hasProperty id (.index (place k)) then
            return some (← getId id (.index (place k)), k + 1)
          else return none) n 0
      match start with
      | none => throwType "empty array"
      | some (first, k) =>
        (List.range (n - k)).foldlM (fun acc j => do
          let p := place (k + j)
          if ← hasProperty id (.index p) then
            call fn .undefined #[acc, ← getId id (.index p), .ofNat p, this]
          else return acc) first
    | .reverse => do
      countUp (fun k => do
        let a ← if ← hasProperty id (.index k) then some <$> getId id (.index k) else pure none
        let j := n - 1 - k
        let b ← if ← hasProperty id (.index j) then some <$> getId id (.index j) else pure none
        match b with
        | some v => putElement id k v
        | none => dropElement id k
        match a with
        | some v => putElement id j v
        | none => dropElement id j) (n / 2) 0
      return this
    | .shift => do
      if n = 0 then
        putLength id 0
        return .undefined
      if ← look fun w => isDense (w.obj id) n then
        return ← update fun w => w.updateObj id behead
      let v ← getId id (.index 0)
      countUp (fun k => moveElement id (k + 1) k) (n - 1) 0
      dropElement id (n - 1)
      putLength id (n - 1)
      return v
    | .slice => do
      let start ← toPosition (i.arg 0) n 0
      let stop ← toPosition (i.arg 1) n n
      let result ← arraySpecies this (stop - start)
      let r ← objectId result
      countUp (fun k => do
        if ← hasProperty id (.index (start + k)) then
          createData r (.index k) (← getId id (.index (start + k)))) (stop - start) 0
      putLength r (stop - start)
      return result
    | .sort => do
      let present ← (List.range n).filterM fun k => hasProperty id (.index k)
      let values ← present.mapM fun k => getId id (.index k)
      let sorted ← sortedElements (i.arg 0) values
      let sorted := sorted.toArray
      countUp (fun k => putElement id k (argAt sorted k)) sorted.size 0
      countUp (fun k => dropElement id (sorted.size + k)) (n - sorted.size) 0
      return this
    | .splice => do
      let start ← toPosition (i.arg 0) n 0
      let count ← spliceCount i n start
      splice id n start count (i.args.extract 2 i.args.size)
    | .toReversed => do newArray (← elementsOf this n).reverse
    | .toSorted => do
      newArray (← sortedElements (i.arg 0) (← elementsOf this n).toList).toArray
    | .toSpliced => do
      let start ← toPosition (i.arg 0) n 0
      let count ← spliceCount i n start
      let items ← elementsOf this n
      newArray (items.extract 0 start ++ i.args.extract 2 i.args.size ++
        items.extract (start + count) n)
    | .unshift => do
      let count := i.args.size
      if ← look fun w => isDense (w.obj id) n then
        changeObject id (prependTo · i.args)
        return .ofNat (n + count)
      if count > 0 then
        countUp (fun k => moveElement id (n - 1 - k) (n - 1 - k + count)) n 0
        countUp (fun k => putElement id k (i.arg k)) count 0
      putLength id (n + count)
      return .ofNat (n + count)
    | .with => do
      let x ← toWhole (i.arg 0)
      let x := if x < 0 then Float.ofNat n + x else x
      if x < 0 || x ≥ Float.ofNat n then throwNew .range "out of bound"
      newArray ((← elementsOf this n).set! x.toUInt64.toNat (i.arg 1))
    | _ => return .undefined

end ScriptHost.Engine.Builtin
