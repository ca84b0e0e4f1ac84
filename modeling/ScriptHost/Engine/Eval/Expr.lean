import ScriptHost.Engine.Eval.Basic
/-!
Expressions. Operands are evaluated from left to right; what may be a call keeps the object it was
found on; an optional chain stops as a whole where it meets nothing.
-/

namespace ScriptHost.Engine

open Script (Expr Stmt Pattern Item Func Class Element Link DeclKind Chunk)

section

variable (run : Runs) (c : Context)

/-! ## Lists of values -/

/-- The values of arguments. -/
def evalItems : List Item → Array Value → M (Array Value)
  | [], acc => pure acc
  | item :: rest, acc => do
    match item with
    | .one e => do
      let v ← run c (.expr e)
      evalItems rest (acc.push v)
    | .spread e => do
      let vs ← listOf (← run c (.expr e))
      evalItems rest (acc ++ vs)
    | .hole => evalItems rest (acc.push .absent)
    | _ => evalItems rest acc

/-- The members of an object. -/
def evalMembers (id : Nat) : List Item → M Unit
  | [] => pure ()
  | item :: rest => do
    match item with
    | .short name => do
      createData id (.ofText name) (← lookupVar c name)
    | .pair computed key value => do
      let isPrototype := !computed && match key with
        | .ident name => name == "__proto__"
        | .str name _ => name == "__proto__"
        | _ => false
      if isPrototype then
        match ← run c (.expr value) with
        | .null => changeObject id ({ · with proto := .null })
        | .obj p => changeObject id ({ · with proto := .obj p })
        | _ => pure ()
      else
        let k ← memberKey run c computed key
        let v ← if isAnonymous value then evalNamed run c value (← keyName k)
          else run c (.expr value)
        createData id k v
    | .method computed key f => do
      let k ← memberKey run c computed key
      let name ← keyName k
      match f.info.kind with
      | .getter => do
        let g ← makeFunction c f ("get " ++ name) (some id)
        discard (defineProperty id k
          { get := some g, enumerable := some true, configurable := some true })
      | .setter => do
        let s ← makeFunction c f ("set " ++ name) (some id)
        discard (defineProperty id k
          { set := some s, enumerable := some true, configurable := some true })
      | _ => do createData id k (← makeFunction c f name (some id))
    | .spread e => do copyProperties (← run c (.expr e)) [] id
    | _ => pure ()
    evalMembers id rest

/-- The text of a template. -/
def evalTemplate : List Chunk → List Expr → String → M String
  | [], _, acc => pure acc
  | chunk :: chunks, holes, acc => do
    let acc ← concatTexts acc (chunk.cooked.getD "")
    match holes with
    | [] => return acc
    | e :: holes => do
      let v ← run c (.expr e)
      evalTemplate chunks holes (← concatTexts acc (← toText v))

/-- The pieces of a template as the array that its tag is given. -/
def templateObject (chunks : List Chunk) : M Value := do
  let frozen (items : Array Value) (extra : Table) : M Value :=
    let props := (items.foldl (fun (t, i) v =>
      (Table.insert t (.index i) (.data v ⟨false, true, false⟩), i + 1)) (extra, 0)).1
    allocate
      { proto := .obj Intrinsic.array.id, props, extensible := false,
        kind := .array #[] items.size true true }
  let raw ← frozen ((chunks.map fun p => Value.str (Text.ofString p.raw)).toArray) {}
  let cooked : List Value := chunks.map fun p => match p.cooked with
    | some s => .str s
    | none => .undefined
  frozen cooked.toArray (Table.insert {} (.text "raw") (.data raw .frozen))

/-! ## Accesses and calls -/

/-- A value together with the object it was found on; nothing where an optional chain stops. -/
def evalReference (e : Expr) : M (Option (Value × Value)) := do
  match e with
  | .paren e | .typed e | .nonNull e => run c (.reference e)
  | .chain e =>
    match ← run c (.reference e) with
    | some r => return some r
    | none => return some (.undefined, .undefined)
  | .ident name => do
    let v ← lookupVar c name
    return some (← withBase name reach c.scope, v)
  | .dot o name link =>
    match ← run c (.reference o) with
    | none => return none
    | some (_, base) =>
      if link = .optional && base.isNothing then return none
      return some (base, ← getOf base (.ofText name))
  | .index o e link =>
    match ← run c (.reference o) with
    | none => return none
    | some (_, base) =>
      if link = .optional && base.isNothing then return none
      let key ← run c (.expr e)
      return some (base, ← elementOf base key)
  | .privateDot o name link =>
    match ← run c (.reference o) with
    | none => return none
    | some (_, base) =>
      if link = .optional && base.isNothing then return none
      let k ← memberKey run c false (.privateName name)
      return some (base, ← readHidden base name k)
  | .superDot name => do
    let this ← thisOf c
    return some (this, ← readInherited (← parentOf c) this (.ofText name))
  | .superIndex e => do
    let this ← thisOf c
    let key ← toKey (← run c (.expr e))
    return some (this, ← readInherited (← parentOf c) this key)
  | .call callee args link =>
    match ← run c (.reference callee) with
    | none => return none
    | some (this, f) =>
      if link = .optional && f.isNothing then return none
      let args ← evalItems run c args #[]
      return some (.undefined, ← call f this args)
  | e => return some (.undefined, ← run c (.expr e))

/-- Do for a new object what its class does for each. -/
def initializeFields (f : Nat) (this : Value) : M Unit := do
  match (← objectOf f).kind, this with
  | .closure k, .obj id =>
    k.fields.toList.forM fun field => do
      match field with
      | .slot key slot =>
        if ((← objectOf id).own? key).isSome then throwType "private method is already present"
        changeObject id (·.put key slot)
      | .value key e scope => do
        let activation ← update fun w =>
          (w.activations.size,
            { w with
              captures := w.captures + 1
              activations := w.activations.push ⟨this, .obj f, .undefined, k.home, #[]⟩ })
        let inner : Context := { scope, activation, strict := true }
        let v ← if e.isAbsent then pure .undefined
          else if isAnonymous e then evalNamed run inner e (← keyName key)
          else run inner (.expr e)
        match key with
        | .priv _ =>
          if ((← objectOf id).own? key).isSome then throwType "private class field already exists"
          changeObject id (·.put key (.data v ⟨true, false, false⟩))
        | _ => createData id key v
  | _, _ => return

/-- Call the parent of a derived class; its object becomes `this`. -/
def callParent (args : Array Value) : M Value := do
  let a ← activationOf c
  match a.func with
  | .obj f => do
    let parent ← getPrototype f
    unless ← isConstructor parent do throwType "not a constructor"
    let r ← construct parent args a.newTarget
    let a ← activationOf c
    unless a.this matches .absent do throwNew .reference "'this' can be initialized only once"
    change fun w =>
      { w with activations := alterAt w.activations c.activation ({ · with this := r }) }
    initializeFields run f r
    return r
  | _ => throwNew .syntaxError "super() is only valid in a derived class constructor"

/-! ## Operators -/

/-- Take away what an expression names; whether it is gone. -/
def evalDelete (e : Expr) : M Value := do
  let finish (o : Value) (k : Key) : M Value := do
    match ← toObject o with
    | .obj id => do
      let done ← deleteProperty id k
      if !done && c.strict then throwType "could not delete property"
      return .bool done
    | _ => return .bool true
  match e with
  | .ident name => return .bool (← deleteFrom name reach c.scope)
  | .dot o name link =>
    match ← run c (.reference o) with
    | none => return .bool true
    | some (_, base) =>
      if link = .optional && base.isNothing then return .bool true
      finish base (.ofText name)
  | .index o e link =>
    match ← run c (.reference o) with
    | none => return .bool true
    | some (_, base) =>
      if link = .optional && base.isNothing then return .bool true
      let key ← run c (.expr e)
      finish base (← toKey key)
  | .superDot _ | .superIndex _ => throwNew .reference "unsupported reference to 'super'"
  | e => do
    discard (run c (.reference e))
    return .bool true

/-- What `delete` is applied to, without what does not count. -/
def bareOperand : Expr → Expr
  | .paren e | .typed e | .nonNull e | .chain e => bareOperand e
  | e => e

/-- A unary operator applied to an expression. -/
def evalUnary (op : String) (e : Expr) : M Value := do
  match op with
  | "typeof" =>
    match bareOperand e with
    | .ident name =>
      match ← lookupFrom name reach c.scope with
      | some v => return .str (← typeOf v)
      | none => return .str "undefined"
    | _ => return .str (← typeOf (← run c (.expr e)))
  | "void" => do
    discard (run c (.expr e))
    return .undefined
  | "delete" => evalDelete run c (bareOperand e)
  | op => unaryOperator op (← run c (.expr e))

/-- A logical operator whose left side is known; the right side is only evaluated when it counts. -/
def needsRight (op : String) (v : Value) : Bool :=
  match op with
  | "&&" => v.truthy
  | "||" => !v.truthy
  | _ => v.isNothing

/-- The operator of a combined assignment. -/
def combined (op : String) : String := (op.dropEnd 1).toString

/-- An assignment that combines the old value with another one. -/
def evalCombined (op : String) (target : Pattern) (value : Expr) : M Value := do
  let place ← match target with
    | .name name => pure (Place.var name)
    | .expr e => do (← placeOfExpr run c (bareTarget e)).settled
    | _ => throwNew .syntaxError "invalid assignment left-hand side"
  let old ← place.read c
  let op := combined op
  if op == "&&" || op == "||" || op == "??" then
    if needsRight op old then
      let v ← match place with
        | .var name => evalNamed run c value name
        | _ => run c (.expr value)
      place.write c v
      return v
    else return old
  else
    let operand ← run c (.expr value)
    let v ← binaryOperator op old operand
    place.write c v
    return v

/-- A simple assignment. -/
def evalAssign (target : Pattern) (value : Expr) : M Value := do
  match target with
  | .name name => do
    let v ← evalNamed run c value name
    assignVar c name v
    return v
  | .expr e =>
    match bareTarget e with
    | .ident name => do
      let v ← run c (.expr value)
      assignVar c name v
      return v
    | e => do
      let place ← placeOfExpr run c e
      let v ← run c (.expr value)
      place.write c v
      return v
  | p => do
    let v ← run c (.expr value)
    run c (.bind .assign p v)
    return v

/-- One more or one less. -/
def evalUpdate (op : String) (before : Bool) (target : Expr) : M Value := do
  let place ← (← placeOfExpr run c (bareTarget target)).settled
  let old ← toNumeric (← place.read c)
  let new := stepNumber op old
  place.write c new
  return if before then new else old

/-! ## Suspending -/

/-- Wait for a value. -/
def awaitValue (v : Value) : M Value := suspend true v

/-- Hand out a value from a generator. -/
def yieldValue (v : Value) : M Value := do
  if c.isAsync then
    let v ← awaitValue v
    match ← outcome (suspend false v) with
    | .error (.leave v) => do
      match ← outcome (awaitValue v) with
      | .ok v => raise (.leave v)
      | .error t => raise t
    | r => release r
  else suspend false v

/-- What an inner iterator answered, as an object. -/
def innerStep (r : Value) : M Value := do
  let r ← if c.isAsync then awaitValue r else pure r
  if r.isPrimitive then throwType "iterator must return an object"
  return r

/-- Hand out everything that an inner iterator gives, and pass on what comes back. -/
def delegate (it : Iterator) : Nat → Except Thrown Value → M Value
  | 0, _ => pure .undefined
  | n + 1, received => do
    let goOn (r : Value) : M Value := do
      if (← getNamed r "done").truthy then getNamed r "value"
      else
        let v ← getNamed r "value"
        delegate it n (← outcome (suspend false v))
    match received with
    | .ok v => do
      goOn (← innerStep c (← call it.next it.iterator #[v]))
    | .error (.value e) =>
      match ← methodOf it.iterator (.text "throw") with
      | some f => do goOn (← innerStep c (← call f it.iterator #[e]))
      | none => do
        it.close
        throwType "iterator does not have a throw method"
    | .error (.leave v) =>
      match ← methodOf it.iterator (.text "return") with
      | some f => do
        let r ← innerStep c (← call f it.iterator #[v])
        if (← getNamed r "done").truthy then raise (.leave (← getNamed r "value"))
        else
          let v ← getNamed r "value"
          delegate it n (← outcome (suspend false v))
      | none => raise (.leave v)
    | .error .abort => raise .abort

/-- The asynchronous iterator of an iterable, or the plain one where there is none. -/
def asyncIteratorOf (v : Value) : M Iterator := do
  let method ← if v.isNothing then pure none else methodOf v WellKnown.asyncIterator.key
  match method with
  | some m => iteratorBy v m
  | none => iteratorOf v

/-! ## All expressions -/

/-- A function expression; its own name is a variable inside it. -/
def evalFunction (f : Func) : M Value := do
  match f.name with
  | none => makeFunction c f "" none
  | some name => do
    let scope ← newScope c.scope .plain #[⟨name, .absent, .own⟩]
    let v ← makeFunction { c with scope } f name none
    initializeIn scope name v
    return v

/-- The values of expressions one after the other; the last one counts. -/
def evalSequence : List Expr → Value → M Value
  | [], last => pure last
  | e :: es, _ => do evalSequence es (← run c (.expr e))

/-- The value of an expression. -/
def evalExpr (e : Expr) : M Value := do
  match e with
  | .absent => return .undefined
  | .ident name => lookupVar c name
  | .null => return .null
  | .bool b => return .bool b
  | .this => thisOf c
  | .num x _ => return .num x
  | .big n _ => return .big n
  | .str s _ => return .str s
  | .regex body flags => newPattern body flags
  | .template chunks holes => return .str (← evalTemplate run c chunks holes "")
  | .tagged tag chunks holes =>
    match ← run c (.reference tag) with
    | none => return .undefined
    | some (this, f) => do
      let object ← templateObject chunks
      let args ← evalItems run c (holes.map Item.one) #[object]
      call f this args
  | .array items => do newArray (← evalItems run c items #[])
  | .object members => do
    let v ← newObject
    match v with
    | .obj id => evalMembers run c id members
    | _ => pure ()
    return v
  | .func f => evalFunction c f
  | .klass k => run c (.klass k "")
  | .unary op e => evalUnary run c op e
  | .update op before target => evalUpdate run c op before target
  | .binary op a b => do
    let x ← run c (.expr a)
    let y ← run c (.expr b)
    binaryOperator op x y
  | .logical op a b => do
    let v ← run c (.expr a)
    if needsRight op v then run c (.expr b) else return v
  | .assign op target value =>
    if op == "=" then evalAssign run c target value else evalCombined run c op target value
  | .cond test yes no => do
    if (← run c (.expr test)).truthy then run c (.expr yes) else run c (.expr no)
  | .call .. | .superDot _ | .superIndex _ | .privateDot .. => do
    match ← evalReference run c e with
    | some (_, v) => return v
    | none => return .undefined
  | .new callee args _ => do
    let f ← run c (.expr callee)
    let args ← evalItems run c args #[]
    construct f args f
  | .dot o name _ => do
    let base ← run c (.expr o)
    getOf base (.ofText name)
  | .index o e _ => do
    let base ← run c (.expr o)
    let key ← run c (.expr e)
    elementOf base key
  | .superCall args => do
    let args ← evalItems run c args #[]
    callParent run c args
  | .chain e =>
    match ← run c (.reference e) with
    | some (_, v) => return v
    | none => return .undefined
  | .seq es => evalSequence run c es .undefined
  | .yield false arg => do yieldValue c (← run c (.expr arg))
  | .yield true arg => do
    let v ← run c (.expr arg)
    let it ← if c.isAsync then asyncIteratorOf v else iteratorOf v
    delegate c it endless (.ok .undefined)
  | .await e => do awaitValue (← run c (.expr e))
  | .importCall args => do
    let vs ← evalItems run c args #[]
    let promise ← plainPromise
    match promise, ← outcome (toText (argAt vs 0)) with
    | .obj id, .ok name =>
      match ← outcome (throwNew (α := Unit) .reference
          ("could not load module filename '" ++ name ++ "'")) with
      | .error (.value e) => settlePromise id true e
      | _ => pure ()
    | .obj id, .error (.value e) => settlePromise id true e
    | _, r => discard (release r)
    return promise
  | .newTarget => return (← activationOf c).newTarget
  | .importMeta => throwNew .syntaxError "import.meta is only valid in a module"
  | .privateIn name e => do
    match ← run c (.expr e) with
    | .obj id => do
      let k ← memberKey run c false (.privateName name)
      return .bool ((← objectOf id).own? k).isSome
    | _ => throwType "invalid 'in' operand"
  | .privateName _ => return .undefined
  | .paren e | .typed e | .nonNull e | .pure e => run c (.expr e)

end

end ScriptHost.Engine
