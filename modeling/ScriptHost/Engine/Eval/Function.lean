import ScriptHost.Engine.Eval.Stmt
/-!
Calls of functions that scripts made, and the scripts themselves. Parameters are bound before anything
of the body runs; a body that can be suspended is only kept, and whoever drives it runs it.
-/

namespace ScriptHost.Engine

open Script (Expr Stmt Pattern Func FuncKind Source)

/-- What comes of a task that lies deeper than any text. -/
def skipTask {α : Type} (t : Task α) : M α :=
  match t with
  | .expr _ | .klass .. => pure .undefined
  | .reference _ => pure none
  | .stmt .. | .block _ | .stmts _ => pure .next
  | .bind .. => pure ()

/-- Do a task by its rule. -/
def performBy (inner : Runs) {α : Type} (c : Context) (t : Task α) : M α :=
  match t with
  | .expr e => evalExpr inner c e
  | .reference e => evalReference inner c e
  | .stmt s labels => evalStmt inner c s labels
  | .block body => evalBlock inner c body
  | .stmts body => evalStmts inner c body
  | .bind mode p v => bindPattern inner c mode p v
  | .klass k name => evalClass inner c k name

/-- Do a task that is at most so many rules deep. -/
def perform : Nat → Runs
  | 0 => fun _ t => skipTask t
  | n + 1 => fun c t => performBy (perform n) c t

/-- Do any task. -/
def run : Runs := perform endless

/-! ## Parameters and bodies -/

/-- Bind parameters to arguments. -/
def bindParameters (c : Context) : List Pattern → List Value → M Unit
  | [], _ => pure ()
  | p :: ps, args => do
    match p with
    | .rest q => do
      let v ← newArray args.toArray
      run c (.bind .declare q v)
    | p => do
      run c (.bind .declare p (args.headD .undefined))
      bindParameters c ps args.tail

/-- The parameters are names and nothing else. -/
def arePlain (params : List Pattern) : Bool := params.all Script.Pattern.isName

/-- The variables of plain parameters; the last one of a name counts. -/
def plainParameters : List Pattern → List Value → Array Binding → Array Binding
  | [], _, vars => vars
  | .name name :: ps, args, vars =>
    let v := args.headD .undefined
    let vars := match placeOf vars name vars.size 0 with
      | some i => alterAt vars i ({ · with value := v })
      | none => vars.push ⟨name, v, .var⟩
    plainParameters ps args.tail vars
  | _ :: ps, args, vars => plainParameters ps args.tail vars

/-- Declare what a body declares, in the scope at hand. -/
def enterBody (c : Context) (hoisted : Hoisted) (body : List Stmt) (skipArguments : Bool) :
    M Unit := do
  let lexical := blockVars body
  let names := hoisted.names.filter fun name =>
    !(skipArguments && name == "arguments") && !lexical.any (·.name == name)
  unless names.isEmpty && lexical.isEmpty do
    change fun w =>
      { w with scopes := alterAt w.scopes c.scope fun s =>
          let s := names.foldl (fun s name => s.declare name .var .undefined) s
          lexical.foldl (fun s b => s.declare b.name b.kind b.value) s }
  hoistFunctions c none hoisted.functions

/-- Bind the parameters of a call and declare what the body declares; where the body then runs. -/
def enterFunction (k : Closure) (activation : Nat) (args : Array Value) : M Context := do
  let info := k.func.info
  let params := k.func.params
  let isArrow := info.kind = .arrow
  let plain := arePlain params
  let aliased := if info.strict || !plain then [] else Script.Pattern.namesOfAll params
  let kind : ScopeKind :=
    if isArrow then .plain else .function activation aliased (info.strict || !plain)
  let c : Context :=
    { scope := 0, activation, strict := info.strict, isAsync := info.isAsync
      isGenerator := info.isGenerator }
  if plain then
    let scope ← newScope k.scope kind (plainParameters params args.toList #[])
    let c := { c with scope }
    enterBody c k.hoisted k.func.body (!isArrow)
    return c
  else
    let names := Script.Pattern.namesOfAll params
    let scope ← newScope k.scope kind (names.map fun name => ⟨name, .absent, .var⟩).toArray
    let c := { c with scope }
    bindParameters c params args.toList
    let vars ← look fun w => match w.scopes[scope]? with
      | some s => s.vars.filter fun b => k.hoisted.names.contains b.name
      | none => #[]
    let inner ← newScope scope .plain vars
    let c := { c with scope := inner }
    enterBody c k.hoisted k.func.body (!isArrow)
    return c

/-- Run a body. -/
def runBody (c : Context) (body : List Stmt) (exprBody : Bool) : M Value := do
  if exprBody then
    match body with
    | .ret e :: _ | .expr e :: _ => run c (.expr e)
    | _ => return .undefined
  else
    match ← run c (.stmts body) with
    | .return_ v => return v
    | _ => return .undefined

/-- What a call knows, as a number. -/
def newActivation (a : Activation) : M Nat :=
  update fun w => (w.activations.size, { w with activations := w.activations.push a })

/-- Give up the scopes and activations that were made since, unless something may have kept one. -/
def dropScopes (scopes activations captures : Nat) : M Unit := change fun w =>
  if w.captures = captures then
    { w with
      scopes := w.scopes.shrink scopes
      activations := w.activations.shrink activations }
  else w

/-- Run the body of a call, with everything that its parameters and its kind ask for. -/
def runCall (k : Closure) (activation : Nat) (f : Value) (args : Array Value) : M Value := do
  let info := k.func.info
  let coroutine (c : Context) : Coroutine := ⟨.fresh, k.func.body, info.exprBody, c⟩
  if info.isGenerator then
    keepScopes
    let c ← enterFunction k activation args
    let proto ← prototypeFor f (if info.isAsync then .asyncGenerator else .generator)
    let co := coroutine c
    allocate { proto, kind := if info.isAsync then .stream co [] else .coroutine co }
  else if info.isAsync then
    keepScopes
    match ← outcome (enterFunction k activation args) with
    | .ok c => startAsync (coroutine c)
    | .error (.value e) => do
      let promise ← plainPromise
      match promise with
      | .obj id => settlePromise id true e
      | _ => pure ()
      return promise
    | .error t => raise t
  else
    let c ← enterFunction k activation args
    runBody c k.func.body info.exprBody

/-- The object that a call is made on, as the function sees it. -/
def thisFor (k : Closure) (this : Value) : M Value := do
  if k.func.info.strict then return this
  match this with
  | .obj _ => return this
  | .undefined | .null | .absent => return .obj Intrinsic.global.id
  | v => toObject v

/-- Call a function of a script. -/
def callClosure (k : Closure) (f this : Value) (args : Array Value) : M Value := do
  if k.isClass then throwType "class constructors must be invoked with 'new'"
  let (scopes, activations, captures) ← look fun w =>
    (w.scopes.size, w.activations.size, w.captures)
  let activation ← if k.func.info.kind = .arrow then pure k.activation
    else newActivation ⟨← thisFor k this, f, .undefined, k.home, args⟩
  let v ← runCall k activation f args
  dropScopes scopes activations captures
  return v

/-- Call a function of a script by `new`. -/
def constructClosure (k : Closure) (f : Value) (args : Array Value) (newTarget : Value) :
    M Value := do
  let id := f.id?.getD 0
  if k.func.info.kind = .derivedConstructor then
    let activation ← newActivation ⟨.absent, f, newTarget, k.home, args⟩
    let c : Context := { scope := k.scope, activation, strict := true }
    if k.implicit then callParent run c args
    else
      match ← runCall k activation f args with
      | .obj v => return .obj v
      | .undefined => thisOf c
      | _ => throwType "derived class constructor must return an object or undefined"
  else
    let proto ← prototypeFor newTarget .object
    let this ← allocate { proto }
    if k.isClass then initializeFields run id this
    if k.implicit then return this
    let activation ← newActivation ⟨this, f, newTarget, k.home, args⟩
    match ← runCall k activation f args with
    | .obj v => return .obj v
    | _ => return this

/-- Run the body of a coroutine from its start. -/
def runCoroutine (co : Coroutine) : M Value := do
  runBody co.context co.body co.exprBody

/-! ## Scripts -/

/-- The scope that all scripts share. -/
def globalScope : Nat := 0

/-- A name may not be declared by a further script. -/
def redeclared {α : Type} (name : String) : M α :=
  throwNew .syntaxError ("redeclaration of '" ++ name ++ "'")

/-- The names that a script declares do not collide with what there is. -/
def checkDeclarations (lexical : List Binding) (names : List String) : M Unit := do
  let known (w : World) (name : String) : Bool := match w.scopes[globalScope]? with
    | some s => (placeOf s.vars name s.vars.size 0).isSome
    | none => false
  (lexical.map (·.name)).forM fun name => do
    if ← look (known · name) then redeclared name
    let own ← look fun w => (w.obj Intrinsic.global.id).own? (.ofText name)
    if own.any (!·.configurable) then redeclared name
  names.forM fun name => do
    if ← look (known · name) then redeclared name

/-- Make the variables of a script properties of the global object. -/
def declareGlobals (c : Context) (functions : List Func) (names : List String) : M Unit := do
  let global := Intrinsic.global.id
  names.forM fun name => do
    let key := Key.ofText name
    let own ← look fun w => (w.obj global).own? key
    if own.isNone then
      changeObject global (·.put key (.data .undefined ⟨true, true, false⟩))
  functions.forM fun f => do
    let name := f.name.getD ""
    let key := Key.ofText name
    let v ← makeFunction c f name none
    let own ← look fun w => (w.obj global).own? key
    let d : Wanted := match own with
      | some s => if s.configurable then .ofSlot (.data v ⟨true, true, false⟩) else { value := some v }
      | none => .ofSlot (.data v ⟨true, true, false⟩)
    unless ← defineProperty global key d do
      throwType ("cannot define variable '" ++ name ++ "'")

/-- Run a script that was read; the value of its last statement that has one. -/
def runSource (s : Source) (strict : Bool) : M Value := do
  let c : Context :=
    { scope := globalScope, activation := 0, strict := strict || s.strict, keeps := true }
  let lexical := blockVars s.body
  let hoisted := hoistedOf s.body
  let functions := hoisted.functions
  let names := hoisted.names.filter fun name => !lexical.any (·.name == name)
  let functionNames := functions.filterMap Script.Func.name
  checkDeclarations lexical ((names ++ functionNames).eraseDups)
  change fun w =>
    { w with scopes := alterAt w.scopes globalScope fun s =>
        lexical.foldl (fun s b => s.declare b.name b.kind b.value) s }
  declareGlobals c functions (names.filter fun name => !functionNames.contains name)
  let kept ← look (·.result)
  change fun w => { w with result := .undefined, scripts := w.scripts + 1 }
  let r ← outcome (run c (.stmts s.body))
  let v ← look (·.result)
  change fun w => { w with result := kept, scripts := w.scripts - 1 }
  match r with
  | .ok _ => return v
  | .error t => raise t

end ScriptHost.Engine
