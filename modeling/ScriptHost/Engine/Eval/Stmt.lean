import ScriptHost.Engine.Eval.Class
/-!
Statements. How one ends is its value: a jump is passed on outwards until the statement that it is
meant for. Something thrown is no ending but is thrown on.
-/

namespace ScriptHost.Engine

open Script (Expr Stmt Pattern Item Func Class Element DeclKind TryClauses)

section

variable (run : Runs) (c : Context)

/-! ## Blocks -/

/-- The variables that the statements of a block declare. -/
def blockVars (body : List Stmt) : List Binding :=
  (Script.lexicalOf body).map fun (name, changes) =>
    ⟨name, .absent, if changes then .let_ else .const_⟩

/-- Make the functions that a block declares. In sloppy code the variable of the function around the
block gets the function as well. -/
def hoistFunctions (outer : Option Nat) : List Func → M Unit
  | [] => pure ()
  | f :: fs => do
    let name := f.name.getD ""
    let v ← makeFunction c f name none
    initializeIn c.scope name v
    if let some scope := outer then
      if !f.info.strict && !f.info.isAsync && !f.info.isGenerator then
        assignVar { c with scope } name v
    hoistFunctions outer fs

/-- The scope of a block, with what it declares. -/
def enterBlock (body : List Stmt) : M Context := do
  let functions := Script.functionsOf body
  let vars := blockVars body
  if functions.isEmpty && vars.isEmpty then return c
  let names : List Binding := functions.filterMap fun f => f.name.map fun name =>
    ⟨name, .undefined, .let_⟩
  let scope ← newScope c.scope .plain (vars ++ names).toArray
  let inner := { c with scope }
  hoistFunctions inner (some c.scope) functions
  return inner

/-- Statements one after the other. -/
def evalStmts : List Stmt → M Flow
  | [] => pure .next
  | s :: ss => do
    match ← run c (.stmt s []) with
    | .next => evalStmts ss
    | flow => return flow

/-- The statements of a block. -/
def evalBlock (body : List Stmt) : M Flow := do
  let inner ← enterBlock c body
  evalStmts run inner body

/-- Declare variables with their first values. -/
def evalDeclarations (kind : DeclKind) : List Pattern → M Unit
  | [] => pure ()
  | p :: ps => do
    match p, kind with
    | .orElse (.name name) e, _ => do
      let v ← evalNamed run c e name
      if kind = .var then assignVar c name v else initializeIn c.scope name v
    | .orElse p e, _ => do
      let v ← run c (.expr e)
      run c (.bind (if kind = .var then .assign else .declare) p v)
    | .name name, .let_ | .name name, .const_ => initializeIn c.scope name .undefined
    | _, _ => pure ()
    evalDeclarations kind ps

/-! ## Loops -/

/-- What the end of a round means for its loop: whether it goes on, or how it ends. -/
def afterRound (labels : List String) : Flow → Option Flow
  | .next | .continue_ none => none
  | .continue_ (some l) => if labels.contains l then none else some (.continue_ (some l))
  | .break_ none => some .next
  | .break_ (some l) => some (if labels.contains l then .next else .break_ (some l))
  | .return_ v => some (.return_ v)

/-- A loop that asks before each round. -/
def evalWhile (test : Expr) (body : Stmt) (labels : List String) : Nat → M Flow
  | 0 => pure .next
  | n + 1 => do
    tick
    if !(← run c (.expr test)).truthy then return .next
    match afterRound labels (← run c (.stmt body [])) with
    | none => evalWhile test body labels n
    | some flow => return flow

/-- A loop that asks after each round. -/
def evalDoWhile (body : Stmt) (test : Expr) (labels : List String) : Nat → M Flow
  | 0 => pure .next
  | n + 1 => do
    tick
    match afterRound labels (← run c (.stmt body [])) with
    | none =>
      if (← run c (.expr test)).truthy then evalDoWhile body test labels n else return .next
    | some flow => return flow

/-- A scope with the same variables. -/
def copyScope (scope : Nat) : M Nat := update fun w =>
  match w.scopes[scope]? with
  | some s => (w.scopes.size, { w with scopes := w.scopes.push s })
  | none => (scope, w)

/-- The rounds of a loop with three parts. Each round has variables of its own, which is only seen
where a function kept those of the round before. -/
def evalRounds (test step : Expr) (body : Stmt) (labels : List String) (copies : Bool) :
    Nat → Nat → M Flow
  | 0, _ => pure .next
  | n + 1, scope => do
    tick
    let inner := { c with scope }
    let before ← look (·.captures)
    let goesOn ← if test.isAbsent then pure true else do pure (← run inner (.expr test)).truthy
    if !goesOn then return .next
    match afterRound labels (← run inner (.stmt body [])) with
    | none => do
      let after ← look (·.captures)
      let scope ← if copies && after != before then copyScope scope else pure scope
      unless step.isAbsent do discard (run { c with scope } (.expr step))
      evalRounds test step body labels copies n scope
    | some flow => return flow

/-- A loop with three parts. -/
def evalFor (start : Stmt) (test step : Expr) (body : Stmt) (labels : List String) : M Flow := do
  match start with
  | .decl .let_ ds | .decl .const_ ds => do
    let vars := blockVars [start]
    let scope ← newScope c.scope .plain vars.toArray
    let kind := match start with
      | .decl kind _ => kind
      | _ => .let_
    let before ← look (·.captures)
    evalDeclarations run { c with scope } kind ds
    let after ← look (·.captures)
    let copies := kind = .let_
    let scope ← if copies && after != before then copyScope scope else pure scope
    evalRounds run c test step body labels copies endless scope
  | .decl .var ds => do
    evalDeclarations run c .var ds
    evalRounds run c test step body labels false endless c.scope
  | .expr e => do
    discard (run c (.expr e))
    evalRounds run c test step body labels false endless c.scope
  | _ => evalRounds run c test step body labels false endless c.scope

/-- The variables that the head of a loop declares. -/
def headVars (kind : Option DeclKind) (target : Pattern) (value : Value) : List Binding :=
  match kind with
  | some .let_ => target.names.map fun name => ⟨name, value, .let_⟩
  | some .const_ => target.names.map fun name => ⟨name, value, .const_⟩
  | _ => []

/-- One round of a loop over values: the target gets the value, and the body is run. -/
def evalRound (kind : Option DeclKind) (target : Pattern) (body : Stmt) (v : Value) : M Flow := do
  match kind with
  | some .let_ | some .const_ => do
    let scope ← newScope c.scope .plain (headVars kind target .absent).toArray
    let inner := { c with scope }
    run inner (.bind .declare target v)
    run inner (.stmt body [])
  | _ => do
    run c (.bind .assign target v)
    run c (.stmt body [])

/-- The value that the head of a loop goes over; the variables of the loop cannot be used in it. -/
def evalHead (kind : Option DeclKind) (target : Pattern) (e : Expr) : M Value := do
  match kind with
  | some .let_ | some .const_ => do
    let scope ← newScope c.scope .plain (headVars kind target .absent).toArray
    run { c with scope } (.expr e)
  | _ => run c (.expr e)

/-- The names that a loop over an object visits: those of the object and of everything above it. -/
def visitedKeys : Nat → Value → List Key → M (List Key)
  | n + 1, .obj id, seen => do
    let keys := (← ownKeys id).filter fun k => !k.isSymbol && !seen.contains k
    let shown ← keys.filterM fun k => do return (← ownProperty id k).any Slot.enumerable
    let above ← getPrototype id
    return shown ++ (← visitedKeys n above (if above.isPrimitive then seen else keys ++ seen))
  | _, _, _ => pure []

/-- The rounds of a loop over names; a name that is gone meanwhile is left out. -/
def evalKeys (kind : Option DeclKind) (target : Pattern) (body : Stmt) (labels : List String)
    (id : Nat) : List Key → M Flow
  | [] => pure .next
  | k :: ks => do
    tick
    if ← hasProperty id k then
      match afterRound labels (← evalRound run c kind target body k.toValue) with
      | none => evalKeys kind target body labels id ks
      | some flow => return flow
    else evalKeys kind target body labels id ks

/-- A loop over the names of an object. -/
def evalForIn (kind : Option DeclKind) (target : Pattern) (e : Expr) (body : Stmt)
    (labels : List String) : M Flow := do
  let target ← match kind, target with
    | some .var, .orElse p e => do
      run c (.bind .assign p (← run c (.expr e)))
      pure p
    | _, p => pure p
  let v ← evalHead run c kind target e
  if v.isNothing then return .next
  match ← toObject v with
  | .obj id => do
    let keys ← visitedKeys reach (.obj id) []
    evalKeys run c kind target body labels id keys
  | _ => return .next

/-- The next value of an iterator, which may have to be waited for. -/
def nextOf (isAwait isSync : Bool) (it : Iterator) : M (Option Value) := do
  if !isAwait then it.step
  else
    let r ← call it.next it.iterator #[]
    let r ← if isSync then pure r else awaitValue r
    if r.isPrimitive then throwType "iterator must return an object"
    if (← getNamed r "done").truthy then return none
    let v ← getNamed r "value"
    return some (← if isSync then awaitValue v else pure v)

/-- Tell an iterator that it is left, and wait for what it says. -/
def leaveIterator (isAwait : Bool) (it : Iterator) : M Unit := do
  if !isAwait then it.close
  else if let some f ← methodOf it.iterator (.text "return") then
    let r ← awaitValue (← call f it.iterator #[])
    if r.isPrimitive then throwType "not an object"

/-- The rounds of a loop over the values of an iterator. -/
def evalValues (kind : Option DeclKind) (target : Pattern) (body : Stmt) (labels : List String)
    (isAwait isSync : Bool) (it : Iterator) : Nat → M Flow
  | 0 => pure .next
  | n + 1 => do
    tick
    match ← nextOf isAwait isSync it with
    | none => return .next
    | some v =>
      match ← outcome (evalRound run c kind target body v) with
      | .error .abort => raise .abort
      | .error t =>
        match ← outcome (leaveIterator isAwait it), t with
        | .error .abort, _ => raise .abort
        | .error t', .leave _ => raise t'
        | _, _ => raise t
      | .ok flow =>
        match afterRound labels flow with
        | none => evalValues kind target body labels isAwait isSync it n
        | some flow => do
          leaveIterator isAwait it
          return flow

/-- A loop over the values of an iterable. -/
def evalForOf (kind : Option DeclKind) (target : Pattern) (e : Expr) (body : Stmt) (isAwait : Bool)
    (labels : List String) : M Flow := do
  let v ← evalHead run c kind target e
  if isAwait then
    let method ← if v.isNothing then pure none else methodOf v WellKnown.asyncIterator.key
    match method with
    | some m => do
      evalValues run c kind target body labels true false (← iteratorBy v m) endless
    | none => do evalValues run c kind target body labels true true (← iteratorOf v) endless
  else do evalValues run c kind target body labels false true (← iteratorOf v) endless

/-! ## Other statements -/

/-- The first of the cases whose value is the one looked for, with everything behind it. -/
def matchingCase (v : Value) : List Stmt → M (Option (List Stmt))
  | [] => pure none
  | s :: rest => do
    match s with
    | .case test _ =>
      if test.isAbsent then matchingCase v rest
      else if strictEquals v (← run c (.expr test)) then return some (s :: rest)
      else matchingCase v rest
    | _ => matchingCase v rest

/-- The statements of cases. -/
def caseBodies (cases : List Stmt) : List Stmt := cases.flatMap fun s => match s with
  | .case _ body => body
  | _ => []

/-- A choice among cases. -/
def evalSwitch (e : Expr) (cases : List Stmt) (labels : List String) : M Flow := do
  let v ← run c (.expr e)
  let inner ← enterBlock c (caseBodies cases)
  let chosen ← match ← matchingCase run inner v cases with
    | some rest => pure rest
    | none => pure (cases.dropWhile fun s => match s with
        | .case test _ => !test.isAbsent
        | _ => true)
  match ← evalStmts run inner (caseBodies chosen) with
  | .break_ none => return .next
  | .break_ (some l) => return if labels.contains l then .next else .break_ (some l)
  | flow => return flow

/-- The block that handles what was thrown. -/
def evalHandler (param : Pattern) (hasParam : Bool) (handler : List Stmt) (v : Value) : M Flow := do
  if hasParam then
    let scope ← newScope c.scope .plain
      (param.names.map fun name => ⟨name, .absent, .let_⟩).toArray
    let inner := { c with scope }
    run inner (.bind .declare param v)
    run inner (.block handler)
  else run c (.block handler)

/-- A block with a handler, a final block, or both. What is aborted runs neither of them. -/
def evalTry (body : List Stmt) (param : Pattern) (handler final : List Stmt) (clauses : TryClauses) :
    M Flow := do
  let guarded : M Flow := do
    if clauses.handler then
      match ← outcome (run c (.block body)) with
      | .error (.value v) => evalHandler run c param clauses.param handler v
      | r => release r
    else run c (.block body)
  if !clauses.final then guarded
  else
    match ← outcome guarded with
    | .error .abort => raise .abort
    | r =>
      let kept ← look (·.result)
      match ← run c (.block final) with
      | .next => do
        if c.keeps then change fun w => { w with result := kept }
        release r
      | flow => return flow

/-- A statement with its labels. -/
def evalStmt (s : Stmt) (labels : List String) : M Flow := do
  match s with
  | .expr e => do
    keep c (← run c (.expr e))
    return .next
  | .decl kind ds => do
    evalDeclarations run c kind ds
    return .next
  | .func _ | .empty | .debugger | .erased _ => return .next
  | .klass k => do
    let name := k.name.getD ""
    initializeIn c.scope name (← run c (.klass k name))
    return .next
  | .ret e => do
    let v ← if e.isAbsent then pure .undefined else run c (.expr e)
    let v ← if c.isAsync && c.isGenerator then awaitValue v else pure v
    return .return_ v
  | .cond test yes no => do
    keep c .undefined
    if (← run c (.expr test)).truthy then run c (.stmt yes []) else run c (.stmt no [])
  | .for start test step body => do
    keep c .undefined
    evalFor run c start test step body labels
  | .forIn kind target e body => do
    keep c .undefined
    evalForIn run c kind target e body labels
  | .forOf kind target e body isAwait => do
    keep c .undefined
    evalForOf run c kind target e body isAwait labels
  | .while test body => do
    keep c .undefined
    evalWhile run c test body labels endless
  | .doWhile body test => do
    keep c .undefined
    evalDoWhile run c body test labels endless
  | .break label => return .break_ label
  | .continue label => return .continue_ label
  | .throw e => do throwValue (← run c (.expr e))
  | .try body param handler final clauses => do
    keep c .undefined
    evalTry run c body param handler final clauses
  | .switch e cases => do
    keep c .undefined
    evalSwitch run c e cases labels
  | .case _ body => run c (.stmts body)
  | .label name body => do
    match ← run c (.stmt body (name :: labels)) with
    | .break_ (some l) => return if l == name then .next else .break_ (some l)
    | flow => return flow
  | .block body => run c (.block body)
  | .with e body => do
    keep c .undefined
    match ← toObject (← run c (.expr e)) with
    | .obj id => do
      let scope ← newScope c.scope (.object id) #[]
      run { c with scope } (.stmt body [])
    | _ => return .next
  | _ => throwNew .syntaxError "unsupported keyword"

end

end ScriptHost.Engine
