import ScriptHost.Script.Names
/-!
Scripts that are well formed and refused all the same, before any of their code runs: names that are
declared twice, private names on their own, parents called outside of constructors. The first offence
in the order of the text counts; a private name that no class around it declares counts only when there
is no other offence.
-/

namespace ScriptHost.Script.Early

/-- The names of an open block: those declared in it with a mark on functions, the variables of the
function that are declared in it or inside it, and what a `catch` around it binds. -/
structure Block where
  lexical : List (String × Bool) := []
  inner : List String := []
  caught : List String := []

/-- Where in a script the walk is, innermost block first. -/
structure Place where
  blocks : List Block
  params : List String
  isScript : Bool
  strict : Bool
  derived : Bool := false
  /-- The private names of the classes around. -/
  privates : List String := []
  /-- The first private name that no class around it declares. -/
  unknown : Option String := none

/-- A walk that ends at the first offence. -/
abbrev Walk := EStateM String Place

/-- The text of a refused redeclaration in a block. -/
def lexicalTwice : String := "invalid redefinition of lexical identifier"

/-- Declare a variable of the function. -/
def declareVar (name : String) : Walk Unit := do
  let p ← get
  if p.blocks.any fun b => b.lexical.any (·.1 = name) then throw lexicalTwice
  let note (b : Block) : Block := { b with inner := name :: b.inner }
  set { p with blocks := p.blocks.map note }

/-- Declare a name of the innermost block. -/
def declareLexical (isFunction : Bool) (name : String) : Walk Unit := do
  let p ← get
  match p.blocks with
  | [] => return
  | b :: outer =>
    if b.caught.contains name then throw lexicalTwice
    match b.lexical.lookup name with
    | some wasFunction => unless isFunction && wasFunction && !p.strict do throw lexicalTwice
    | none => pure ()
    if !isFunction && outer.isEmpty && p.params.contains name then
      throw "invalid redefinition of parameter name"
    if b.inner.contains name then
      throw (if p.isScript then "invalid redefinition of global identifier"
        else "invalid redefinition of a variable")
    set { p with blocks := { b with lexical := (name, isFunction) :: b.lexical } :: outer }

/-- Declare what the head of a loop over something declares. -/
def declareEach (kind : Option DeclKind) (names : List String) : Walk Unit :=
  match kind with
  | some .var => names.forM declareVar
  | some _ => names.forM (declareLexical false)
  | none => return

/-- Walk inside a further block. -/
def inBlock (m : Walk Unit) : Walk Unit := do
  modify fun p => { p with blocks := {} :: p.blocks }
  m
  modify fun p => { p with blocks := p.blocks.tail }

/-- Walk inside a function. -/
def inFunction (params : List String) (strict derived : Bool) (m : Walk Unit) : Walk Unit := do
  let p ← get
  set { p with blocks := [{}], params, isScript := false, strict, derived }
  m
  modify fun q => { p with unknown := q.unknown }

/-- Walk inside a class that declares private names. -/
def inClass (names : List String) (m : Walk Unit) : Walk Unit := do
  let outer := (← get).privates
  modify fun p => { p with privates := names ++ outer }
  m
  modify fun p => { p with privates := outer }

/-- Use a private name. -/
def usePrivate (name : String) : Walk Unit :=
  modify fun p => { p with unknown := p.unknown <|>
    (if p.privates.contains name then none else some name) }

/-- Note what a `catch` binds; patterns are declared like other names. -/
def catches (names : List String) (plain : Bool) : Walk Unit :=
  modify fun p => { p with blocks := match p.blocks with
    | b :: outer =>
      { b with
        caught := names
        lexical := if plain then b.lexical else names.map (·, false) ++ b.lexical } :: outer
    | [] => [] }

/-- A name occurs twice. -/
def hasTwice : List String → Bool
  | [] => false
  | s :: rest => rest.contains s || hasTwice rest

/-- What an element of a class declares privately: the name, the half of a pair of functions that it is,
and whether it belongs to the class itself. -/
def privateOf : Element → Option (String × Option FuncKind × Bool)
  | .method isStatic false (.privateName name) f _ =>
    let kind := f.info.kind
    some (name, if kind = .getter || kind = .setter then some kind else none, isStatic)
  | .field isStatic false (.privateName name) .. | .accessor isStatic false (.privateName name) .. =>
    some (name, none, isStatic)
  | _ => none

/-- Two declarations of one private name go together: the halves of one pair of functions. -/
def arePair : Option FuncKind × Bool → Option FuncKind × Bool → Bool
  | (some a, s), (some b, t) => a ≠ b && s = t
  | _, _ => false

/-- The private name of an element is taken by the elements before it. -/
def isTaken (before : List Element) (e : Element) : Bool :=
  match privateOf e with
  | none => false
  | some (name, half) =>
    let others := (before.filterMap privateOf).filter (·.1 = name)
    match others with
    | [] => false
    | [other] => !arePair other.2 half
    | _ => true

/-- The object names its prototype twice. -/
def protoTwice (items : List Item) : Bool :=
  1 < items.countP fun i => match i with
    | .pair false (.ident "__proto__") _ | .pair false (.str "__proto__" _) _ => true
    | _ => false

mutual

/-- Walk through an expression. -/
def expr : Expr → Walk Unit
  | .privateName name => throw ("unexpected token in expression: '#" ++ name ++ "'")
  | .template _ holes => exprs holes
  | .tagged tag _ holes => do expr tag; exprs holes
  | .array xs => items xs
  | .object xs => do
    items xs
    if protoTwice xs then throw "duplicate __proto__ property name"
  | .func f => func f
  | .klass c => klass c
  | .unary _ e | .update _ _ e | .await e | .yield _ e | .paren e | .typed e | .nonNull e | .chain e | .pure e
  | .dot e _ _ | .superIndex e => expr e
  | .privateDot e name _ => do expr e; usePrivate name
  | .privateIn name e => do usePrivate name; expr e
  | .binary _ a b | .logical _ a b | .index a b _ => do expr a; expr b
  | .assign _ target value => do pattern target; expr value
  | .cond a b c => do expr a; expr b; expr c
  | .call f args _ | .new f args _ => do expr f; items args
  | .superCall args => do
    unless (← get).derived do throw "super() is only valid in a derived class constructor"
    items args
  | .importCall args => do
    if args.isEmpty then throw "unexpected token in expression: ')'"
    items args
  | .seq es => exprs es
  | _ => return

/-- Walk through expressions; a comma needs something behind it. -/
def exprs : List Expr → Walk Unit
  | [] => return
  | .absent :: _ => throw "unexpected token in expression: ')'"
  | e :: es => do expr e; exprs es

/-- Walk through an item. -/
def item : Item → Walk Unit
  | .one e | .spread e | .cover _ e => expr e
  | .pair computed key value => do
    if computed then expr key
    expr value
  | .method computed key f => do
    if computed then expr key
    func f
  | _ => return

/-- Walk through items. -/
def items : List Item → Walk Unit
  | [] => return
  | i :: is => do item i; items is

/-- Walk through a pattern. -/
def pattern : Pattern → Walk Unit
  | .expr e => expr e
  | .array ps => patterns ps
  | .object ps => patterns ps
  | .orElse p e => do pattern p; expr e
  | .rest p => pattern p
  | .pair computed key p => do
    if computed then expr key
    pattern p
  | .short _ e => expr e
  | .property p => pattern p
  | _ => return

/-- Walk through patterns. -/
def patterns : List Pattern → Walk Unit
  | [] => return
  | p :: ps => do pattern p; patterns ps

/-- Walk through a function. -/
def func : Func → Walk Unit
  | .mk _ params body info => do
    let names := Pattern.namesOfAll params
    let derived := info.kind = .derivedConstructor || (info.kind = .arrow && (← get).derived)
    inFunction names info.strict derived do
      patterns params
      if hasTwice names && (info.strict || info.kind ≠ .plain || !params.all Pattern.isName) then
        throw "duplicate argument names not allowed in this context"
      stmts true body

/-- Walk through a class. -/
def klass : Class → Walk Unit
  | .mk _ parent es _ _ => do
    expr parent
    inClass ((es.filterMap privateOf).map (·.1)) (elements [] es)

/-- Walk through elements of a class, behind others of it. -/
def elements (before : List Element) : List Element → Walk Unit
  | [] => return
  | e :: es => do
    if isTaken before e then throw "private class field is already defined"
    element e
    elements (e :: before) es

/-- Walk through an element of a class. -/
def element : Element → Walk Unit
  | .method _ computed key f _ => do
    if computed then expr key
    func f
  | .field _ computed key value _ | .accessor _ computed key value _ => do
    if computed then expr key
    inFunction [] true false (expr value)
  | .block body => inFunction [] true false (stmts true body)
  | .empty => return

/-- Walk through a statement; whether it is one of the body of a function. -/
def stmt (top : Bool) : Stmt → Walk Unit
  | .expr e | .throw e | .ret e => expr e
  | .decl kind ds => do
    declared kind ds
  | .func f => do
    match f.name with
    | some name => if top then declareVar name else declareLexical true name
    | none => pure ()
    func f
  | .klass c => do
    match c.name with
    | some name => declareLexical false name
    | none => pure ()
    klass c
  | .cond test yes no => do
    expr test
    inBlock (stmt false yes)
    inBlock (stmt false no)
  | .for start test step body =>
    inBlock do
      stmt false start
      expr test
      expr step
      inBlock (stmt false body)
  | .forIn kind target e body =>
    inBlock do
      pattern target
      declareEach kind target.names
      expr e
      inBlock (stmt false body)
  | .forOf kind target e body _ =>
    inBlock do
      pattern target
      declareEach kind target.names
      expr e
      inBlock (stmt false body)
  | .while test body => do
    expr test
    inBlock (stmt false body)
  | .doWhile body test => do
    inBlock (stmt false body)
    expr test
  | .try body param handler final _ => do
    inBlock (stmts false body)
    inBlock do
      pattern param
      catches param.names param.isName
      stmts false handler
    inBlock (stmts false final)
  | .switch e cases => do
    expr e
    inBlock (stmts false cases)
  | .case test body => do
    expr test
    stmts false body
  | .label _ body => stmt top body
  | .block body => inBlock (stmts false body)
  | .with e body => do
    expr e
    inBlock (stmt false body)
  | _ => return

/-- Walk through declared variables, one after the other. -/
def declared (kind : DeclKind) : List Pattern → Walk Unit
  | [] => return
  | p :: ps => do
    pattern p
    if kind = .var then p.names.forM declareVar else p.names.forM (declareLexical false)
    declared kind ps

/-- Walk through statements. -/
def stmts (top : Bool) : List Stmt → Walk Unit
  | [] => return
  | s :: ss => do stmt top s; stmts top ss

end

/-- What is wrong with a script, if anything is. -/
def offence (source : Source) : Option String :=
  let start : Place :=
    { blocks := [{}], params := [], isScript := true, strict := source.strict }
  match stmts true source.body start with
  | .ok _ p => p.unknown.map fun name => "undefined private field '#" ++ name ++ "'"
  | .error text _ => some text

end ScriptHost.Script.Early
