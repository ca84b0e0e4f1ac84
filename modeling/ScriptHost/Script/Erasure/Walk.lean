import ScriptHost.Script.Erasure.Pieces
/-!
The walk that takes the types out of a tree. Annotations and the parentheses around expressions go,
accesses to members of enumerations whose values are known become the values, and the names that are
used are noted on the way.
-/

namespace ScriptHost.Script

mutual

/-- Erase in an expression; one that is assigned to stays an access. -/
def Expr.erase (s : Scope) (assigned : Bool) : Expr → Erase Expr
  | .ident name => useName s name
  | .template chunks holes => return .template chunks (← Expr.eraseAll s holes)
  | .tagged tag chunks holes =>
    return .tagged (← tag.erase s false) chunks (← Expr.eraseAll s holes)
  | .array xs => return .array (← Item.eraseAll s xs)
  | .object ms => return .object (← Item.eraseAll s ms)
  | .func f => return .func (← f.erase s)
  | .klass c => return .klass (← c.erase s)
  | .unary op e => return .unary op (← e.erase s false)
  | .update op before e => return .update op before (← e.erase s true)
  | .binary op a b => return .binary op (← a.erase s false) (← b.erase s false)
  | .logical op a b => return .logical op (← a.erase s false) (← b.erase s false)
  | .assign op target value => return .assign op (← target.erase s false) (← value.erase s false)
  | .cond a b c => return .cond (← a.erase s false) (← b.erase s false) (← c.erase s false)
  | .call f args link => return .call (← f.erase s false) (← Item.eraseAll s args) link
  | .new f args hasArgs => return .new (← f.erase s false) (← Item.eraseAll s args) hasArgs
  | .dot o name link =>
    match link, s.member? o name, assigned with
    | .plain, some v, false => return v
    | _, _, _ => return .dot (← o.erase s false) name link
  | .index o e link => do
    let key ← e.erase s false
    match link, memberNamed key >>= s.member? o, assigned with
    | .plain, some v, false => return v
    | _, _, _ => return .index (← o.erase s false) key link
  | .privateDot o name link => return .privateDot (← o.erase s false) name link
  | .superIndex e => return .superIndex (← e.erase s false)
  | .superCall args => return .superCall (← Item.eraseAll s args)
  | .chain e => return .chain (← e.erase s false)
  | .seq es => return sequence (← Expr.eraseAll s es)
  | .yield delegate e => return .yield delegate (← e.erase s false)
  | .await e => return .await (← e.erase s false)
  | .importCall args => return .importCall (← Item.eraseAll s args)
  | .pure e => return .pure (← e.erase s false)
  | .privateIn name e => return .privateIn name (← e.erase s false)
  | .paren e | .typed e | .nonNull e => e.erase s assigned
  | e => return e

/-- Erase in expressions. -/
def Expr.eraseAll (s : Scope) : List Expr → Erase (List Expr)
  | [] => return []
  | e :: es => return (← e.erase s false) :: (← Expr.eraseAll s es)

/-- Erase in an item. -/
def Item.erase (s : Scope) : Item → Erase Item
  | .one e => return .one (← e.erase s false)
  | .spread e => return .spread (← e.erase s false)
  | .short name => do
    match ← useName s name with
    | .ident _ => return .short name
    | e => return .pair false (.ident name) e
  | .cover name e => return .cover name (← e.erase s false)
  | .pair computed key value =>
    return .pair computed (← if computed then key.erase s false else pure key) (← value.erase s false)
  | .method computed key f =>
    return .method computed (← if computed then key.erase s false else pure key) (← f.erase s)
  | .hole => return .hole

/-- Erase in items. -/
def Item.eraseAll (s : Scope) : List Item → Erase (List Item)
  | [] => return []
  | i :: is => return (← i.erase s) :: (← Item.eraseAll s is)

/-- Erase in a pattern; whether it declares its names or assigns to them. -/
def Pattern.erase (s : Scope) (declares : Bool) : Pattern → Erase Pattern
  | .name text => do
    if declares then return .name text
    match ← useName s text with
    | .ident _ => return .name text
    | e => return .expr e
  | .expr e => return .expr (← e.erase s true)
  | .array ps => return .array (← Pattern.eraseAll s declares ps)
  | .object ps => return .object (← Pattern.eraseAll s declares ps)
  | .orElse p e => return .orElse (← p.erase s declares) (← e.erase s false)
  | .rest p => return .rest (← p.erase s declares)
  | .hole => return .hole
  | .pair computed key p =>
    return .pair computed (← if computed then key.erase s false else pure key) (← p.erase s declares)
  | .short text e => do
    let e ← e.erase s false
    if declares then return .short text e
    match ← useName s text with
    | .ident _ => return .short text e
    | target =>
      return .pair false (.ident text) (if e.isAbsent then .expr target else .orElse (.expr target) e)
  | .property p => return .property (← p.erase s declares)

/-- Erase in patterns. -/
def Pattern.eraseAll (s : Scope) (declares : Bool) : List Pattern → Erase (List Pattern)
  | [] => return []
  | p :: ps => return (← p.erase s declares) :: (← Pattern.eraseAll s declares ps)

/-- Erase in a function. -/
def Func.erase (s : Scope) : Func → Erase Func
  | .mk name params body info => do
    let s := s.inside (name.toList ++ Pattern.namesOfAll params ++ varsOfBody body ++
      body.flatMap Stmt.declares)
    let params ← Pattern.eraseAll s true params
    let s ← Stmt.collectMembers s body
    return .mk name params (← Stmt.eraseAll s {} body) info

/-- Erase in a class. -/
def Class.erase (s : Scope) : Class → Erase Class
  | .mk name parent es text ds => do
    let s := s.bind name.toList
    let parent ← parent.erase s false
    let erased ← Element.eraseAll s es
    return .mk name parent (fieldsOfParameters es ++ erased) text (← Expr.eraseAll s ds)

/-- Erase in an element of a class. -/
def Element.erase (s : Scope) : Element → Erase Element
  | .method isStatic computed key f ds =>
    return .method isStatic computed (← if computed then key.erase s false else pure key)
      (withoutProperties (← f.erase s)) (← Expr.eraseAll s ds)
  | .field isStatic computed key value ds =>
    return .field isStatic computed (← if computed then key.erase s false else pure key)
      (← value.erase s false) (← Expr.eraseAll s ds)
  | .accessor isStatic computed key value ds =>
    return .accessor isStatic computed (← if computed then key.erase s false else pure key)
      (← value.erase s false) (← Expr.eraseAll s ds)
  | .block body => do
    let s := s.inside (varsOfBody body ++ body.flatMap Stmt.declares)
    let s ← Stmt.collectMembers s body
    return .block (← Stmt.eraseAll s {} body)
  | .empty => return .empty

/-- Erase in elements of a class. -/
def Element.eraseAll (s : Scope) : List Element → Erase (List Element)
  | [] => return []
  | e :: es => return (← e.erase s) :: (← Element.eraseAll s es)

/-- Erase in a statement, which may become several or none, behind statements that have declared
`seen`. -/
def Stmt.erase (s : Scope) (seen : Declared) : Stmt → Erase (List Stmt)
  | .expr e => return [.expr (← e.erase s false)]
  | .decl kind ds => return [.decl kind (← Pattern.eraseAll s true ds)]
  | .func f => return [.func (← f.erase s)]
  | .klass c => return [.klass (← c.erase s)]
  | .ret e => return [.ret (← e.erase s false)]
  | .cond test yes no => do
    let test ← test.erase s false
    let yes ← yes.erase s.nested {}
    let hasNo := !no.isErased
    let no ← no.erase s.nested {}
    return [.cond test (oneOf yes) (if hasNo then oneOf no else .erased [])]
  | .for start test step body => do
    let s := s.inside start.declares
    return [.for (oneOf (← start.erase s.nested {})) (← test.erase s false) (← step.erase s false) (oneOf (← body.erase s.nested {}))]
  | .forIn kind target e body => do
    let s := s.inside (if kind.isSome then target.names else [])
    let target ← target.erase s kind.isSome
    return [.forIn kind target (← e.erase s false) (oneOf (← body.erase s.nested {}))]
  | .forOf kind target e body isAwait => do
    let s := s.inside (if kind.isSome then target.names else [])
    let target ← target.erase s kind.isSome
    return [.forOf kind target (← e.erase s false) (oneOf (← body.erase s.nested {})) isAwait]
  | .while test body => return [.while (← test.erase s false) (oneOf (← body.erase s.nested {}))]
  | .doWhile body test => return [.doWhile (oneOf (← body.erase s.nested {})) (← test.erase s false)]
  | .throw e => return [.throw (← e.erase s false)]
  | .try body param handler final clauses => do
    let inner ← Stmt.collectMembers (s.inside (body.flatMap Stmt.declares)) body
    let body ← Stmt.eraseAll inner {} body
    let caught := s.inside param.names
    let param ← param.erase caught true
    let inner ← Stmt.collectMembers (caught.inside (handler.flatMap Stmt.declares)) handler
    let handler ← Stmt.eraseAll inner {} handler
    let inner ← Stmt.collectMembers (s.inside (final.flatMap Stmt.declares)) final
    let final ← Stmt.eraseAll inner {} final
    return [.try body param handler final clauses]
  | .switch e cases => return [.switch (← e.erase s false) (← Stmt.eraseAll (s.inside []) {} cases)]
  | .case test body => do
    let test ← test.erase s false
    let inner ← Stmt.collectMembers (s.inside (body.flatMap Stmt.declares)) body
    return [.case test (← Stmt.eraseAll inner {} body)]
  | .label name body => return [.label name (oneOf (← body.erase s.nested {}))]
  | .block body => do
    let inner ← Stmt.collectMembers (s.inside (body.flatMap Stmt.declares)) body
    return [.block (← Stmt.eraseAll inner {} body)]
  | .with e body => return [.with (← e.erase s false) (oneOf (← body.erase s.nested {}))]
  | .erased _ => return []
  | .enum isConst name items =>
    return enumDeclaration s (!seen.names.contains name) false isConst name
      (declaredMembers s name items)
  | .namespace path body => do
    if !Stmt.anyLasts body then return []
    let outer := s.bind path
    let inner := outer.within (path.getLastD "") body
    let inner ← Stmt.collectMembers inner body
    return namespaceCall none (← Stmt.eraseAll inner {} body) path
  | .exportDecl d => d.eraseExported s seen
  | .exportDefault (.func f) => do
    let isDeclaration := f.info.kind ≠ .arrow
    return [exportedDefault isDeclaration (.func (← f.erase s))]
  | .exportDefault (.klass c) => return [.exportDefault (.klass (← c.erase s))]
  | .exportDefault e => return [exportedDefault false (← e.erase s false)]
  | .exportNames names source attributes => do
    if source.isNone then
      for (name, _) in names do discard (useName s name)
    return [.exportNames names source attributes]
  | .importEquals exported name e => do
    match s.owner, exported with
    | some owner, true => return [.expr (setMember owner name (← e.erase s false))]
    | some _, false => return [.decl .var [.orElse (.name name) (← e.erase s false)]]
    | none, true => return [.importEquals true name (← e.erase s false)]
    | none, false => return [.importEquals false name e]
  | .exportEquals e => return [.exportEquals (← e.erase s false)]
  | x => return [x]

/-- Erase in a declaration that is exported. -/
def Stmt.eraseExported (s : Scope) (seen : Declared) : Stmt → Erase (List Stmt)
  | .decl kind ds => do
    match s.owner with
    | none => return [.exportDecl (.decl kind (← Pattern.eraseAll s true ds))]
    | some _ => do
      let ds ← Pattern.eraseAll s false ds
      let sets := ds.flatMap fun d => match d with
        | .orElse p e => [Expr.assign "=" p e]
        | _ => []
      match sets with
      | [] => return []
      | [e] => return [.expr e]
      | es => return [.expr (.seq es)]
  | .func f => do
    let f ← f.erase s
    match s.owner, f.name with
    | some owner, some name => return [.func f, .expr (setMember owner name (.ident name))]
    | _, _ => return [.exportDecl (.func f)]
  | .klass c => do
    let c ← c.erase s
    match s.owner, c.name with
    | some owner, some name => return [.klass c, .expr (setMember owner name (.ident name))]
    | _, _ => return [.exportDecl (.klass c)]
  | .enum isConst name items =>
    return enumDeclaration s (!seen.names.contains name) true isConst name
      (declaredMembers s name items)
  | .namespace path body => do
    if !Stmt.anyLasts body then return []
    let outer := s.bind path
    let inner := outer.within (path.getLastD "") body
    let inner ← Stmt.collectMembers inner body
    return namespaceCall s.owner (← Stmt.eraseAll inner {} body) path
  | _ => return []

/-- Erase in statements, one after the other, and declare the variables of namespaces behind them. -/
def Stmt.eraseAll (s : Scope) (seen : Declared) : List Stmt → Erase (List Stmt)
  | [] => return seen.toStmts
  | x :: xs => do
    let here ← x.erase s seen
    return here ++ (← Stmt.eraseAll s (seen.note s.owner.isSome x) xs)

/-- A scope with the members of the enumerations among statements. -/
def Stmt.collectMembers (s : Scope) : List Stmt → Erase Scope
  | [] => return s
  | x :: xs => do
    let s ← x.collect s
    Stmt.collectMembers s xs

/-- A scope with the members of an enumeration. -/
def Stmt.collect (s : Scope) : Stmt → Erase Scope
  | .enum _ name items => do
    let old := s.membersOf name
    let members ← Item.values s name old (.number 0) items
    return s.withMembers name members
  | .exportDecl d => d.collect s
  | _ => return s

/-- The values of members of an enumeration, behind those that it already has. -/
def Item.values (s : Scope) (enum_ : String) (sofar : List (String × MemberValue))
    (next : MemberValue) : List Item → Erase (List (String × MemberValue))
  | [] => return sofar
  | .pair computed key e :: rest => do
    let name := (Item.pair computed key .absent).memberName
    let inner := sofar.foldl (fun s m => s.withMember enum_ m.1) (s.withMembers enum_ sofar)
    let v ← if e.isAbsent then pure next else do
      let e ← e.erase inner false
      pure (e.value inner.known)
    Item.values s enum_ (sofar ++ [(name, v)]) v.next rest
  | _ :: rest => Item.values s enum_ sofar next rest

end

end ScriptHost.Script
