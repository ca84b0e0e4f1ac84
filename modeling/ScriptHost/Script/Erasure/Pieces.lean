import ScriptHost.Script.Erasure.Scope
/-!
The code that declarations without a counterpart at run time become. Enumerations and namespaces are
calls that fill an object; parameters that are properties are fields and assignments.
-/

namespace ScriptHost.Script

/-- The object behind a name, which is made if there is none yet. -/
def orNewObject (target : Expr) : Expr :=
  .logical "||" target (.assign "=" (.expr target) (.object []))

/-- Call a function of one parameter. -/
def callWith (name : String) (body : List Stmt) (arg : Expr) : Expr :=
  .call (.func (.mk none [.name name] body {})) [.one arg] .plain

/-- The place of an object: a name, or a member of the object around. -/
def placeOf (owner : Option String) (name : String) : Expr :=
  match owner with
  | some o => .dot (.ident o) name .plain
  | none => .ident name

/-- Assign to a member of an object. -/
def setMember (o name : String) (value : Expr) : Expr :=
  .assign "=" (.expr (.dot (.ident o) name .plain)) value

/-- The statement that sets a member of an enumeration, and the name of the member by its value. -/
def setEnumMember (enum_ : String) (m : String × MemberValue) : Stmt :=
  let at_ (key : Expr) : Pattern := .expr (.index (.ident enum_) key .plain)
  let name := Expr.ofText m.1
  let inner : Expr := .assign "=" (at_ name) m.2.toExpr
  match m.2 with
  | .text _ => .expr inner
  | _ => .expr (.assign "=" (at_ inner) name)

/-- What an enumeration becomes. The first declaration of a name makes a variable; further ones, and
members of a namespace, fill an object that may be there. -/
def enumDeclaration (s : Scope) (isFirst exported isConst : Bool) (name : String)
    (members : List (String × MemberValue)) : List Stmt :=
  let owner := if exported then s.owner else none
  let removable := isConst && !exported
  let kept := if removable then members.filter (!·.2.isKnown) else members
  if removable && kept.isEmpty then []
  else
    let body := kept.map (setEnumMember name)
    if !isFirst || owner.isSome then
      [.expr (callWith name body (orNewObject (placeOf owner name)))]
    else
      let isVar := exported || s.isTop
      let arg : Expr :=
        if exported || !isVar then .object [] else .logical "||" (.ident name) (.object [])
      let value : Expr := .pure (callWith name (body ++ [.ret (.ident name)]) arg)
      let s : Stmt := .decl (if isVar then .var else .let_) [.orElse (.name name) value]
      [if exported then .exportDecl s else s]

/-- The name of a member of an enumeration. -/
def Item.memberName : Item → String
  | .pair _ (.ident text) _ => text
  | .pair _ (.str value _) _ => value
  | .pair _ (.num x _) _ => Number.text x
  | _ => ""

/-- The members that one declaration of an enumeration has, with their values. -/
def declaredMembers (s : Scope) (name : String) (items : List Item) : List (String × MemberValue) :=
  items.filterMap fun i => ((s.membersOf name).lookup i.memberName).map (i.memberName, ·)

/-- What a namespace becomes, with its body inside the innermost of its names. -/
def namespaceCall (owner : Option String) (body : List Stmt) : List String → List Stmt
  | [] => body
  | name :: inner =>
    [.expr (callWith name (namespaceCall (some name) body inner)
      (orNewObject (placeOf owner name)))]

/-- The directives at the start of a body, and the rest. -/
def spanDirectives (body : List Stmt) : List Stmt × List Stmt :=
  body.span fun s => match s with
    | .expr (.str ..) => true
    | _ => false

/-- The statement calls the constructor of the parent. -/
def callsParent : Stmt → Bool
  | .expr (.superCall _) => true
  | _ => false

/-- Statements at the start of a constructor, behind the call of the parent's if there is one. -/
def withInitializers (inits body : List Stmt) : List Stmt :=
  match body.span (!callsParent ·) with
  | (front, call :: rest) => front ++ call :: inits ++ rest
  | (_, []) =>
    let (directives, rest) := spanDirectives body
    directives ++ inits ++ rest

/-- The names of the parameters that are properties. -/
def propertyNames (params : List Pattern) : List String :=
  params.flatMap fun p => match p with
    | .property p => p.names
    | _ => []

/-- A constructor whose parameters are plain: the values of properties are assigned in its body. -/
def withoutProperties : Func → Func
  | .mk name params body info =>
    let inits := (propertyNames params).map fun x =>
      Stmt.expr (.assign "=" (.expr (.dot .this x .plain)) (.ident x))
    let plain := params.map fun p => match p with
      | .property p => p
      | p => p
    .mk name plain (if inits.isEmpty then body else withInitializers inits body) info

/-- Fields for the parameters of the constructor that are properties. -/
def fieldsOfParameters (es : List Element) : List Element :=
  es.flatMap fun e => match e with
    | .method _ _ _ f _ =>
      (propertyNames f.params).map fun x => .field false false (.ident x) .absent []
    | _ => []

/-- The expression only gives its value. -/
def Expr.isIdle : Expr → Bool
  | .func _ | .null | .bool _ | .num .. | .big .. | .str .. | .regex .. => true
  | _ => false

/-- The expressions of a sequence in one list, without those in front that only give their value; one
of them is kept where it hides what the last expression is. -/
def sequence (es : List Expr) : Expr :=
  let flat := es.flatMap fun e => match e with
    | .seq inner => inner
    | e => [e]
  let (front, last) := (flat.dropLast, flat.getLast?.toList)
  let (kept, _) := front.foldl (fun (acc, seen) e =>
    if e.isIdle then (if seen then (acc, seen) else (acc ++ [e], true)) else (acc ++ [e], seen))
    (([] : List Expr), false)
  let kept := if kept.length > 1 then kept.filter (!·.isIdle) else kept
  match kept ++ last with
  | [e] => e
  | es => .seq es

/-- What the statements of a list have declared so far: functions, classes, enumerations and
namespaces, and among them the namespaces that still need a variable. -/
structure Declared where
  names : List String := []
  plain : List String := []
  exported : List String := []

namespace Declared

/-- Note what a statement declares, in a list inside a namespace or outside of any. -/
def note (d : Declared) (inNamespace : Bool) (x : Stmt) : Declared :=
  let news := x.declares.filter (!d.names.contains ·)
  let d' := { d with names := news ++ d.names }
  match x with
  | .decl .. => d
  | .namespace .. => { d' with plain := d.plain ++ news }
  | .exportDecl (.decl ..) => d
  | .exportDecl (.namespace ..) =>
    if inNamespace then d' else { d' with exported := d.exported ++ news }
  | _ => d'

/-- The variables of namespaces. -/
def toStmts (d : Declared) : List Stmt :=
  let declare (names : List String) : List Stmt :=
    if names.isEmpty then [] else [.decl .var (names.map .name)]
  declare d.plain ++ (declare d.exported).map .exportDecl

end Declared

/-- Statements where one is due. -/
def oneOf : List Stmt → Stmt
  | [] => .empty
  | [one] => one
  | several => .block several

/-- What `export default` is followed by; a function in it that is no declaration has parentheses. -/
def exportedDefault (isDeclaration : Bool) (e : Expr) : Stmt :=
  .exportDefault (match isDeclaration, e with
    | false, .func _ | false, .klass _ | false, .seq _ => .paren e
    | _, e => e)

end ScriptHost.Script
