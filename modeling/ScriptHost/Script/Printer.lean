import ScriptHost.Script.Ast
/-!
The text of a script. Every statement has a line of its own, four blanks deeper than what holds it;
literals are written as they were read. Parentheses stand where the text would mean something else
without them, and around expressions that a tree marks with `paren`.
-/

namespace ScriptHost.Script

/-! ## Layout -/

/-- Where code is written: how deep, and whether an `in` would be read as that of a loop. -/
structure Margin where
  depth : Nat := 0
  noIn : Bool := false

namespace Margin

/-- A new line at this depth. -/
def line (m : Margin) : String := String.ofList ('\n' :: List.replicate (4 * m.depth) ' ')

/-- One step deeper. -/
def deeper (m : Margin) : Margin := { depth := m.depth + 1 }

/-- Lines one step deeper. -/
def lines (m : Margin) (texts : List String) : String :=
  String.join (texts.map (m.deeper.line ++ ·))

/-- Lines between braces. -/
def braces (m : Margin) (texts : List String) : String :=
  if texts.isEmpty then "\x7b\x7d" else "\x7b" ++ m.lines texts ++ m.line ++ "\x7d"

end Margin

/-- What an expression is written for. -/
inductive Role where
  /-- Any expression may stand here. -/
  | free
  /-- A comma would end the expression. -/
  | single
  /-- A statement begins with it. -/
  | start
  /-- It is the body of an arrow function, or that begins with it. -/
  | arrow
  /-- It stands behind `new`. -/
  | callee
  deriving DecidableEq

/-- The role of what an expression begins with. -/
def Role.lead : Role → Role
  | .start => .start
  | .arrow => .arrow
  | _ => .free

/-- Parentheses around a text. -/
def parens (s : String) : String := "(" ++ s ++ ")"

/-- A number as it was written, without the separators. -/
def numeral (raw : String) : String := String.ofList (raw.toList.filter (· ≠ '_'))

/-- A point behind the number would be read as a part of it. -/
def takesPoint (raw : String) : Bool :=
  let cs := (numeral raw).toList
  cs.all Char.isDigit && !(cs.head? = some '0' && cs.length > 1)

/-! ## Where parentheses are needed -/

/-- The pattern is an object or an array. -/
def Pattern.isShape : Pattern → Bool
  | .array _ | .object _ => true
  | _ => false

/-- The expression is an arrow function. -/
def Expr.isArrow : Expr → Bool
  | .func f => f.info.kind = .arrow
  | _ => false

/-- The operator that joins the two parts of an expression. -/
def Expr.operator? : Expr → Option String
  | .binary op _ _ | .logical op _ _ => some op
  | .privateIn _ _ => some "in"
  | _ => none

/-- The expression reaches to its right as far as it can. -/
def Expr.isLoose : Expr → Bool
  | .assign .. | .seq _ | .cond .. | .yield .. => true
  | e => e.isArrow

/-- Nothing can be applied to the expression without parentheses: it is made with an operator. -/
def Expr.isOperation (e : Expr) : Bool :=
  e.isLoose || e.operator?.isSome || match e with
    | .unary .. | .update .. | .await _ => true
    | _ => false

/-- The operand of a prefix operator needs parentheses. -/
def operandNeedsParens (op : String) : Expr → Bool
  | .binary inner (.num ..) (.num ..) => !(op = "-" && (inner = "*" || inner = "/"))
  | e => e.isLoose || e.operator?.isSome

/-- The left operand of an operator needs parentheses. -/
def leftNeedsParens (op : String) (e : Expr) : Bool :=
  match e.operator? with
  | some inner =>
    let (a, b) := ((bindingOf inner).getD 0, (bindingOf op).getD 0)
    a < b || (a == b && op == "**") || (inner == "??") != (op == "??")
  | none =>
    e.isLoose || match e with
      | .unary inner _ =>
        inner = "delete" || op = "**" ||
          (inner = "void" && !(["==", "!=", "===", "!=="].contains op))
      | _ => false

/-- The right operand of an operator needs parentheses. -/
def rightNeedsParens (op : String) (e : Expr) : Bool :=
  match e.operator? with
  | some inner =>
    if inner = op then !(["&&", "||", "**"].contains op)
    else
      (bindingOf inner).getD 0 ≤ (bindingOf op).getD 0 ||
        (op = "??" && (inner = "&&" || inner = "||"))
  | none => e.isLoose

/-- The object of an access needs parentheses. -/
def objectNeedsParens : Expr → Bool
  | .func _ | .klass _ | .chain _ => true
  | e => e.isOperation

/-- What is called needs parentheses. -/
def calleeNeedsParens : Expr → Bool
  | .klass _ | .chain _ | .new _ _ false => true
  | e => e.isOperation

/-- The parent of a class needs parentheses. -/
def parentNeedsParens (e : Expr) : Bool := e.isOperation

/-- An expression needs parentheses for what it is written for. -/
def Expr.needsParens (r : Role) (e : Expr) : Bool :=
  match r, e with
  | .start, .object _ | .start, .klass _ => true
  | .start, .func f => f.info.kind ≠ .arrow
  | .start, .assign _ (.object _) _ => true
  | .arrow, .object _ | .arrow, .seq _ => true
  | .arrow, .assign _ p _ => p.isShape
  | .single, .seq _ => true
  | .callee, .call .. | .callee, .importCall _ | .callee, .chain _ => true
  | .callee, .num .. | .callee, .str .. => true
  | .callee, e => e.isOperation
  | _, _ => false

/-- A blank keeps two signs apart. -/
def unaryText (op operand : String) : String :=
  let isWord := ["typeof", "void", "delete"].contains op
  let joins := (op = "+" || op = "-") && operand.startsWith op
  if isWord || joins then op ++ " " ++ operand else op ++ operand

/-- The word in front of declared variables. -/
def DeclKind.word : DeclKind → String
  | .var => "var"
  | .let_ => "let"
  | .const_ => "const"

/-! ## Texts -/

/-- The sign in front of the name of an accessed member. -/
def Link.dot : Link → String
  | .plain => "."
  | .optional => "?."

/-- The sign in front of a bracket or of arguments. -/
def Link.sign : Link → String
  | .plain => ""
  | .optional => "?."

/-- The words in front of the name of a method. -/
def methodWords (info : FuncInfo) : String :=
  (if info.isAsync then "async " else "") ++ (if info.isGenerator then "*" else "") ++
    match info.kind with
    | .getter => "get "
    | .setter => "set "
    | _ => ""

/-- A text that ends a statement. -/
def semicolon (s : String) : String := s ++ ";"

/-- The statement is a block, behind which no line ends. -/
def Stmt.isBlock : Stmt → Bool
  | .block _ => true
  | _ => false

/-- Attributes of an import. -/
def attributesText (m : Margin) (attributes : List (String × String)) : String :=
  if attributes.isEmpty then ""
  else
    let texts := attributes.map fun (key, value) => key ++ ": " ++ value
    let inner := (",").intercalate (texts.map (m.deeper.line ++ ·))
    " with \x7b" ++ inner ++ m.line ++ "\x7d"

/-- Names between braces, some of them under other names. -/
def namesText (names : List (String × String)) : String :=
  let texts := names.map fun (name, outerName) => if name = outerName then name else name ++ " as " ++ outerName
  if texts.isEmpty then "\x7b \x7d" else "\x7b " ++ (", ").intercalate texts ++ " \x7d"

/-- An import. -/
def Import.print (m : Margin) (i : Import) : String :=
  let star := i.star.toList.map ("* as " ++ ·)
  let names := ((i.names.getD []).map fun (name, outerName, _) => (name, outerName))
  let parts := i.default.toList ++ star ++ (if names.isEmpty then [] else [namesText names])
  let front := if parts.isEmpty then "import " else "import " ++ (", ").intercalate parts ++ " from "
  semicolon (front ++ i.source.2 ++ attributesText m i.attributes)

/-- Lines of which all but the last end in a comma; an empty one at the end has a comma too. -/
def commaLines : List String → List String
  | [] => []
  | [s] => [if s.isEmpty then "," else s]
  | s :: rest => (s ++ ",") :: commaLines rest

/-- The object of an access, from its own text; `new` without arguments gets them, so that they end
it. -/
def accessed (o : Expr) (isDot : Bool) (text : String) : String :=
  match o with
  | .num _ raw => if isDot && takesPoint raw then text ++ "." else text
  | .new _ _ false => text ++ "()"
  | o => if objectNeedsParens o then parens text else text

/-- The role of an expression, which is that of any expression if parentheses are around it. -/
def Role.inside (role : Role) (hasParens : Bool) : Role := if hasParens then .free else role

/-- A text with parentheses around it, or without. -/
def parensIf (needed : Bool) (s : String) : String := if needed then parens s else s

/-- A text between brackets, or without them. -/
def bracketsIf (needed : Bool) (s : String) : String := if needed then "[" ++ s ++ "]" else s

/-- The last of the patterns is a hole. -/
def endsInHole (ps : List Pattern) : Bool :=
  match ps.getLast? with
  | some .hole => true
  | _ => false

/-- The word in front of what a loop declares. -/
def eachWord (kind : Option DeclKind) : String := (kind.map (·.word ++ " ")).getD ""

/-- A jump, to a label or not. -/
def jumpText (word : String) (label : Option String) : String :=
  word ++ (label.map (" " ++ ·)).getD "" ++ ";"

mutual

/-- The text of an expression. -/
def Expr.print (m : Margin) (role : Role) (e : Expr) : String :=
  let wrapped := e.needsParens role || (m.noIn && e.operator? == some "in")
  let role := role.inside wrapped
  parensIf wrapped <| match e with
    | .absent => ""
    | .ident name => name
    | .null => "null"
    | .bool b => if b then "true" else "false"
    | .this => "this"
    | .num _ raw | .big _ raw => numeral raw
    | .str _ raw => raw
    | .regex body flags => "/" ++ body ++ "/" ++ flags
    | .template chunks holes => "\x60" ++ Expr.templateText m chunks holes ++ "\x60"
    | .tagged tag chunks holes =>
      let p := calleeNeedsParens tag
      parensIf p (tag.print m (role.inside p)) ++ "\x60" ++ Expr.templateText m chunks holes ++ "\x60"
    | .array items =>
      if items.isEmpty then "[]"
      else "[" ++ m.lines (commaLines (Item.texts m.deeper items)) ++ m.line ++ "]"
    | .object items => m.braces (commaLines (Item.texts m.deeper items))
    | .func f => f.print m
    | .klass c => c.print m ""
    | .unary op a =>
      let p := operandNeedsParens op a
      unaryText op (parensIf p (a.print m .single))
    | .update op before a => if before then op ++ a.print m .single else a.print m role.lead ++ op
    | .binary op a b | .logical op a b =>
      let p := leftNeedsParens op a
      let q := rightNeedsParens op b
      parensIf p (a.print m (role.lead.inside p)) ++ " " ++ op ++ " " ++
        parensIf q (b.print m (Role.single.inside q))
    | .privateIn name b =>
      let q := rightNeedsParens "in" b
      "#" ++ name ++ " in " ++ parensIf q (b.print m (Role.single.inside q))
    | .assign op target value =>
      target.print m role.lead ++ " " ++ op ++ " " ++ value.print m .single
    | .cond test yes no =>
      let p := test.isLoose
      parensIf p (test.print m (role.lead.inside p)) ++ " ? " ++ yes.print m .single ++ " : " ++
        no.print m .single
    | .call f args link =>
      let p := calleeNeedsParens f
      parensIf p (f.print m (role.inside p)) ++ link.sign ++
        parens ((", ").intercalate (Item.texts m args))
    | .new f args hasArgs =>
      "new " ++ f.print m .callee ++
        (if hasArgs then parens ((", ").intercalate (Item.texts m args)) else "")
    | .dot o name link =>
      accessed o true (o.print m (role.inside (objectNeedsParens o))) ++ link.dot ++ name
    | .privateDot o name link =>
      accessed o true (o.print m (role.inside (objectNeedsParens o))) ++ link.dot ++ "#" ++ name
    | .index o key link =>
      accessed o false (o.print m (role.inside (objectNeedsParens o))) ++ link.sign ++ "[" ++
        key.print m .free ++ "]"
    | .superDot name => "super." ++ name
    | .superIndex key => "super[" ++ key.print m .free ++ "]"
    | .superCall args => "super" ++ parens ((", ").intercalate (Item.texts m args))
    | .chain a => a.print m role
    | .seq es => Expr.sequenceText m role.lead es
    | .yield delegate a =>
      (if delegate then "yield*" else "yield") ++ (if a.isAbsent then "" else " " ++ a.print m .single)
    | .await a =>
      let p := operandNeedsParens "await" a
      "await " ++ parensIf p (a.print m (Role.single.inside p))
    | .importCall args => "import" ++ parens ((", ").intercalate (Item.texts m args))
    | .pure a => "/*#__PURE__*/ " ++ a.print m role
    | .newTarget => "new.target"
    | .importMeta => "import.meta"
    | .privateName name => "#" ++ name
    | .paren a => parens (a.print m .free)
    | .typed a | .nonNull a => a.print m role

/-- The text of expressions with commas between them. Those in front of the last one begin as the role
says. -/
def Expr.sequenceText (m : Margin) (role : Role) : List Expr → String
  | [] => ""
  | [e] => e.print m .single
  | e :: es => e.print m role ++ ", " ++ Expr.sequenceText m role es

/-- The pieces of a template and the expressions between them. -/
def Expr.templateText (m : Margin) (chunks : List Chunk) : List Expr → String
  | [] => (chunks.map (·.raw)).headD ""
  | e :: es =>
    (chunks.map (·.raw)).headD "" ++ "$\x7b" ++ e.print m .free ++ "\x7d" ++
      Expr.templateText m chunks.tail es

/-- The text of an item. -/
def Item.print (m : Margin) : Item → String
  | .one e => e.print m .single
  | .spread e => "..." ++ e.print m .single
  | .hole => ""
  | .short name => name
  | .cover name e => name ++ " = " ++ e.print m .single
  | .pair computed key value =>
    bracketsIf computed (key.print m .single) ++ ": " ++ value.print m .single
  | .method computed key f =>
    methodWords f.info ++ bracketsIf computed (key.print m .single) ++ " " ++
      f.callText m (if f.info.kind = .setter then "" else " ")

/-- The texts of items. -/
def Item.texts (m : Margin) : List Item → List String
  | [] => []
  | i :: is => i.print m :: Item.texts m is

/-- The text of a pattern. -/
def Pattern.print (m : Margin) (role : Role) : Pattern → String
  | .name text => text
  | .expr e => e.print m role
  | .array ps => "[" ++ (", ").intercalate (Pattern.texts m ps) ++ (if endsInHole ps then "," else "") ++ "]"
  | .object ps =>
    if ps.isEmpty then "\x7b\x7d"
    else "\x7b " ++ (", ").intercalate (Pattern.texts m ps) ++ " \x7d"
  | .orElse p e => p.print m .single ++ " = " ++ e.print m .single
  | .rest p => "..." ++ p.print m .single
  | .hole => ""
  | .pair computed key p => bracketsIf computed (key.print m .single) ++ ": " ++ p.print m .single
  | .short text e => if e.isAbsent then text else text ++ " = " ++ e.print m .single
  | .property p => p.print m .single

/-- The texts of patterns. -/
def Pattern.texts (m : Margin) : List Pattern → List String
  | [] => []
  | p :: ps => p.print m .single :: Pattern.texts m ps

/-- The text of a function. -/
def Func.print (m : Margin) : Func → String
  | .mk name params body info =>
    let ps := parens ((", ").intercalate (Pattern.texts m params))
    let isAsync := if info.isAsync then "async " else ""
    if info.kind = .arrow then
      isAsync ++ ps ++ "=>" ++
        match info.exprBody, body with
        | true, [.ret e] => e.print m .arrow
        | _, body => m.braces (Stmt.texts m.deeper body)
    else
      isAsync ++ "function" ++ (if info.isGenerator then "*" else "") ++
        (match name with
        | some name => " " ++ name
        | none => "") ++ ps ++ " " ++ m.braces (Stmt.texts m.deeper body)

/-- The parameters and the body of a method, and what stands between them. -/
def Func.callText (m : Margin) (between : String) : Func → String
  | .mk _ params body _ =>
    parens ((", ").intercalate (Pattern.texts m params)) ++ between ++
      m.braces (Stmt.texts m.deeper body)

/-- The text of a class, with words in front of its keyword. -/
def Class.print (m : Margin) (front : String) : Class → String
  | .mk name parent es _ ds =>
    let head := match name with
      | some name => "class " ++ name
      | none => "class"
    let p := parent.isOperation
    let heritage :=
      if parent.isAbsent then ""
      else " extends " ++ parensIf p (parent.print m (Role.single.inside p))
    String.join (Expr.decoratorTexts m ds) ++ front ++ head ++ heritage ++ " \x7b" ++
      m.lines (Element.texts m.deeper es) ++ m.line ++ "\x7d"

/-- The texts of decorators, each on a line of its own. -/
def Expr.decoratorTexts (m : Margin) : List Expr → List String
  | [] => []
  | d :: ds => ("@" ++ d.print m .single ++ m.line) :: Expr.decoratorTexts m ds

/-- The text of an element of a class. -/
def Element.print (m : Margin) : Element → String
  | .method isStatic computed key f ds =>
    let isConstructor := f.info.kind = .constructor || f.info.kind = .derivedConstructor
    String.join (Expr.decoratorTexts m ds) ++ (if isStatic then "static " else "") ++
      methodWords f.info ++ bracketsIf computed (key.print m .single) ++
      f.callText m (if isConstructor then "" else " ")
  | .field isStatic computed key value ds =>
    String.join (Expr.decoratorTexts m ds) ++ (if isStatic then "static " else "") ++
      bracketsIf computed (key.print m .single) ++
      (if value.isAbsent then "" else " = " ++ value.print m .single) ++ ";"
  | .accessor isStatic computed key value ds =>
    String.join (Expr.decoratorTexts m ds) ++ (if isStatic then "static " else "") ++ "accessor " ++
      bracketsIf computed (key.print m .single) ++
      (if value.isAbsent then "" else " = " ++ value.print m .single) ++ ";"
  | .block body => "static" ++ m.braces (Stmt.texts m.deeper body)
  | .empty => ";"

/-- The texts of elements. -/
def Element.texts (m : Margin) : List Element → List String
  | [] => []
  | e :: es => e.print m :: Element.texts m es

/-- The text of a statement, without the end of its line. -/
def Stmt.print (m : Margin) : Stmt → String
  | .expr e => e.print m .start ++ ";"
  | .decl kind ds => kind.word ++ " " ++ (", ").intercalate (Pattern.texts m ds) ++ ";"
  | .func f => f.print m
  | .klass c => c.print m ""
  | .ret e => if e.isAbsent then "return;" else "return " ++ e.print m .free ++ ";"
  | .cond test yes no =>
    "if (" ++ test.print m .free ++ ") " ++ yes.print m ++
      (if no.isErased then ""
      else (if yes.isBlock then " " else m.line) ++ "else " ++ no.print m)
  | .for start test step body =>
    "for(" ++ start.headText { m with noIn := true } ++ ";" ++
      (if test.isAbsent then "" else " " ++ test.print m .free) ++ ";" ++
      (if step.isAbsent then "" else " " ++ step.print m .free) ++ ")" ++ body.print m
  | .forIn kind target e body =>
    "for(" ++ eachWord kind ++ target.print m .free ++ " in " ++ e.print m .free ++ ")" ++ body.print m
  | .forOf kind target e body isAwait =>
    let p := match e with
      | .seq _ | .await _ => true
      | _ => false
    "for " ++ (if isAwait then "await " else "") ++ "(" ++ eachWord kind ++ target.print m .free ++
      " of " ++ parensIf p (e.print m .free) ++ ")" ++ body.print m
  | .while test body => "while(" ++ test.print m .free ++ ")" ++ body.print m
  | .doWhile body test =>
    "do " ++ body.print m ++ (if body.isBlock then "" else m.line) ++ "while (" ++
      test.print m .free ++ ")"
  | .break label => jumpText "break" label
  | .continue label => jumpText "continue" label
  | .throw e => "throw " ++ e.print m .free ++ ";"
  | .try body param handler final clauses =>
    let caught :=
      if clauses.handler then
        " catch " ++ (if clauses.param then parens (param.print m .free) else "") ++ " " ++
          m.braces (Stmt.texts m.deeper handler)
      else ""
    "try " ++ m.braces (Stmt.texts m.deeper body) ++ caught ++
      (if clauses.final then " finally " ++ m.braces (Stmt.texts m.deeper final) else "")
  | .switch e cases =>
    "switch(" ++ e.print m .free ++ ")\x7b" ++ m.lines (Stmt.texts m.deeper cases) ++ m.line ++ "\x7d"
  | .case test body =>
    (if test.isAbsent then "default:" else "case " ++ test.print m .free ++ ":") ++
      m.lines (Stmt.texts m.deeper body)
  | .label name body => name ++ ": " ++ body.print m
  | .block body => m.braces (Stmt.texts m.deeper body)
  | .with e body => "with (" ++ e.print m .free ++ ")" ++ body.print m
  | .empty | .erased _ => ";"
  | .debugger => "debugger;"
  | .enum .. | .namespace .. => ";"
  | .import i => i.print m
  | .exportNames names source attributes =>
    "export " ++ namesText names ++
      (match source with
      | some (_, raw) => " from " ++ raw ++ attributesText m attributes
      | none => "") ++ ";"
  | .exportDecl (.klass c) => c.print m "export "
  | .exportDecl d => "export " ++ d.print m
  | .exportDefault e =>
    let isDeclaration : Bool := match e with
      | .func f => f.info.kind != .arrow
      | .klass _ => true
      | _ => false
    "export default " ++ e.print m .single ++ (if isDeclaration then "" else ";")
  | .exportAll outerName source attributes =>
    "export *" ++
      (match outerName with
      | some name => " as " ++ name
      | none => "") ++ " from " ++ source.2 ++ attributesText m attributes ++ ";"
  | .importEquals exported name e =>
    (if exported then "export " else "") ++ "import " ++ name ++ " = " ++ e.print m .single ++ ";"
  | .exportEquals e => "export = " ++ e.print m .single ++ ";"

/-- The start of a loop that counts, without the semicolon behind it. -/
def Stmt.headText (m : Margin) : Stmt → String
  | .expr e => e.print m .free
  | .decl kind ds => kind.word ++ " " ++ (", ").intercalate (Pattern.texts m ds)
  | _ => ""

/-- The texts of statements. -/
def Stmt.texts (m : Margin) : List Stmt → List String
  | [] => []
  | x :: xs => x.print m :: Stmt.texts m xs

end

/-- The text of a script. Each statement ends its line, blocks aside. -/
def Source.print (source : Source) : String :=
  (source.interpreter.map (· ++ "\n")).getD "" ++
    String.join (source.body.map fun x => x.print {} ++ if x.isBlock then "" else "\n")

end ScriptHost.Script
