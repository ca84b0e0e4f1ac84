/-!
Scripts as trees. One grammar serves plain scripts and scripts with type annotations: annotations
leave no trace, and the few annotated forms that mean something at run time (enumerations,
namespaces, parameter properties, imports and exports) have nodes of their own. Literals keep the
text they were written with.
-/

namespace ScriptHost.Script

/-- How a variable is declared. -/
inductive DeclKind where
  | var | let_ | const_
  deriving DecidableEq, Inhabited

/-- How a function is called and what it sees. -/
inductive FuncKind where
  | plain | arrow | method | getter | setter | constructor | derivedConstructor
  deriving DecidableEq, Inhabited

/-- What a function is, apart from its parameters and its body. -/
structure FuncInfo where
  kind : FuncKind := .plain
  isAsync : Bool := false
  isGenerator : Bool := false
  strict : Bool := false
  /-- The body of an arrow function is an expression. -/
  exprBody : Bool := false
  /-- The text the function was written with. -/
  text : String := ""
  deriving DecidableEq, Inhabited

/-- A piece of a template: its text as written, and its value unless an escape in it is invalid. -/
structure Chunk where
  raw : String
  cooked : Option String
  deriving DecidableEq, Inhabited

/-- How an optional access or call goes on: a plain step, or one that stops at nothing. -/
inductive Link where
  | plain | optional
  deriving DecidableEq, Inhabited

/-- The clauses that a `try` statement has. -/
structure TryClauses where
  handler : Bool
  param : Bool
  final : Bool
  deriving DecidableEq, Inhabited

/-- An import: its default binding, its namespace binding, its named bindings (imported name, local
name, type only), and the value and text of its source. -/
structure Import where
  typeOnly : Bool
  default : Option String
  star : Option String
  names : Option (List (String × String × Bool))
  source : String × String
  attributes : List (String × String)
  deriving Inhabited

mutual

/-- An expression. -/
inductive Expr where
  /-- No expression was written. -/
  | absent
  | ident (name : String)
  | null
  | bool (b : Bool)
  | this
  | num (value : Float) (raw : String)
  | big (value : Nat) (raw : String)
  | str (value raw : String)
  | regex (body flags : String)
  | template (chunks : List Chunk) (holes : List Expr)
  | tagged (tag : Expr) (chunks : List Chunk) (holes : List Expr)
  | array (items : List Item)
  | object (members : List Item)
  | func (f : Func)
  | klass (c : Class)
  | unary (op : String) (e : Expr)
  | update (op : String) (before : Bool) (target : Expr)
  | binary (op : String) (a b : Expr)
  | logical (op : String) (a b : Expr)
  | assign (op : String) (target : Pattern) (value : Expr)
  | cond (test yes no : Expr)
  | call (callee : Expr) (args : List Item) (link : Link)
  | new (callee : Expr) (args : List Item) (hasArgs : Bool)
  | dot (o : Expr) (name : String) (link : Link)
  | index (o e : Expr) (link : Link)
  | privateDot (o : Expr) (name : String) (link : Link)
  | superDot (name : String)
  | superIndex (e : Expr)
  | superCall (args : List Item)
  /-- The whole of an optional chain. -/
  | chain (e : Expr)
  | seq (es : List Expr)
  | yield (delegate : Bool) (arg : Expr)
  | await (e : Expr)
  | importCall (args : List Item)
  /-- A call that is marked as doing nothing but giving its value. -/
  | pure (e : Expr)
  | newTarget
  | importMeta
  | privateIn (name : String) (e : Expr)
  /-- A private name on its own. -/
  | privateName (name : String)
  | paren (e : Expr)
  /-- An expression with a type annotation. -/
  | typed (e : Expr)
  /-- An expression followed by `!`. -/
  | nonNull (e : Expr)

/-- An element of a list of arguments or of an array, or a member of an object. The name of a member
is an identifier, a literal, a private name, or any expression in `computed` form. -/
inductive Item where
  | one (e : Expr)
  | spread (e : Expr)
  | hole
  | short (name : String)
  /-- `name = e`, which is only a pattern. -/
  | cover (name : String) (e : Expr)
  | pair (computed : Bool) (key value : Expr)
  | method (computed : Bool) (key : Expr) (f : Func)

/-- What values are bound or assigned to. -/
inductive Pattern where
  | name (text : String)
  | expr (e : Expr)
  | array (items : List Pattern)
  | object (members : List Pattern)
  /-- A value for when there is none, or the value of a declared variable. -/
  | orElse (p : Pattern) (e : Expr)
  | rest (p : Pattern)
  | hole
  | pair (computed : Bool) (key : Expr) (p : Pattern)
  /-- A member whose name is also the variable, with a value for when there is none. -/
  | short (text : String) (orElse : Expr)
  /-- A parameter that is also a property. -/
  | property (p : Pattern)

/-- A function: its name, its parameters and its body. -/
inductive Func where
  | mk (name : Option String) (params : List Pattern) (body : List Stmt) (info : FuncInfo)

/-- A class: its name, what it extends, and its elements. -/
inductive Class where
  | mk (name : Option String) (parent : Expr) (elements : List Element) (text : String)
      (decorators : List Expr)

/-- An element of a class. -/
inductive Element where
  | method (isStatic computed : Bool) (key : Expr) (f : Func) (decorators : List Expr)
  | field (isStatic computed : Bool) (key value : Expr) (decorators : List Expr)
  /-- `accessor key = value`. -/
  | accessor (isStatic computed : Bool) (key value : Expr) (decorators : List Expr)
  | block (body : List Stmt)
  /-- A semicolon on its own. -/
  | empty

/-- A statement. -/
inductive Stmt where
  | expr (e : Expr)
  | decl (kind : DeclKind) (ds : List Pattern)
  | func (f : Func)
  | klass (c : Class)
  | ret (e : Expr)
  | cond (test : Expr) (yes no : Stmt)
  | for (start : Stmt) (test step : Expr) (body : Stmt)
  | forIn (kind : Option DeclKind) (target : Pattern) (e : Expr) (body : Stmt)
  | forOf (kind : Option DeclKind) (target : Pattern) (e : Expr) (body : Stmt) (isAwait : Bool)
  | while (test : Expr) (body : Stmt)
  | doWhile (body : Stmt) (test : Expr)
  | break (label : Option String)
  | continue (label : Option String)
  | throw (e : Expr)
  | try (body : List Stmt) (param : Pattern) (handler final : List Stmt) (clauses : TryClauses)
  | switch (e : Expr) (cases : List Stmt)
  /-- A case of a `switch`, or its default. -/
  | case (test : Expr) (body : List Stmt)
  | label (name : String) (body : Stmt)
  | block (body : List Stmt)
  | with (e : Expr) (body : Stmt)
  | empty
  | debugger
  /-- Types only, or no statement at all: nothing at run time. The names are those of the types. -/
  | erased (types : List String)
  /-- An enumeration; whether its members are to be known before the script runs. -/
  | enum (isConst : Bool) (name : String) (members : List Item)
  | namespace (path : List String) (body : List Stmt)
  | import (i : Import)
  | exportNames (names : List (String × String)) (source : Option (String × String))
      (attributes : List (String × String))
  /-- A declaration that is exported as well. -/
  | exportDecl (s : Stmt)
  | exportDefault (e : Expr)
  | exportAll (outerName : Option String) (source : String × String) (attributes : List (String × String))
  /-- `import name = path` or `import name = require(text)`. -/
  | importEquals (exported : Bool) (name : String) (e : Expr)
  /-- `export = e`. -/
  | exportEquals (e : Expr)

end

instance : Inhabited Expr := ⟨.absent⟩
instance : Inhabited Pattern := ⟨.hole⟩
instance : Inhabited Stmt := ⟨.erased []⟩
instance : Inhabited Item := ⟨.hole⟩
instance : Inhabited Func := ⟨.mk none [] [] {}⟩
instance : Inhabited Class := ⟨.mk none .absent [] "" []⟩

/-- No expression was written. -/
def Expr.isAbsent : Expr → Bool
  | .absent => true
  | _ => false

/-- Nothing of the statement is left at run time. -/
def Stmt.isErased : Stmt → Bool
  | .erased _ => true
  | _ => false

namespace Func

/-- The name of a function. -/
def name : Func → Option String
  | .mk name .. => name

/-- The parameters of a function. -/
def params : Func → List Pattern
  | .mk _ params .. => params

/-- The body of a function. -/
def body : Func → List Stmt
  | .mk _ _ body _ => body

/-- What a function is. -/
def info : Func → FuncInfo
  | .mk _ _ _ info => info

end Func

namespace Class

/-- The name of a class. -/
def name : Class → Option String
  | .mk name .. => name

/-- What a class extends. -/
def parent : Class → Expr
  | .mk _ parent .. => parent

/-- The elements of a class. -/
def elements : Class → List Element
  | .mk _ _ elements .. => elements

/-- The text a class was written with. -/
def text : Class → String
  | .mk _ _ _ text _ => text

/-- The decorators of a class. -/
def decorators : Class → List Expr
  | .mk _ _ _ _ decorators => decorators

end Class

/-- How tightly a binary operator binds. -/
def bindingOf : String → Option Nat
  | "??" | "||" => some 1
  | "&&" => some 2
  | "|" => some 3
  | "^" => some 4
  | "&" => some 5
  | "==" | "!=" | "===" | "!==" => some 6
  | "<" | "<=" | ">" | ">=" | "in" | "instanceof" => some 7
  | "<<" | ">>" | ">>>" => some 8
  | "+" | "-" => some 9
  | "*" | "/" | "%" => some 10
  | "**" => some 11
  | _ => none

/-- A source text as a tree. -/
structure Source where
  body : List Stmt
  strict : Bool
  /-- The text is a module, with imports and exports. -/
  isModule : Bool := false
  /-- The first line, if it names what runs the text. -/
  interpreter : Option String := none

end ScriptHost.Script
