import ScriptHost.Script.Ast
/-!
Names that a piece of a script declares: the variables of a whole function, and those of one block.
-/

namespace ScriptHost.Script

mutual

/-- The names that a pattern binds. -/
def Pattern.names : Pattern → List String
  | .name text => [text]
  | .expr _ => []
  | .array items => Pattern.namesOfAll items
  | .object members => Pattern.namesOfAll members
  | .orElse p _ => p.names
  | .rest p => p.names
  | .hole => []
  | .pair _ _ p => p.names
  | .short text _ => [text]
  | .property p => p.names

/-- The names that patterns bind. -/
def Pattern.namesOfAll : List Pattern → List String
  | [] => []
  | p :: ps => p.names ++ Pattern.namesOfAll ps

end

/-- The pattern is a name and nothing else. -/
def Pattern.isName : Pattern → Bool
  | .name _ => true
  | _ => false

mutual

/-- The names that a statement declares for the function around it; the functions of inner blocks are
among them. -/
def Stmt.vars (inner : Bool) : Stmt → List String
  | .decl .var ds => Pattern.namesOfAll ds
  | .func (.mk (some name) _ _ _) => if inner then [name] else []
  | .cond _ yes no => yes.vars true ++ no.vars true
  | .for start _ _ body => start.vars true ++ body.vars true
  | .forIn kind target _ body =>
    (if kind = some .var then target.names else []) ++ body.vars true
  | .forOf kind target _ body _ =>
    (if kind = some .var then target.names else []) ++ body.vars true
  | .while _ body => body.vars true
  | .doWhile body _ => body.vars true
  | .try body _ handler final _ => Stmt.varsOfAll body ++ Stmt.varsOfAll handler ++ Stmt.varsOfAll final
  | .switch _ cases => Stmt.varsOfAll cases
  | .case _ body => Stmt.varsOfAll body
  | .label _ body => body.vars inner
  | .block body => Stmt.varsOfAll body
  | .with _ body => body.vars true
  | _ => []

/-- The names that the statements of an inner block declare for the function around it. -/
def Stmt.varsOfAll : List Stmt → List String
  | [] => []
  | s :: ss => s.vars true ++ Stmt.varsOfAll ss

end

/-- The names that a body declares for the whole function. -/
def varsOfBody (body : List Stmt) : List String := (body.flatMap (Stmt.vars false)).eraseDups

/-- The function that a statement declares. -/
def Stmt.function? : Stmt → Option Func
  | .func f => some f
  | .label _ s => s.function?
  | _ => none

/-- The functions that statements declare. -/
def functionsOf (body : List Stmt) : List Func := body.filterMap Stmt.function?

/-- The names that a statement declares for its block, functions aside; whether they may change. -/
def Stmt.lexical : Stmt → List (String × Bool)
  | .decl .let_ ds => (Pattern.namesOfAll ds).map (·, true)
  | .decl .const_ ds => (Pattern.namesOfAll ds).map (·, false)
  | .klass (.mk (some name) _ _ _ _) => [(name, true)]
  | _ => []

/-- The names that statements declare for their block, functions aside. -/
def lexicalOf (body : List Stmt) : List (String × Bool) := body.flatMap Stmt.lexical

end ScriptHost.Script
