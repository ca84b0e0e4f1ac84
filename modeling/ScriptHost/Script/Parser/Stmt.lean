import ScriptHost.Script.Parser.Class
/-!
Statements that mean something at run time, enumerations aside.
-/

namespace ScriptHost.Script.Parser

variable (reads : Reads)

/-! ## Variables -/

/-- The token may follow `let` in a declaration. -/
def followsLet (tok : Token) : Bool :=
  match tok.kind with
  | .word text _ => !keywords.contains text
  | .sign "[" | .sign "\x7b" => true
  | _ => false

/-- A declared variable with its value; whether it heads a loop. -/
def declarator (kind : DeclKind) (inLoop : Bool) : Parser Pattern := do
  let start ← here
  if kind ≠ .var && (← isWord "let") then
    unexpected "let is reserved in const, let, class declaration"
  let p ← reads .pattern
  if (← isTyped) && p matches .name _ then discard (eatSign "!")
  optionalAnnotation reads
  if inLoop && ((← isWord "in") || (← isWord "of")) then return p
  if ← eatSign "=" then
    let place ← here
    return .orElse p (← verify place (← reads .assign))
  if (← mode).ambient then return p
  if kind = .const_ then
    noteAt start .constNeedsValue
    return p
  match p with
  | .name _ => return p
  | _ => failAt start .destructuringNeedsValue

/-- Declared variables between commas. -/
def declarators (kind : DeclKind) (inLoop : Bool) : Nat → Parser (List Pattern)
  | 0 => fail .endOfText
  | n + 1 => do
    if ← isSign ";" then
      noteAt (← lastEnd) .trailingCommaNotAllowed
      return []
    let p ← declarator reads kind inLoop
    if ← eatSign "," then return p :: (← declarators kind inLoop n) else return [p]

/-- Pass over tokens up to the end of a statement. -/
def skipToEnd : Nat → Parser Unit
  | 0 => fail .endOfText
  | n + 1 => do
    if ← eatStatementEnd then return
    advance
    skipToEnd n

/-- The kind of a declaration whose word is at hand. -/
def declKind : Parser (Option DeclKind) := do
  if ← isWord "var" then return some .var
  else if ← isWord "const" then return some .const_
  else if ← isWord "let" then return if followsLet (← peek) then some .let_ else none
  else return none

/-- A declaration of variables, whose word is at hand. -/
def declaration (kind : DeclKind) : Parser Stmt := do
  advance
  let ds ← inMode ({ · with noIn := false }) (declarators reads kind false (← bound))
  unless ← eatStatementEnd do
    note .expectedSemicolon
    passOver (reads .expr)
    skipToEnd (← bound)
  return .decl kind ds

/-! ## Loops -/

/-- What is between the parentheses of a `for` that counts, from behind the first semicolon on, and
the body. -/
def forRest (start : Stmt) (inBody : Parser Stmt) : Parser Stmt := do
  let test ← if ← eatSign ";" then pure Expr.absent else do
    let e ← inMode ({ · with noIn := false }) (reads .expr)
    discard (eatSign ";")
    pure e
  let step ← if ← isSign ")" then pure Expr.absent else
    inMode ({ · with noIn := false }) (reads .expr)
  expectSign ")"
  return .for start test step (← inBody)

/-- What is behind `in` or `of`, and the body. -/
def forEach (kind : Option DeclKind) (target : Pattern) (awaitPlace : Option Nat)
    (inBody : Parser Stmt) : Parser Stmt := do
  if ← eatWord "of" then
    let e ← inMode ({ · with noIn := false }) (reads .assign)
    expectSign ")"
    return .forOf kind target e (← inBody) awaitPlace.isSome
  else
    advance
    let e ← inMode ({ · with noIn := false }) (reads .expr)
    expectSign ")"
    return .forIn kind target e (← inBody)

/-- The body of a loop. -/
def loopBody : Parser Stmt :=
  inMode ({ · with canBreak := true, canContinue := true }) (reads (.stmt false))

/-- The variable that a loop over members declares; whether it is one over `of`. -/
def loopTarget (kind : DeclKind) (isOf : Bool) : List Pattern → Parser Pattern
  | [.orElse p e] => do
    if isOf || (← mode).strict || kind ≠ .var then note .valueInForIn
    return .orElse p e
  | [p] => pure p
  | ds => do
    note .tooManyForBindings
    return ds.headD .hole

/-- A loop whose parentheses begin with a declaration. -/
def forDeclared (kind : DeclKind) (awaitPlace : Option Nat) : Parser Stmt := do
  advance
  let ds ← inMode ({ · with noIn := kind = .var }) (declarators reads kind true (← bound))
  if (← isWord "in") || (← isWord "of") then
    let target ← loopTarget kind (← isWord "of") ds
    forEach reads (some kind) target awaitPlace (loopBody reads)
  else
    expectSign ";"
    forRest reads (.decl kind ds) (loopBody reads)

/-- Complain about a pattern behind `for` that is walked over with `in`. -/
def checkForIn (place : Nat) : Pattern → Parser Unit
  | .name _ | .expr _ => pure ()
  | _ => noteAt place .forInPattern

/-- A loop whose parentheses begin with an expression, if with anything. -/
def forExpression (awaitPlace : Option Nat) : Parser Stmt := do
  if ← eatSign ";" then return ← forRest reads .empty (loopBody reads)
  let place ← here
  let startsAsync := (← isWord "async") && Token.isWord (← peek) "of"
  let e ← inMode ({ · with noIn := true }) (reads .expr)
  if (← isWord "in") || (← isWord "of") then
    if startsAsync && awaitPlace.isNone && (← isWord "of") then noteAt place .asyncForOf
    let target ← patternOf place patternDepth .assign e
    if (← isTyped) && (← isWord "in") then checkForIn place target
    forEach reads none target awaitPlace (loopBody reads)
  else
    expectSign ";"
    forRest reads (.expr (← verify place e)) (loopBody reads)

/-- A loop over `for`. -/
def forLoop : Parser Stmt := do
  advance
  let place ← here
  let awaitPlace := if ← eatWord "await" then some place else none
  expectSign "("
  let s ← match ← declKind with
    | some kind => forDeclared reads kind awaitPlace
    | none => forExpression reads awaitPlace
  match awaitPlace, s with
  | some place, .for .. | some place, .forIn .. => failAt place .awaitOnlyForOf
  | _, _ => return s

/-- An expression between parentheses. -/
def inParens : Parser Expr := do
  expectSign "("
  let e ← inMode ({ · with noIn := false }) (reads .expr)
  expectSign ")"
  return e

/-- A loop that tests first. -/
def whileLoop : Parser Stmt := do
  advance
  let test ← inParens reads
  return .while test (← loopBody reads)

/-- A loop that tests last. -/
def doLoop : Parser Stmt := do
  advance
  let s ← loopBody reads
  expectWord "while"
  let test ← inParens reads
  discard (eatSign ";")
  return .doWhile s test

/-! ## Choices and exits -/

/-- A choice between two statements. -/
def choice : Parser Stmt := do
  advance
  expectSign "("
  let test ← inMode ({ · with noIn := false }) (reads .expr)
  unless ← eatSign ")" do
    note .expectedSemicolon
    return .cond test .empty (.erased [])
  let yes ← reads (.stmt false)
  let no ← if ← eatWord "else" then reads (.stmt false) else pure (.erased [])
  return .cond test yes no

/-- Statements of a case. -/
def caseBody : Nat → Parser (List Stmt)
  | 0 => fail .endOfText
  | n + 1 => do
    if (← atEnd) || (← isWord "case") || (← isWord "default") || (← isSign "\x7d") then return []
    let s ← reads (.stmt true)
    return s :: (← caseBody n)

/-- Cases of a `switch`. -/
def cases : Nat → Bool → Parser (List Stmt)
  | 0, _ => fail .endOfText
  | n + 1, hasDefault => do
    if ← eatWord "case" then
      let test ← inMode ({ · with noIn := false }) (reads .expr)
      expectSign ":"
      let stmts ← caseBody reads (← bound)
      return .case test stmts :: (← cases n hasDefault)
    else if ← eatWord "default" then
      if hasDefault then fail .multipleDefaults
      expectSign ":"
      let stmts ← caseBody reads (← bound)
      return .case .absent stmts :: (← cases n true)
    else return []

/-- A `switch`. -/
def switch : Parser Stmt := do
  advance
  let e ← inParens reads
  expectSign "\x7b"
  let cs ← inMode ({ · with canBreak := true }) (cases reads (← bound) false)
  expectSign "\x7d"
  return .switch e cs

/-- What a `catch` binds and does. -/
def handler : Parser (Option Pattern × List Stmt) := do
  let param ← if ← eatSign "(" then do
      let p ← reads .pattern
      optionalAnnotation reads
      expectSign ")"
      pure (some p)
    else pure none
  return (param, ← reads .block)

/-- A `try`. -/
def tryStmt : Parser Stmt := do
  advance
  let stmts ← reads .block
  let place ← here
  let caught ← if ← eatWord "catch" then some <$> handler reads else pure none
  let final ← if ← eatWord "finally" then some <$> reads .block else pure none
  if caught.isNone && final.isNone then noteAt place .expectedSemicolon
  let param := caught.bind (·.1)
  return .try stmts (param.getD .hole) ((caught.map (·.2)).getD []) (final.getD [])
    ⟨caught.isSome, param.isSome, final.isSome⟩

/-- A `break` or `continue`. -/
def jump (isBreak : Bool) : Parser Stmt := do
  let start ← here
  advance
  let label ← if ← eatStatementEnd then pure none else do
    let name ← bindingName
    expectStatementEnd
    pure (some name)
  let known := label.all ((← labels).contains ·)
  let m ← mode
  if isBreak then
    if !known then noteAt start .breakLabel
    else if !m.canBreak then noteAt start .breakOutside
    return .break label
  else
    if !m.canContinue then noteAt start .continueOutside
    else if !known then noteAt start .continueLabel
    return .continue label

/-- A `return`. -/
def returnStmt : Parser Stmt := do
  let start ← here
  advance
  let e ← if ← atStatementEnd then pure Expr.absent else
    inMode ({ · with noIn := false }) (reads .expr)
  expectStatementEnd
  unless (← mode).inFunction do noteAt start .returnOutside
  return .ret e

/-- A `throw`. -/
def throwStmt : Parser Stmt := do
  advance
  if (← current).newline then fail .lineBreakInThrow
  let e ← inMode ({ · with noIn := false }) (reads .expr)
  expectStatementEnd
  return .throw e

/-- A `with`. -/
def withStmt : Parser Stmt := do
  let start ← here
  if ← isTyped then noteAt start .withNotSupported
  noteIfStrict start .withInStrict
  advance
  let e ← inParens reads
  return .with e (← reads (.stmt false))

/-- A statement behind its label and the colon. -/
def labelled (place : Nat) (name : String) : Parser Stmt := do
  let outer ← labels
  setLabels (name :: outer)
  let s ← inMode ({ · with canBreak := true }) do
    if ← isWord "function" then
      let start ← here
      match ← reads (.func false false start) with
      | some f => do
        noteIfStrict start .labelledFunctionInStrict
        if f.info.isGenerator || f.info.isAsync then noteAt start .labelledGenerator
        return Stmt.func f
      | none => return .erased []
    else reads (.stmt false)
  if outer.contains name then noteAt place (.duplicateLabel name)
  setLabels outer
  return .label name s

/-- The end of a statement that is an expression; an operator in place of it is complained about and
the expression goes on. -/
def expressionEnd (start : Nat) (e : Expr) : Parser Stmt := do
  if ← eatStatementEnd then return .expr e
  match ← binaryOperator with
  | some _ => do
    note .expectedSemicolon
    return .expr (← operators reads start (← bound) 0 e)
  | none => fail .expectedStatementEnd

/-- Statements that a word starts; none if no such word is at hand. -/
def keywordStmt (declarations : Bool) : Parser (Option Stmt) := do
  let tok ← current
  match tok.kind with
  | .sign "\x7b" => return some (.block (← reads .block))
  | .sign ";" => do advance; return some .empty
  | .word text false =>
    match text with
    | "break" => return some (← jump true)
    | "continue" => return some (← jump false)
    | "debugger" => do advance; expectStatementEnd; return some .debugger
    | "do" => return some (← doLoop reads)
    | "for" => return some (← forLoop reads)
    | "if" => return some (← choice reads)
    | "return" => return some (← returnStmt reads)
    | "switch" => return some (← switch reads)
    | "throw" => return some (← throwStmt reads)
    | "try" => return some (← tryStmt reads)
    | "while" => return some (← whileLoop reads)
    | "with" => return some (← withStmt reads)
    | "catch" => do
      note .expectedSemicolon
      advance
      discard (handler reads)
      if ← eatWord "finally" then discard (reads .block)
      return some .empty
    | "finally" => do
      note .expectedSemicolon
      advance
      discard (reads .block)
      return some .empty
    | "function" => do
      unless declarations do note .declarationNotAllowed
      match ← reads (.func false false tok.start) with
      | some f => return some (.func f)
      | none => return some (.erased [])
    | "async" => do
      let next ← peek
      if Token.isWord next "function" && !next.newline then
        unless declarations do note .declarationNotAllowed
        advance
        match ← reads (.func false true tok.start) with
        | some f => return some (.func f)
        | none => return some (.erased [])
      else return none
    | "class" => do
      unless declarations do note .declarationNotAllowed
      return some (.klass (← reads (.klass false tok.start [] false)))
    | "var" => return some (← declaration reads .var)
    | "const" =>
      if declarations then return some (← declaration reads .const_) else return none
    | "let" =>
      if declarations && followsLet (← peek) then return some (← declaration reads .let_)
      else return none
    | "await" => do
      let m ← mode
      if m.inFunction || m.isModule then return none
      advance
      let e ← awaitRest reads tok.start
      let e ← operators reads tok.start (← bound) 0 e
      discard (eatSign ";")
      return some (.expr e)
    | _ => return none
  | _ => return none

end ScriptHost.Script.Parser
