import ScriptHost.Script.Parser.Stmt
/-!
Declarations that only annotated scripts have, imports and exports, and the whole grammar: `Parser.read`
ties the rules together, with a bound on how deep they nest, and `Source.read` reads a text.
-/

namespace ScriptHost.Script.Parser

variable (reads : Reads)

/-! ## Types and enumerations -/

/-- Pass over the rest of an interface. -/
def interfaceRest : Parser Stmt := do
  let name ← bindingName
  optionalTypeParameters reads
  if ← eatWord "extends" then heritage reads (← bound)
  typeBody reads
  return .erased [name]

/-- Pass over the rest of a type alias. -/
def aliasRest : Parser Stmt := do
  let name ← bindingName
  optionalTypeParameters reads
  expectSign "="
  reads .type
  expectStatementEnd
  return .erased [name]

/-- Members of an enumeration, the closing brace included. -/
def enumMembers : Nat → Parser (List Item)
  | 0 => return []
  | n + 1 => do
    if ← eatSign "\x7d" then return []
    let tok ← current
    let key ← match tok.kind with
      | .word text _ => do advance; pure (Expr.ident text)
      | .str value raw => do advance; pure (Expr.str value raw)
      | .num value raw => do
        noteAt tok.start .numericEnumMember
        advance
        pure (Expr.num value raw)
      | .sign "[" => do
        advance
        let e ← reads .assign
        expectSign "]"
        match e with
        | .str value raw => pure (Expr.str value raw)
        | _ => do noteAt tok.start .enumComputed; pure (Expr.ident "")
      | _ => unexpected "identifier, string literal, numeric literal or [ for the computed key"
    let value ← if ← eatSign "=" then reads .assign else pure .absent
    unless ← isSign "\x7d" do expectSign ","
    return .pair false key value :: (← enumMembers n)

/-- An enumeration behind its word. -/
def enumRest (isConst : Bool) : Parser Stmt := do
  let name ← bindingName
  expectSign "\x7b"
  return .enum isConst name (← enumMembers reads (← bound))

/-- Names between dots. -/
def dottedNames : Nat → Parser (List String)
  | 0 => return []
  | n + 1 => do
    let name ← bindingName
    if ← eatSign "." then return name :: (← dottedNames n) else return [name]

/-- The body of a namespace. -/
def namespaceBody : Parser (List Stmt) := do
  expectSign "\x7b"
  inMode ({ · with canBreak := false, canContinue := false })
    (statements reads .item true (← bound))

/-- A namespace behind its word. -/
def namespaceRest : Parser Stmt := do
  match (← current).kind with
  | .str .. => do
    advance
    if ← isSign "\x7b" then discard (namespaceBody reads) else expectStatementEnd
    return .erased []
  | _ => do
    let path ← dottedNames (← bound)
    return .namespace path (← namespaceBody reads)

/-- A declaration behind the word that was read as a name; none if the word was only a name. -/
def wordDeclaration (start : Nat) (word : String) : Parser (Option Stmt) := do
  let tok ← current
  let goesOn := Token.isAnyWord tok && !tok.newline
  match word with
  | "abstract" =>
    if Token.isWord tok "class" && !tok.newline then
      return some (.klass (← reads (.klass false start [] true)))
    else return none
  | "interface" => if goesOn then return some (← interfaceRest reads) else return none
  | "type" =>
    if goesOn && (← isName) then return some (← aliasRest reads) else return none
  | "module" | "namespace" =>
    let isText := tok.kind matches .str ..
    if !tok.newline && ((goesOn && (← isName)) || (isText && word = "module")) then
      return some (← namespaceRest reads)
    else return none
  | "global" =>
    if Token.isSign tok "\x7b" && !tok.newline then
      discard (namespaceBody reads)
      return some (.erased [])
    else return none
  | "declare" =>
    if !goesOn then return none
    else
      let s ← attempt do
        inMode ({ · with ambient := true }) (reads .item)
      match s with
      | some (.expr _) | none => return none
      | some _ => return some (.erased [])
  | _ => return none

/-- Declarations with annotations that a word starts; none if no such word is at hand. -/
def typedStmt : Parser (Option Stmt) := do
  if !(← isTyped) then return none
  let tok ← current
  let next ← peek
  let goesOn := Token.isAnyWord next && !next.newline
  match tok.kind with
  | .word "const" false =>
    if Token.isWord next "enum" then
      advance
      advance
      return some (← enumRest reads true)
    else return none
  | .word "enum" false =>
    if goesOn then
      advance
      return some (← enumRest reads false)
    else return none
  | .word "interface" false =>
    if goesOn then
      advance
      return some (← interfaceRest reads)
    else return none
  | .word "type" false =>
    let isAlias ← lookAhead do
      advance
      isName
    if goesOn && isAlias.getD false then
      advance
      return some (← aliasRest reads)
    else return none
  | .sign "@" => do
    let ds ← decorators reads (← bound)
    let isAbstract ← eatWord "abstract"
    unless ← isWord "class" do fail .decoratorsNotValid
    return some (.klass (← reads (.klass false tok.start ds isAbstract)))
  | _ => return none

/-- Refuse an import or an export where a statement has to stand; whether they may stand around it. -/
def refuseItem (items : Bool) : Parser Unit := do
  if ← isWord "import" then
    let next ← peek
    unless Token.isSign next "(" || Token.isSign next "." do
      fail (if items || (← mode).isModule then .importOrExportNested else .importOrExportInScript)
  else if ← isWord "export" then
    fail (if items || (← mode).isModule then .importOrExportNested else .importOrExportInScript)

/-- A statement that begins with an expression: a label, a declaration that only annotated scripts have,
or the expression alone. -/
def expressionStmt (start : Nat) : Parser Stmt := do
  let e ← inMode ({ · with noIn := false }) (reads .expr)
  match e with
  | .ident name =>
    if ← eatSign ":" then return ← labelled reads start name
    if ← isTyped then
      if let some s ← wordDeclaration reads start name then return s
    expressionEnd reads start e
  | e => expressionEnd reads start (← verify start e)

/-- A statement; whether a declaration may stand here, and whether imports and exports may. -/
def statement (declarations items : Bool) : Parser Stmt := do
  let start ← here
  refuseItem items
  if let some s ← typedStmt reads then return s
  if let some s ← keywordStmt reads declarations then return s
  expressionStmt reads start

/-! ## Imports and exports -/

/-- The text of a module to import from: its value and how it is written. -/
def moduleText : Parser (String × String) := do
  match (← current).kind with
  | .str value raw => do advance; return (value, raw)
  | _ => unexpected "a string literal"

/-- Attributes of an import between braces. -/
def attributesFrom : Nat → Parser (List (String × String))
  | 0 => return []
  | n + 1 => do
    if ← eatSign "\x7d" then return []
    let key ← match (← current).kind with
      | .word text _ => do advance; pure text
      | .str _ raw => do advance; pure raw
      | _ => unexpected "identifier or string"
    expectSign ":"
    let (_, raw) ← moduleText
    unless ← isSign "\x7d" do expectSign ","
    return (key, raw) :: (← attributesFrom n)

/-- Attributes of an import, if there are any. -/
def attributes : Parser (List (String × String)) := do
  if (← isWord "with") || ((← isWord "assert") && !(← current).newline) then
    advance
    expectSign "\x7b"
    attributesFrom (← bound)
  else return []

/-- A word or a text as a name of an export. -/
def exportName : Parser (String × Bool) := do
  match (← current).kind with
  | .word text _ => do advance; return (text, false)
  | .str _ raw => do advance; return (raw, true)
  | _ => unexpected "identifier or string"

/-- Named imports between braces. -/
def importNames : Nat → Parser (List (String × String × Bool))
  | 0 => return []
  | n + 1 => do
    if ← eatSign "\x7d" then return []
    let next ← peek
    let typeOnly ← if (← isTyped) && (← isWord "type") && Token.isAnyWord next &&
        !Token.isWord next "as" then do advance; pure true else pure false
    let place ← here
    let (imported, isText) ← exportName
    let name ← if ← eatWord "as" then bindingName else do
      if isText then unexpected "as"
      if isReserved (← mode) imported then noteAt place .reservedInImport
      pure imported
    unless ← isSign "\x7d" do expectSign ","
    return (imported, name, typeOnly) :: (← importNames n)

/-- An import behind its word. -/
def importItem (exported : Bool) : Parser Stmt := do
  let finish (i : Import) : Parser Stmt := do
    let attributes ← attributes
    expectStatementEnd
    return .import { i with attributes }
  let none' : Import := ⟨false, none, none, none, ("", ""), []⟩
  match (← current).kind with
  | .str value raw => do
    advance
    finish { none' with source := (value, raw) }
  | _ => do
    let next ← peek
    let typeOnly ← if (← isTyped) && (← isWord "type") &&
        (Token.isSign next "*" || Token.isSign next "\x7b" ||
          (Token.isAnyWord next && !Token.isWord next "from")) then
        do advance; pure true
      else pure false
    let default ← if Token.isAnyWord (← current) then some <$> bindingName else pure none
    match default with
    | some name =>
      if ← eatTypedSign "=" then
        let e ← if (← isWord "require") && Token.isSign (← peek) "(" then do
            advance
            expectSign "("
            let (value, raw) ← moduleText
            expectSign ")"
            pure (Expr.call (.ident "require") [.one (.str value raw)] .plain)
          else do
            match ← dottedNames (← bound) with
            | first :: rest => pure (rest.foldl (fun e name => .dot e name .plain) (.ident first))
            | [] => fail .nameExpected
        expectStatementEnd
        return if typeOnly then .erased [name] else .importEquals exported name e
    | none => pure ()
    let more ← if default.isSome then eatSign "," else pure true
    let (star, names) ← if more then
        if ← eatSign "*" then do
          expectWord "as"
          pure (some (← bindingName), none)
        else if ← eatSign "\x7b" then pure (none, some (← importNames (← bound)))
        else pure (none, none)
      else pure (none, none)
    expectWord "from"
    let source ← moduleText
    finish ⟨typeOnly, default, star, names, source, []⟩

/-- Named exports between braces. -/
def exportNamesFrom : Nat → Parser (List (String × String × Bool))
  | 0 => return []
  | n + 1 => do
    if ← eatSign "\x7d" then return []
    let next ← peek
    let typeOnly ← if (← isTyped) && (← isWord "type") &&
        ((Token.isAnyWord next && !Token.isWord next "as") || (next.kind matches .str ..)) then
        do advance; pure true
      else pure false
    let (name, _) ← exportName
    let outerName ← if ← eatWord "as" then Prod.fst <$> exportName else pure name
    unless ← isSign "\x7d" do expectSign ","
    return (name, outerName, typeOnly) :: (← exportNamesFrom n)

/-- What an export makes the default. -/
def exportDefault : Parser Stmt := do
  let tok ← current
  let next ← peek
  match tok.kind with
  | .word "function" false => do
    match ← reads (.func true false tok.start) with
    | some f => return .exportDefault (.func f)
    | none => return .exportDecl (.erased [])
  | .word "class" false => return .exportDefault (.klass (← reads (.klass true tok.start [] false)))
  | .sign "@" =>
    if ← isTyped then
      let ds ← decorators reads (← bound)
      return .exportDefault (.klass (← reads (.klass true tok.start ds false)))
    else fail .expressionExpected
  | .word text false =>
    if text = "async" && Token.isWord next "function" && !next.newline then
      advance
      match ← reads (.func true true tok.start) with
      | some f => return .exportDefault (.func f)
      | none => return .exportDecl (.erased [])
    else if (← isTyped) && text = "abstract" && Token.isWord next "class" && !next.newline then
      advance
      return .exportDefault (.klass (← reads (.klass true tok.start [] true)))
    else if (← isTyped) && text = "interface" && Token.isAnyWord next && !next.newline then
      advance
      return .exportDecl (← interfaceRest reads)
    else
      let e ← reads .assign
      expectStatementEnd
      return .exportDefault e
  | _ =>
    let e ← reads .assign
    expectStatementEnd
    return .exportDefault e

/-- The declaration behind `export`, marked as exported. -/
def exportedDeclaration : Parser Stmt := do
  let s ← statement reads true true
  match s with
  | .enum .. | .namespace .. | .erased _ | .func _ | .klass _ | .decl .. => return .exportDecl s
  | _ => fail .expressionExpected

/-- An export behind its word. -/
def exportItem : Parser Stmt := do
  if ← atEnd then fail .endOfText
  if ← isTyped then
    if ← eatWord "import" then return ← importItem true
    if ← eatSign "=" then
      let e ← reads .expr
      expectStatementEnd
      return .exportEquals e
    if (← isWord "as") && Token.isWord (← peek) "namespace" then
      advance
      advance
      discard bindingName
      expectStatementEnd
      return .erased []
  let next ← peek
  let typeOnly ← if (← isTyped) && (← isWord "type") &&
      (Token.isSign next "\x7b" || Token.isSign next "*") then do advance; pure true
    else pure false
  if ← eatSign "*" then
    let outerName ← if ← eatWord "as" then do pure (some (← exportName).1) else pure none
    expectWord "from"
    let source ← moduleText
    let attributes ← attributes
    expectStatementEnd
    return if typeOnly then .exportDecl (.erased []) else .exportAll outerName source attributes
  else if ← eatSign "\x7b" then
    let names ← exportNamesFrom (← bound)
    let source ← if ← eatWord "from" then some <$> moduleText else pure none
    let attributes ← if source.isSome then attributes else pure []
    expectStatementEnd
    let kept := names.filter (!·.2.2)
    if typeOnly || (kept.isEmpty && !names.isEmpty) then return .exportDecl (.erased [])
    return .exportNames (kept.map fun (name, outerName, _) => (name, outerName)) source attributes
  else if ← eatWord "default" then exportDefault reads
  else
    let tok ← current
    match tok.kind with
    | .word .. => exportedDeclaration reads
    | .sign "@" => exportedDeclaration reads
    | _ => fail (.expected "\x7b" (← shown))

/-- A statement that may import and export. -/
def itemStatement : Parser Stmt := do
  let next ← peek
  if (← isWord "import") && !(Token.isSign next "(" || Token.isSign next ".") then
    advance
    importItem false
  else if ← eatWord "export" then exportItem reads
  else statement reads true true

/-! ## The whole grammar -/

/-- Read a goal with at most this many rules inside one another. -/
def read : Nat → {α : Type} → Goal α → Parser α
  | 0, _, _ => fail .endOfText
  | n + 1, _, goal =>
    match goal with
    | .expr => expr (read n)
    | .assign => assign (read n)
    | .unary => unary (read n)
    | .binary => binary (read n)
    | .newTarget => memberOrNew (read n)
    | .stmt declarations => statement (read n) declarations false
    | .item => itemStatement (read n)
    | .pattern => bindingPattern (read n)
    | .func isExpr isAsync start => function (read n) isExpr isAsync start
    | .klass isExpr start ds isAbstract => do
      classFrom (read n) isExpr start ds
    | .block => block (read n)
    | .type => type (read n)
    | .simpleType => simpleType (read n)

/-- A whole text. -/
def whole (reads : Reads) (isModule : Bool) : Parser Source := do
  let text := (← get).text
  let stop := Token.interpreterEnd text
  goTo stop
  let stmts ← body reads (if isModule then .item else .stmt true) false true (← bound)
  let interpreter := if stop = 0 then none else some (Token.textBetween text 0 stop)
  return ⟨stmts, (← mode).strict, isModule, interpreter⟩

end Parser

/-- Read a text as a script or a module. -/
def Source.read (text : Array Char) (typed isModule : Bool) : Except Fault Source :=
  let mode : Mode := { strict := isModule, isModule, inAsync := false }
  let start : Cursor :=
    { text, typed, tok := default, last := 0, notes := [], labels := [], mode, arrowStart := 0 }
  match Parser.whole (Parser.read (8 * text.size + 64)) isModule start with
  | .error fault _ => .error fault
  | .ok source s =>
    match s.notes.getLast? with
    | some fault => .error fault
    | none => .ok source

end ScriptHost.Script
