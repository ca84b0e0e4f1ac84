import ScriptHost.Script.Parser.Expr
/-!
Classes. A class is strict throughout. With annotations a class may also hold signatures, which leave
no trace, and modifiers in front of its elements.
-/

namespace ScriptHost.Script.Parser

variable (reads : Reads)

/-- Modifiers in front of an element of a class. -/
structure Modifiers where
  isStatic : Bool := false
  isAbstract : Bool := false
  isReadonly : Bool := false
  isDeclared : Bool := false
  isOverride : Bool := false
  access : Option String := none
  isAccessor : Bool := false

/-- The token at hand opens the parameters of a method. -/
def atMethod : Parser Bool := do
  return (← isSign "(") || ((← isTyped) && (← isLess))

/-- A field ends or goes on here; whether a line break or the end of the text counts too. -/
def atField (breaks : Bool) : Parser Bool := do
  if (← isTyped) && ((← isSign "!") || (← isSign ":")) then return true
  if (← isSign "=") || (← isSign "\x7d") then return true
  if breaks then atStatementEnd else isSign ";"

/-- The word at hand is a modifier, as the word behind it shows. -/
def isModifier : Parser Bool := do
  let next ← peek
  match next.kind with
  | .sign text => return ["[", "\x7b", "*", "#"].contains text
  | .eof => return false
  | _ => return !next.newline

/-- The words that may stand in front of an element, apart from `static`. -/
def modifierWords : List String :=
  ["abstract", "readonly", "override", "static", "declare", "public", "private", "protected"]

/-- Read modifiers in front of an element. -/
def modifiers : Nat → Modifiers → Parser Modifiers
  | 0, _ => fail .endOfText
  | n + 1, m => do
    let tok ← current
    match tok.kind with
    | .word "static" false =>
      let next ← peek
      let isElement := ["(", ";", "=", "\x7d", "?", "!", ":"].any (Token.isSign next ·) ||
        (next.kind matches .eof) || ((← isTyped) && Token.isSign next "<")
      if isElement then return m
      if m.isStatic then
        if ← isTyped then
          noteAt tok.start (.modifierRepeated "static")
          advance
          modifiers n m
        else return m
      else
        if m.isReadonly then noteAt tok.start (.modifierOrder "static" "readonly")
        if m.isOverride then noteAt tok.start (.modifierOrder "static" "override")
        advance
        modifiers n { m with isStatic := true }
    | .word "accessor" false =>
      let next ← peek
      let goesOn := match next.kind with
        | .word .. | .str .. | .num .. | .priv _ | .sign "[" => !next.newline
        | _ => false
      if (← isTyped) && goesOn then
        advance
        return { m with isAccessor := true }
      else return m
    | .word text false =>
      if (← isTyped) && modifierWords.contains text && (← isModifier) then
        advance
        match text with
        | "abstract" => do
          if m.isAbstract then noteAt tok.start (.modifierRepeated text)
          modifiers n { m with isAbstract := true }
        | "readonly" => do
          if m.isReadonly then noteAt tok.start (.modifierRepeated text)
          modifiers n { m with isReadonly := true }
        | "override" => do
          if m.isReadonly then noteAt tok.start (.modifierOrder "override" "readonly")
          if m.isOverride then noteAt tok.start (.modifierRepeated text)
          modifiers n { m with isOverride := true }
        | "declare" => modifiers n { m with isDeclared := true }
        | _ => do
          if m.isStatic then noteAt tok.start (.modifierOrder text "static")
          else if m.isReadonly then noteAt tok.start (.modifierOrder text "readonly")
          modifiers n { m with access := some text }
      else return m
    | _ => return m

/-- The name of an element of a class. -/
def elementName : Parser (Bool × Expr) := do
  match (← current).kind with
  | .priv name => do
    if name = "constructor" then note .privateConstructor
    advance
    return (false, .privateName name)
  | _ => keyOrComputed reads

/-- The name, written without computation, is this text. -/
def isNamed (computed : Bool) (key : Expr) (text : String) : Bool :=
  !computed && match key with
    | .ident name => name = text
    | .str value _ => value = text
    | _ => false

/-- A field from behind its name on. -/
def field (place : Nat) (m : Modifiers) (computed : Bool) (key : Expr) (ds : List Expr) :
    Parser (Option Element) := do
  if isNamed computed key "constructor" then failAt place .fieldNamedConstructor
  if m.isStatic && isNamed computed key "prototype" then noteAt place .staticPrototype
  if ← isTyped then discard (eatSign "!")
  optionalAnnotation reads
  let value ← if ← eatSign "=" then
      if m.isAbstract then note .abstractValue
      inMode (fun mode => { mode with
          inField := true, hasNewTarget := true, hasSuper := true, inFunction := false,
          inAsync := false, inGenerator := false, noIn := false }) (reads .assign)
    else pure .absent
  unless ← eatStatementEnd do note .expectedSemicolon
  if m.isDeclared || m.isAbstract then return none
  if m.isAccessor then return some (.accessor m.isStatic computed key value ds)
  return some (.field m.isStatic computed key value ds)

/-- A method from its parameters on; none if it is only a signature. -/
def method (start place : Nat) (m : Modifiers) (computed : Bool) (key : Expr) (kind : FuncKind)
    (isAsync isGenerator : Bool) (ds : List Expr) : Parser (Option Element) := do
  if m.isReadonly then noteAt place .readonlyMethod
  if m.isStatic && isNamed computed key "prototype" then noteAt place .staticPrototype
  match ← functionRest reads start place none kind isAsync isGenerator with
  | some f =>
    if m.isAbstract then do
      noteAt place .abstractBody
      return none
    return some (.method m.isStatic computed key f ds)
  | none =>
    unless ds.isEmpty do noteAt place .decoratorOnOverload
    return none

/-- An element behind its modifiers. -/
def elementRest (derived : Bool) (start : Nat) (m : Modifiers) (ds : List Expr) :
    Parser (Option Element) := do
  if m.isStatic && (← isSign "\x7b") then
    advance
    let outer ← labels
    setLabels []
    let stmts ← inMode (fun mode => { mode with
        inStaticBlock := true, inFunction := false, hasNewTarget := true, hasSuper := true,
        canBreak := false, canContinue := false, inAsync := false, inGenerator := false,
        noIn := false }) (statements reads (.stmt true) true (← bound))
    setLabels outer
    return some (.block stmts)
  let isSignature ← if ← isTyped then startsIndexSignature else pure false
  if isSignature then
    indexSignature reads
    unless ← eatStatementEnd do note .expectedSemicolon
    return none
  if ← eatSign "*" then
    let place ← here
    let (computed, key) ← elementName reads
    if !m.isStatic && isNamed computed key "constructor" then noteAt place .generatorConstructor
    return ← method reads start place m computed key .method false true ds
  let tok ← current
  let place := tok.start
  let (computed, key) ← elementName reads
  let optional ← if ← isTyped then eatSign "?" else pure false
  if ← atMethod then
    let kind := if !m.isStatic && isNamed computed key "constructor" then
        (if derived then FuncKind.derivedConstructor else .constructor)
      else .method
    return ← method reads start place m computed key kind false false ds
  let word := match tok.kind with
    | .word text false => text
    | _ => ""
  let lineBreak := (← current).newline
  let nextLineGenerator := lineBreak && (← isSign "*")
  let isAccessor := (word = "get" || word = "set") && !(← atField false) && !nextLineGenerator &&
    !(← atEnd) && !optional
  if !isAccessor && (← atField true) then return ← field reads place m computed key ds
  if word = "async" && !lineBreak then
    let isGenerator ← eatSign "*"
    let place ← here
    let (computed, key) ← elementName reads
    if !m.isStatic && isNamed computed key "constructor" then noteAt place .asyncConstructor
    if ← isTyped then discard (eatSign "?")
    return ← method reads start place m computed key .method true isGenerator ds
  if isAccessor then
    let place ← here
    let (computed, key) ← elementName reads
    if !m.isStatic && isNamed computed key "constructor" then noteAt place .accessorConstructor
    return ← method reads start place m computed key (if word = "get" then .getter else .setter)
      false false ds
  unexpected "* for generator, private key, identifier or async"

/-- The element is a constructor. -/
def isConstructor : Element → Bool
  | .method _ _ _ f _ => f.info.kind = .constructor || f.info.kind = .derivedConstructor
  | _ => false

/-- Elements up to the closing brace. -/
def elements (derived : Bool) : Nat → Bool → Parser (List Element)
  | 0, _ => fail .endOfText
  | n + 1, hasConstructor => do
    if (← isSign "\x7d") || (← atEnd) then return []
    if ← eatSign ";" then return .empty :: (← elements derived n hasConstructor)
    let ds ← decorators reads (← bound)
    let m ← modifiers (← bound) {}
    let start ← here
    let e? ← elementRest reads derived start m ds
    let isCtor := e?.any isConstructor
    if isCtor && hasConstructor then noteAt start .duplicateConstructor
    let rest ← elements derived n (hasConstructor || isCtor)
    return e?.toList ++ rest

/-- Names of interfaces behind `implements` or `extends`. -/
def heritage : Nat → Parser Unit
  | 0 => return
  | n + 1 => do
    entityName (← bound)
    if ← isLess then typeArguments reads
    if ← eatSign "," then heritage n

/-- A class from its keyword on. -/
def classFrom (isExpr : Bool) (start : Nat) (ds : List Expr) : Parser Class := do
  expectWord "class"
  inMode ({ · with strict := true }) do
    let name ← if isExpr then
        if (← isTyped) && (← isWord "implements") then pure none else optionalName
      else some <$> bindingName
    optionalTypeParameters reads
    let parent ← if ← eatWord "extends" then do
        let e ← leftHand reads
        if ← isTyped then
          if ← isLess then typeArguments reads
          if ← eatSign "," then
            let place ← here
            heritage reads (← bound)
            noteAt place .multipleParents
        pure e
      else pure .absent
    if ← isWord "extends" then
      note .undeclaredExtends
      advance
      discard (leftHand reads)
    if ← isTyped then
      if ← eatWord "implements" then heritage reads (← bound)
    expectSign "\x7b"
    let es ← inMode (fun mode => { mode with noIn := false, beforeColon := false })
      (elements reads (!parent.isAbsent) (← bound) false)
    if ← atEnd then note (.expected "\x7d" (← shown)) else expectSign "\x7d"
    let text ← textFrom start
    return .mk name parent es text ds

end ScriptHost.Script.Parser
