import ScriptHost.Script.Parser.Basic
/-!
Type annotations. They mean nothing at run time, so the reader only passes over them.
-/

namespace ScriptHost.Script.Parser

variable (reads : Reads)

/-- Pass over one `>`, which may be the start of a longer sign. -/
def expectGreater : Parser Unit := do
  let tok ← current
  match tok.kind with
  | .sign text =>
    if text.startsWith ">" then do
      modify fun s => { s with last := tok.start + 1 }
      goTo (tok.start + 1)
    else fail (.expected ">" (← shown))
  | _ => fail (.expected ">" (← shown))

/-- The token at hand starts with `<`; a longer sign is cut. -/
def isLess : Parser Bool := do
  match (← current).kind with
  | .sign text => return text = "<" || text = "<<"
  | _ => return false

/-- Pass over one `<`. -/
def eatLess : Parser Bool := do
  let tok ← current
  if ← isLess then do
    modify fun s => { s with last := tok.start + 1 }
    goTo (tok.start + 1)
    return true
  else return false

/-- The token at hand starts with `>`. -/
def isGreater : Parser Bool := do
  match (← current).kind with
  | .sign text => return text.startsWith ">"
  | _ => return false

/-- Items between commas, up to a closing sign. -/
def separated (item : Parser Unit) (closed : Parser Bool) : Nat → Parser Unit
  | 0 => return
  | n + 1 => do
    if ← closed then return
    item
    if ← closed then return
    expectSign ","
    separated item closed n

/-- Types between angles. -/
def typeArguments : Parser Unit := do
  discard eatLess
  separated (reads .type) isGreater (← bound)
  expectGreater

/-- The declared type parameters of a function, class or type. -/
def typeParameters : Parser Unit := do
  let start ← here
  discard eatLess
  if ← isGreater then noteAt start .emptyTypeParameters
  separated (do
    for word in ["const", "in", "out"] do
      if (← isWord word) && Token.isAnyWord (← peek) then advance
    discard wordName
    if ← eatWord "extends" then reads .type
    if ← eatSign "=" then reads .type) isGreater (← bound)
  expectGreater

/-- Type parameters, if there are any. -/
def optionalTypeParameters : Parser Unit := do
  if (← isTyped) && (← isLess) then typeParameters reads

/-- A type, or what a function asserts about its argument. -/
def returnType : Parser Unit := do
  if (← isWord "asserts") && Token.isAnyWord (← peek) && !(← peek).newline then
    advance
    advance
    if ← eatWord "is" then reads .type
  else if Token.isAnyWord (← current) && Token.isWord (← peek) "is" && !(← peek).newline then
    advance
    advance
    reads .type
  else reads .type

/-- A colon and a type, if there is one. -/
def optionalAnnotation : Parser Unit := do
  if ← eatTypedSign ":" then reads .type

/-- A colon and a return type, if there is one. -/
def optionalReturnType : Parser Unit := do
  if ← eatTypedSign ":" then returnType reads

/-- Brackets or braces and everything inside them. -/
def skipBalanced : Nat → Nat → Parser Unit
  | 0, _ => return
  | n + 1, depth => do
    let tok ← current
    match tok.kind with
    | .eof => fail .endOfText
    | .sign "\x7b" | .sign "[" | .sign "(" => do advance; skipBalanced n (depth + 1)
    | .sign "\x7d" | .sign "]" | .sign ")" => do
      advance
      if depth ≤ 1 then return else skipBalanced n (depth - 1)
    | _ => do advance; skipBalanced n depth

/-- The parameters of a function type, parentheses included. -/
def typeParameterList : Parser Unit := do
  expectSign "("
  separated (do
    discard (eatSign "...")
    if (← isSign "[") || (← isSign "\x7b") then skipBalanced (← bound) 0
    else discard wordName
    discard (eatSign "?")
    optionalAnnotation reads) (isSign ")") (← bound)
  expectSign ")"

/-- A function type starts here. -/
def startsFunctionType : Parser Bool := do
  if ← isLess then return true
  if !(← isSign "(") then return false
  let found ← lookAhead do
    advance
    if (← isSign ")") || (← isSign "...") then return true
    if (← isSign "[") || (← isSign "\x7b") then skipBalanced (← bound) 0
    else discard wordName
    if (← isSign ":") || (← isSign ",") || (← isSign "?") || (← isSign "=") then return true
    if ← eatSign ")" then return (← isSign "=>")
    return false
  return found.getD false

/-- A function type, or the type of a constructor behind its `new`. -/
def functionType : Parser Unit := do
  optionalTypeParameters reads
  typeParameterList reads
  expectSign "=>"
  returnType reads

/-- The name of a member of a type. -/
def typeMemberName : Parser Unit := do
  match (← current).kind with
  | .word .. | .str .. | .num .. | .big .. | .priv _ => advance
  | .sign "[" => do
    advance
    discard (reads .assign)
    expectSign "]"
  | _ => unexpected "identifier, string literal, numeric literal or [ for the computed key"

/-- The end of a member of a type. -/
def typeMemberEnd : Parser Unit := do
  if ← eatSign "," then return
  unless ← eatStatementEnd do unexpected "; , \x7d or a line break"

/-- The signature of a method, behind its name. -/
def signature : Parser Unit := do
  optionalTypeParameters reads
  typeParameterList reads
  optionalReturnType reads

/-- The member is an index signature. -/
def startsIndexSignature : Parser Bool := do
  if !(← isSign "[") then return false
  let found ← lookAhead do
    advance
    if !Token.isAnyWord (← current) then return false
    advance
    isSign ":"
  return found.getD false

/-- An index signature. -/
def indexSignature : Parser Unit := do
  expectSign "["
  discard wordName
  expectSign ":"
  reads .type
  expectSign "]"
  optionalAnnotation reads

/-- A member of an object type. -/
def typeMember : Parser Unit := do
  if (← isSign "(") || (← isLess) then
    signature reads
    typeMemberEnd
  else if (← isWord "new") && (Token.isSign (← peek) "(" || Token.isSign (← peek) "<") then
    advance
    signature reads
    typeMemberEnd
  else
    for word in ["readonly", "get", "set"] do
      if ← isWord word then
        let next ← peek
        let ends := ["(", "<", "?", ":", ",", ";", "\x7d"].any (Token.isSign next ·)
        if !ends && !next.newline then advance
    if ← startsIndexSignature then indexSignature reads
    else
      typeMemberName reads
      discard (eatSign "?")
      if (← isSign "(") || (← isLess) then signature reads else optionalAnnotation reads
    typeMemberEnd

/-- Members up to the closing brace. -/
def typeMembers : Nat → Parser Unit
  | 0 => return
  | n + 1 => do
    if ← atEnd then fail .endOfText
    if ← isSign "\x7d" then return
    typeMember reads
    typeMembers n

/-- The body of an object type or an interface. -/
def typeBody : Parser Unit := do
  expectSign "\x7b"
  typeMembers reads (← bound)
  expectSign "\x7d"

/-- The braces at hand are a mapped type. -/
def startsMappedType : Parser Bool := do
  let found ← lookAhead do
    advance
    if (← isSign "+") || (← isSign "-") then
      advance
      return (← isWord "readonly")
    if (← isWord "readonly") && Token.isSign (← peek) "[" then advance
    if !(← eatSign "[") then return false
    discard wordName
    isWord "in"
  return found.getD false

/-- A mapped type. -/
def mappedType : Parser Unit := do
  expectSign "\x7b"
  discard (eatSign "+")
  discard (eatSign "-")
  discard (eatWord "readonly")
  expectSign "["
  discard wordName
  expectWord "in"
  reads .type
  if ← eatWord "as" then reads .type
  expectSign "]"
  discard (eatSign "+")
  discard (eatSign "-")
  discard (eatSign "?")
  if ← eatSign ":" then reads .type
  discard eatStatementEnd
  expectSign "\x7d"

/-- An element of a tuple type. -/
def tupleElement : Parser Unit := do
  discard (eatSign "...")
  let named ← lookAhead do
    discard wordName
    discard (eatSign "?")
    isSign ":"
  if named.getD false then
    discard wordName
    discard (eatSign "?")
    expectSign ":"
    reads .type
  else
    reads .type
    discard (eatSign "?")

/-- Names between dots. -/
def entityName : Nat → Parser Unit
  | 0 => return
  | n + 1 => do
    discard wordName
    if ← eatSign "." then entityName n

/-- The holes of a template type. -/
def templateHoles : Nat → Nat → Parser Unit
  | 0, _ => return
  | n + 1, place => do
    match Token.scanChunk (← get).text place with
    | none => fail .unterminatedTemplate
    | some (_, false, stop) =>
      modify fun s => { s with last := stop }
      goTo stop
    | some (_, true, stop) =>
      goTo stop
      reads .type
      let tok ← current
      unless Token.isSign tok "\x7d" do fail (.expected "\x7d" (← shown))
      templateHoles n (tok.start + 1)

/-- The words that complaints about a missing type offer. -/
def typeStarts : String :=
  "an identifier, void, yield, null, await, break, a string literal, a numeric literal, true, " ++
  "false, \x60, -, import, this, typeof, \x7b, [, ("

/-- A type without brackets behind it. -/
def atomicType : Parser Unit := do
  let tok ← current
  match tok.kind with
  | .eof => fail .endOfText
  | .str .. | .num .. | .big .. => advance
  | .template => templateHoles reads (← bound) tok.stop
  | .sign "-" => do
    advance
    match (← current).kind with
    | .num .. | .big .. => advance
    | _ => unexpected "numeric literal or bigint literal"
  | .sign "\x7b" => if ← startsMappedType then mappedType reads else typeBody reads
  | .sign "[" => do
    advance
    separated (tupleElement reads) (isSign "]") (← bound)
    expectSign "]"
  | .sign "(" => do
    advance
    reads .type
    expectSign ")"
  | .word "import" _ => do
    advance
    expectSign "("
    reads .type
    if ← eatSign "," then discard (reads .assign)
    expectSign ")"
    if ← eatSign "." then entityName (← bound)
    if ← isLess then typeArguments reads
  | .word "typeof" _ => do
    advance
    if ← isWord "import" then reads .simpleType else entityName (← bound)
    if (← isLess) && !(← current).newline then typeArguments reads
  | .word text _ =>
    let allowed := ["void", "null", "this", "true", "false", "yield", "await", "break"].contains text
    if keywords.contains text && !allowed then unexpected typeStarts
    else do
      entityName (← bound)
      if (← isLess) && !(← current).newline then typeArguments reads
  | _ => unexpected typeStarts

/-- Brackets behind a type. -/
def typeBrackets : Nat → Parser Unit
  | 0 => return
  | n + 1 => do
    if (← isSign "[") && !(← current).newline then
      advance
      if ← eatSign "]" then typeBrackets n
      else
        reads .type
        expectSign "]"
        typeBrackets n

/-- A type with its prefix words and brackets. -/
def operatorType : Nat → Parser Unit
  | 0 => return
  | n + 1 => do
    let next ← peek
    let goesOn := Token.isAnyWord next || (match next.kind with
      | .sign "\x7b" | .sign "[" | .sign "(" | .template | .str .. | .num .. => true
      | _ => false)
    if ((← isWord "keyof") || (← isWord "unique") || (← isWord "readonly")) && goesOn then
      advance
      operatorType n
    else if (← isWord "infer") && Token.isAnyWord next then
      advance
      discard wordName
      let constrained ← attempt do
        expectWord "extends"
        inMode ({ · with noConditional := true }) (reads .type)
        if !(← mode).noConditional && (← isSign "?") then unexpected "a type"
      if constrained.isNone then pure ()
    else
      atomicType reads
      typeBrackets reads (← bound)

/-- Types joined by a sign. -/
def joinedTypes (sign : String) (item : Parser Unit) : Nat → Parser Unit
  | 0 => return
  | n + 1 => do
    item
    if ← eatSign sign then joinedTypes sign item n

/-- A type with no conditional form. -/
def simpleType : Parser Unit := do
  if ← startsFunctionType then functionType reads
  else if (← isWord "new") || ((← isWord "abstract") && Token.isWord (← peek) "new") then
    discard (eatWord "abstract")
    advance
    functionType reads
  else
    let intersection : Parser Unit := do
      discard (eatSign "&")
      joinedTypes "&" (do
        if ← startsFunctionType then functionType reads else operatorType reads (← bound)) (← bound)
    discard (eatSign "|")
    joinedTypes "|" intersection (← bound)

/-- A type. -/
def type : Parser Unit := do
  inMode ({ · with noIn := false }) do
  simpleType reads
  if !(← mode).noConditional && (← isWord "extends") && !(← current).newline then
    advance
    inMode ({ · with noConditional := true }) (reads .simpleType)
    expectSign "?"
    inMode ({ · with noConditional := false }) (reads .type)
    expectSign ":"
    inMode ({ · with noConditional := false }) (reads .type)

end ScriptHost.Script.Parser
