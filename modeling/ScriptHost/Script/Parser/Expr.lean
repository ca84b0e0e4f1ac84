import ScriptHost.Script.Parser.Function
/-!
Expressions, from literals up to assignments and sequences. An arrow function may only start where an
assignment may, and nothing can follow it but a comma or the end of the expression.
-/

namespace ScriptHost.Script.Parser

variable (reads : Reads)

/-- The expression is an arrow function without parentheses around it. -/
def isArrow : Expr → Bool
  | .func f => f.info.kind = .arrow
  | _ => false

/-! ## Lists of arguments and elements -/

/-- An expression, or several from the elements of one. -/
def spreadOrOne : Parser Item := do
  if ← eatSign "..." then return .spread (← reads .assign) else return .one (← reads .assign)

/-- Arguments behind the opening parenthesis, the closing one included. -/
def argumentsFrom : Nat → Parser (List Item)
  | 0 => fail .endOfText
  | n + 1 => do
    if ← eatSign ")" then return []
    let item ← spreadOrOne reads
    unless ← isSign ")" do expectSign ","
    return item :: (← argumentsFrom n)

/-- Arguments between parentheses. -/
def arguments : Parser (List Item) := do
  expectSign "("
  inMode ({ · with noIn := false, beforeColon := false }) (argumentsFrom reads (← bound))

/-- Elements of an array, the closing bracket included. -/
def elementsFrom : Nat → Parser (List Item)
  | 0 => fail .endOfText
  | n + 1 => do
    if ← eatSign "]" then return []
    if ← eatSign "," then return .hole :: (← elementsFrom n)
    let item ← spreadOrOne reads
    unless ← isSign "]" do expectSign ","
    return item :: (← elementsFrom n)

/-! ## Templates -/

/-- What is wrong with the first invalid escape of a piece of a template. -/
def templateComplaint (raw : Array Char) : Nat → Nat → Complaint
  | 0, _ => .templateEscape
  | n + 1, i =>
    match raw[i]? with
    | none => .templateEscape
    | some '\\' =>
      match Token.scanEscape raw (i + 1) true with
      | .refused complaint => complaint
      | _ => templateComplaint raw n (i + 2)
    | some _ => templateComplaint raw n (i + 1)

/-- The piece of a template behind the token at hand, and whether a hole follows; an untagged one has
only valid escapes. -/
def templatePiece (start : Nat) (tagged : Bool) : Parser (Chunk × Bool) := do
  let s ← get
  let place := s.tok.stop
  match Token.scanChunk s.text place with
  | none => failAt start .unterminatedTemplate
  | some ((raw, cooked), more, stop) =>
    if cooked.isNone && !tagged then
      let raw := raw.toList.toArray
      failAt place (templateComplaint raw raw.size 0)
    else
      set { s with last := stop }
      goTo stop
      return (⟨raw, cooked⟩, more)

/-- Pieces and holes of a template behind the token at hand. -/
def templateFrom (start : Nat) (tagged : Bool) : Nat → Parser (List Chunk × List Expr)
  | 0 => fail .endOfText
  | n + 1 => do
    let (chunk, more) ← templatePiece start tagged
    if more then
      let e ← inMode ({ · with noIn := false, beforeColon := false }) (reads .expr)
      unless ← isSign "\x7d" do fail (.expected "\x7d" (← shown))
      let (chunks, holes) ← templateFrom start tagged n
      return (chunk :: chunks, e :: holes)
    else return ([chunk], [])

/-- A template whose backquote is at hand. -/
def templateParts (tagged : Bool) : Parser (List Chunk × List Expr) := do
  templateFrom reads (← here) tagged (← bound)

/-! ## Objects -/

/-- What may follow the name of a member, in the words of complaints. -/
def afterMemberName : Parser String := do
  if ← isTyped then
    return "... , *,  (, [, :, , ?, =, an identifier, public, protected, private, readonly, <."
  else return "... , *,  (, [, :, , ?, = or an identifier"

/-- A method of an object from its parameters on. -/
def objectMethod (start place : Nat) (computed : Bool) (key : Expr) (kind : FuncKind)
    (isAsync isGenerator : Bool) : Parser Item := do
  let f ← functionRest reads start place none kind isAsync isGenerator
  return .method computed key (← withBody f)

/-- A member of an object. -/
def member : Parser Item := do
  let start ← here
  if ← eatSign "..." then return .spread (← reads .assign)
  if ← eatSign "*" then
    let place ← here
    let (computed, key) ← keyOrComputed reads
    return ← objectMethod reads start place computed key .method false true
  let place ← here
  let (computed, key) ← keyOrComputed reads
  if ← eatTypedSign "?" then noteAt place .optionalInObject
  if ← eatSign ":" then
    return .pair computed key (← inMode ({ · with noIn := false }) (reads .assign))
  if (← isSign "(") || ((← isTyped) && (← isLess)) then
    return ← objectMethod reads start place computed key .method false false
  match key, computed with
  | .ident name, false =>
    if (← isSign "=") || (← isSign ",") || (← isSign "\x7d") then
      if isReserved (← mode) name then noteAt place .reservedInShorthand
      if ← eatSign "=" then
        return .cover name (← inMode ({ · with noIn := false }) (reads .assign))
      return .short name
    else if name = "get" || name = "set" || name = "async" then
      let isGenerator ← if name = "async" then eatSign "*" else pure false
      let place ← here
      let (computed, key) ← keyOrComputed reads
      let kind := if name = "get" then FuncKind.getter else if name = "set" then .setter else .method
      objectMethod reads start place computed key kind (name = "async") isGenerator
    else unexpected (← afterMemberName)
  | _, _ => if ← isTyped then unexpected (← afterMemberName) else unexpected "identifier"

/-- Members of an object, the closing brace included. -/
def membersFrom : Nat → Parser (List Item)
  | 0 => fail .endOfText
  | n + 1 => do
    if ← eatSign "\x7d" then return []
    let item ← member reads
    unless ← isSign "\x7d" do expectSign ","
    return item :: (← membersFrom n)

/-! ## Parentheses and arrow functions -/

/-- What stands between parentheses: the items with their places, and the place of a comma behind the
last one. -/
def parenItems : Nat → Parser (List (Item × Nat) × Option Nat)
  | 0 => fail .endOfText
  | n + 1 => do
    if ← eatSign ")" then return ([], none)
    let place ← here
    let item ← spreadOrOne reads
    let comma ← here
    if ← isSign ")" then
      advance
      return ([(item, place)], none)
    expectSign ","
    if ← eatSign ")" then return ([(item, place)], some comma)
    let (rest, trailing) ← parenItems n
    return ((item, place) :: rest, trailing)

/-- Parameters that were read as expressions. -/
def parametersOf : List (Item × Nat) → Option Nat → Parser (List Pattern)
  | [], _ => return []
  | (.spread e, place) :: rest, trailing => do
    unless rest.isEmpty do noteAt place .restNotLast
    if rest.isEmpty then
      match trailing with
      | some comma => noteAt comma .commaAfterRest
      | none => pure ()
    let p ← match e with
      | .assign .. => do noteAt place .restWithValue; pure Pattern.hole
      | e => patternOf place patternDepth .binding e
    return .rest p :: (← parametersOf rest trailing)
  | (.one e, place) :: rest, trailing => do
    let p ← patternOf place patternDepth .binding e
    return p :: (← parametersOf rest trailing)
  | _ :: rest, trailing => parametersOf rest trailing

/-- The head of an arrow function with annotations, the arrow included. -/
def typedArrowHead (withReturnType : Bool) : Parser (List Pattern) := do
  optionalTypeParameters reads
  expectSign "("
  let params ← inMode ({ · with noIn := false, beforeColon := false })
    (parameters reads false (← bound) none)
  expectSign ")"
  if withReturnType then optionalReturnType reads
  if (← current).newline then unexpected "=>"
  expectSign "=>"
  return params

/-- An arrow function with annotations, if there is one. Where a colon is still to come it may belong
to a conditional expression around. -/
def typedArrow (start : Nat) (isAsync : Bool) : Parser (Option Expr) := do
  if (← mode).beforeColon then
    let whole ← attempt do
      let params ← typedArrowHead reads true
      let e ← arrowRest reads start params isAsync
      unless ← isSign ":" do unexpected ":"
      return e
    match whole with
    | some e => return some e
    | none =>
      match ← attempt (typedArrowHead reads false) with
      | some params => return some (← arrowRest reads start params isAsync)
      | none => return none
  else
    match ← attempt (typedArrowHead reads true) with
    | some params => return some (← arrowRest reads start params isAsync)
    | none => return none

/-- The expressions between parentheses that are no parameters. -/
def sequenceOf (items : List (Item × Nat)) : Parser (List Expr) :=
  items.mapM fun (item, place) => do
    match item with
    | .one e => return e
    | _ => failAt place .parenSpread

/-- A member of an object that is only a pattern. -/
def isCover : Item → Bool
  | .cover .. => true
  | _ => false

/-- Note a complaint about every object between parentheses with a member that is only a pattern. -/
def noteCovers : List (Item × Nat) → Parser Unit
  | [] => return
  | (item, place) :: rest => do
    match item with
    | .one (.object members) | .spread (.object members) =>
      if members.any isCover then noteAt place .assignProperty
    | _ => pure ()
    noteCovers rest

/-- A parenthesis: an arrow function, the arguments of something called `async`, or an expression. -/
def parenthesis (start : Nat) (canBeArrow isAsync : Bool) : Parser Expr := do
  if (← isTyped) && canBeArrow then
    if let some e ← typedArrow reads start isAsync then return e
  expectSign "("
  let (items, trailing) ← inMode ({ · with noIn := false, beforeColon := false })
    (parenItems reads (← bound))
  if ← isSign "=>" then
    if (← current).newline then failAt start .lineBreakBeforeArrow
    unless canBeArrow do failAt start .arrowNotAllowed
    advance
    let params ← inMode (fun m => { m with inAsync := m.inAsync || isAsync })
      (parametersOf items trailing)
    arrowRest reads start params isAsync
  else
    noteCovers items
    if isAsync then return .call (.ident "async") (items.map (·.1)) .plain
    if items.isEmpty then failAt start .emptyParens
    match ← sequenceOf items, trailing with
    | [e], none => return .paren e
    | es, none => return .paren (.seq es)
    | es, some _ => return .paren (.seq (es ++ [.absent]))

/-! ## Names and literals -/

/-- A name, or an arrow function whose parameter it is. -/
def nameOrArrow (start : Nat) (canBeArrow : Bool) : Parser Expr := do
  let tok ← take
  match tok.kind with
  | .word text _ =>
    if canBeArrow && (← isSign "=>") && !(← current).newline then
      let p ← patternOf start patternDepth .binding (.ident text)
      advance
      arrowRest reads start [p] false
    else
      if (← mode).inField && text = "arguments" then noteAt start .argumentsInField
      return .ident text
  | _ => failAt start .expressionExpected

/-- What starts with the word `async`. -/
def asyncStart (start : Nat) (canBeArrow : Bool) : Parser Expr := do
  let next ← peek
  if next.newline then nameOrArrow reads start canBeArrow
  else if Token.isWord next "function" then
    advance
    return .func (← withBody (← reads (.func true true start)))
  else if canBeArrow && Token.isSign next "(" then
    advance
    parenthesis reads start true true
  else if canBeArrow && (← isTyped) && Token.isSign next "<" then
    let arrow ← attempt do
      advance
      let params ← typedArrowHead reads true
      arrowRest reads start params true
    match arrow with
    | some e => return e
    | none => nameOrArrow reads start canBeArrow
  else
    match next.kind with
    | .word text _ =>
      if canBeArrow && !keywords.contains text && !(text = "of") then
        advance
        let name ← inMode ({ · with inAsync := true }) bindingName
        expectSign "=>"
        arrowRest reads start [.name name] true
      else nameOrArrow reads start canBeArrow
    | _ => nameOrArrow reads start canBeArrow

/-- The first of the flags that occurs again behind. -/
def repeatedFlag : List Char → Option Char
  | [] => none
  | c :: cs => if cs.contains c then some c else repeatedFlag cs

/-- The body and the flags of the regular expression whose slash is at hand. -/
def regexParts : Parser (String × String) := do
  let s ← get
  match Token.scanRegex s.text s.tok.start with
  | none =>
    set { s with tok := { s.tok with kind := .bad .unterminatedRegex } }
    fail .unterminatedRegex
  | some (body, flags, stop) =>
    set { s with last := stop }
    goTo stop
    return (body, flags)

/-- A regular expression whose slash is at hand. -/
def regex : Parser Expr := do
  let start ← here
  let (body, flags) ← regexParts
  match repeatedFlag flags.toList with
  | some c => noteAt start (.duplicateFlag c)
  | none => pure ()
  if flags.toList.any (fun c => !(['d', 'g', 'i', 'm', 's', 'u', 'v', 'y'].contains c)) then
    noteAt start .unknownFlags
  return .regex body flags

/-- Decorators in front of a class or of its elements. -/
def decorators : Nat → Parser (List Expr)
  | 0 => fail .endOfText
  | n + 1 => do
    if !(← isTyped) || !(← isSign "@") then return []
    advance
    let e ← reads .newTarget
    let e ← if ← isSign "(" then pure (Expr.call e (← arguments reads) .plain) else pure e
    return e :: (← decorators n)

/-- An expression that no operator is part of. -/
def primary : Parser Expr := do
  let tok ← current
  let start := tok.start
  let canBeArrow ← atArrowStart
  match tok.kind with
  | .num value raw => do advance; return .num value raw
  | .big value raw => do advance; return .big value raw
  | .str value raw => do advance; return .str value raw
  | .template => do
    let (chunks, holes) ← templateParts reads false
    return .template chunks holes
  | .sign "(" => parenthesis reads start canBeArrow false
  | .sign "[" => do
    advance
    return .array (← inMode ({ · with noIn := false, beforeColon := false })
      (elementsFrom reads (← bound)))
  | .sign "\x7b" => do
    advance
    return .object (← inMode ({ · with noIn := false, beforeColon := false })
      (membersFrom reads (← bound)))
  | .sign "/" | .sign "/=" => regex
  | .sign "@" => do
    let ds ← decorators reads (← bound)
    if ds.isEmpty then fail .expressionExpected
    return .klass (← reads (.klass true start ds false))
  | .priv name => do advance; return .privateName name
  | .word "this" false => do advance; return .this
  | .word "null" false => do advance; return .null
  | .word "true" false => do advance; return .bool true
  | .word "false" false => do advance; return .bool false
  | .word "function" false => return .func (← withBody (← reads (.func true false start)))
  | .word "class" false => return .klass (← reads (.klass true start [] false))
  | .word "async" false => asyncStart reads start canBeArrow
  | .word text escaped =>
    if isReserved (← mode) text then
      if escaped then fail (.escapedKeyword text) else fail .expressionExpected
    else nameOrArrow reads start canBeArrow
  | _ => fail .expressionExpected

/-! ## Accesses and calls -/

/-- Type arguments that an access goes on with; nothing has happened if they are none. -/
def accessTypeArguments (noCall : Bool) : Parser Bool := do
  if !(← isTyped) || !(← isLess) then return false
  let found ← attempt do
    typeArguments reads
    let tok ← current
    match tok.kind with
    | .sign "(" => if noCall then unexpected "an instantiation"
    | .template => pure ()
    | .word .. | .num .. | .str .. | .big .. | .priv _ =>
      unless tok.newline || Token.isWord tok "in" || Token.isWord tok "instanceof" ||
          Token.isWord tok "as" || Token.isWord tok "satisfies" do
        unexpected "an instantiation"
    | .sign text =>
      if ["[", "\x7b", "<", ">", ">>", ">>>", "+", "-", "!", "~", "++", "--", "@"].contains text then
        unexpected "an instantiation"
    | _ => pure ()
  return found.isSome

/-- Accesses and calls behind an expression; whether one of them so far was optional. -/
def accesses (noCall : Bool) : Nat → Bool → Expr → Parser Expr
  | 0, _, _ => fail .endOfText
  | n + 1, optional, e => do
    let tok ← current
    let ended : Parser Expr := return if optional then .chain e else e
    if (← isTyped) && !tok.newline && Token.isSign tok "!" then
      advance
      accesses noCall n optional (.nonNull e)
    else if ← accessTypeArguments reads noCall then accesses noCall n optional e
    else
      match tok.kind with
      | .sign "?." =>
        let next ← peek
        if noCall && Token.isSign next "(" then ended
        else do
          advance
          match (← current).kind with
          | .sign "(" => accesses noCall n true (.call e (← arguments reads) .optional)
          | .sign "[" => do
            advance
            let key ← inMode ({ · with noIn := false, beforeColon := false }) (reads .expr)
            expectSign "]"
            accesses noCall n true (.index e key .optional)
          | .priv name => do advance; accesses noCall n true (.privateDot e name .optional)
          | .template => do
            note .taggedOptional
            let (chunks, holes) ← templateParts reads true
            accesses noCall n true (.tagged e chunks holes)
          | _ =>
            if (← isTyped) && (← isLess) then
              typeArguments reads
              accesses noCall n true (.call e (← arguments reads) .optional)
            else
              let name ← wordName
              accesses noCall n true (.dot e name .optional)
      | .sign "." => do
        advance
        match (← current).kind with
        | .priv name => do advance; accesses noCall n optional (.privateDot e name .plain)
        | _ => do
          let name ← wordName
          accesses noCall n optional (.dot e name .plain)
      | .sign "[" => do
        advance
        let key ← inMode ({ · with noIn := false, beforeColon := false }) (reads .expr)
        expectSign "]"
        accesses noCall n optional (.index e key .plain)
      | .sign "(" =>
        if noCall then ended
        else accesses noCall n optional (.call e (← arguments reads) .plain)
      | .template => do
        if optional then note .taggedOptional
        let (chunks, holes) ← templateParts reads true
        accesses noCall n optional (.tagged e chunks holes)
      | _ => ended

/-- Accesses and calls behind an expression that may already be an optional chain. -/
def accessesOf (noCall : Bool) (e : Expr) : Parser Expr := do
  let n ← bound
  match e with
  | .chain e => accesses reads noCall n true e
  | e => accesses reads noCall n false e

/-- What stands behind `super`. -/
def superRest (start : Nat) (noCall : Bool) : Parser Expr := do
  match (← current).kind with
  | .sign "(" =>
    if noCall then fail .invalidSuperCall
    else do
      unless (← mode).hasSuper do noteAt start .invalidSuper
      accessesOf reads noCall (.superCall (← arguments reads))
  | .sign "." => do
    advance
    unless (← mode).hasSuper do noteAt start .invalidSuper
    match (← current).kind with
    | .priv name => do
      note .superPrivate
      advance
      accessesOf reads noCall (.superDot name)
    | _ => do accessesOf reads noCall (.superDot (← wordName))
  | .sign "[" => do
    advance
    unless (← mode).hasSuper do noteAt start .invalidSuper
    let key ← inMode ({ · with noIn := false, beforeColon := false }) (reads .expr)
    expectSign "]"
    accessesOf reads noCall (.superIndex key)
  | _ => if noCall then fail .invalidSuperCall else fail .invalidSuper

/-- What stands behind `import` in an expression. -/
def importRest (start : Nat) (noCall : Bool) : Parser Expr := do
  if ← eatSign "." then
    unless ← eatWord "meta" do unexpected "meta"
    unless (← mode).isModule do noteAt start .importMetaInScript
    accessesOf reads noCall .importMeta
  else
    if noCall then fail .expressionExpected
    let args ← arguments reads
    accessesOf reads noCall (.importCall args)

/-- What stands behind `new`. -/
def newRest (start : Nat) : Parser Expr := do
  if ← eatSign "." then
    unless ← eatWord "target" do unexpected "target"
    unless (← mode).hasNewTarget do noteAt start .invalidNewTarget
    accessesOf reads true .newTarget
  else
    let place ← here
    let callee ← reads .newTarget
    match callee with
    | .chain _ => failAt place .optionalConstructorCall
    | _ => pure ()
    if ← isSign "?." then failAt place .optionalConstructorCall
    if (← isTyped) && (← isLess) then
      discard <| attempt do
        typeArguments reads
        unless ← isSign "(" do fail (.expected "(" (← shown))
    if ← isSign "(" then accessesOf reads true (.new callee (← arguments reads) true)
    else return .new callee [] false

/-- An expression with its accesses, but no call that is not part of a `new`. -/
def memberOrNew : Parser Expr := do
  let start ← here
  if ← eatWord "new" then newRest reads start
  else if ← eatWord "super" then superRest reads start true
  else if ← eatWord "import" then importRest reads start true
  else
    let e ← primary reads
    if isArrow e then return e else accessesOf reads true e

/-- An expression with its accesses and calls. -/
def leftHand : Parser Expr := do
  let start ← here
  if ← eatWord "super" then superRest reads start false
  else if ← eatWord "import" then importRest reads start false
  else
    let e ← memberOrNew reads
    match e with
    | .new _ _ false => return e
    | _ => if isArrow e then return e else accessesOf reads false e

/-! ## Operators -/

/-- An expression that waits, from behind its word on. -/
def awaitRest (start : Nat) : Parser Expr := do
  if ← isSign "*" then fail .awaitStar
  let m ← mode
  let ends := (← atStatementEnd) || (← isSign ")") || (← isSign "]") || (← isSign ",")
  if !m.inFunction && !m.isModule then note .topLevelAwait
  if !m.inAsync && ends then
    if m.isModule || m.inStaticBlock then noteAt start .awaitIsReserved
    return .ident "await"
  if m.inFunction && !m.inAsync then note .awaitInFunction
  if m.inParameters && m.inAsync then noteAt start .awaitInParameter
  return .await (← reads .unary)

/-- The words and signs that apply to the expression behind them. -/
def unaryOperators : List String := ["delete", "typeof", "void", "+", "-", "~", "!"]

/-- The unary operator at hand. -/
def unaryOperator : Parser (Option String) := do
  match (← current).kind with
  | .sign text | .word text false =>
    return if unaryOperators.contains text then some text else none
  | _ => return none

/-- The expression is a property access, also between parentheses. -/
def isPropertyAccess : Expr → Bool
  | .paren e | .typed e | .nonNull e | .chain e => isPropertyAccess e
  | .dot .. | .index .. | .privateDot .. | .superDot .. | .superIndex .. => true
  | _ => false

/-- An expression with the operators in front of it and behind it. -/
def unary : Parser Expr := do
  let start ← here
  if (← isTyped) && (← isLess) then
    discard eatLess
    if ← eatWord "const" then
      expectGreater
      return .typed (← reads .unary)
    reads .type
    expectGreater
    return .typed (← reads .unary)
  if (← isSign "++") || (← isSign "--") then
    let op ← shown
    advance
    let place ← here
    let e ← reads .unary
    checkTarget place e
    return .update op true e
  if let some op ← unaryOperator then
    advance
    let place ← here
    let e ← recover (reads .unary) .absent
    if op = "delete" then
      match e with
      | .ident _ => noteIfStrict place .deleteName
      | _ => pure ()
      if (← isTyped) && !isPropertyAccess e then noteAt place .nonNullTarget
    return .unary op e
  if ← eatWord "await" then return ← awaitRest reads start
  let e ← leftHand reads
  if isArrow e || (← current).newline then return e
  if (← isSign "++") || (← isSign "--") then
    checkTarget start e
    let op ← shown
    advance
    return .update op false e
  return e

/-- The binary operator at hand and how tightly it binds. -/
def binaryOperator : Parser (Option (String × Nat)) := do
  match (← current).kind with
  | .sign text => return (bindingOf text).map (text, ·)
  | .word text false =>
    if text = "in" && (← mode).noIn then return none
    else if text = "in" || text = "instanceof" then return (bindingOf text).map (text, ·)
    else return none
  | _ => return none

/-- The expression is joined by `&&` or `||`. -/
def isAndOr : Expr → Bool
  | .logical op _ _ => op = "&&" || op = "||"
  | _ => false

/-- Two expressions joined by an operator. -/
def joined (op : String) (a b : Expr) : Expr :=
  if op = "&&" || op = "||" || op = "??" then .logical op a b
  else match op, a with
    | "in", .privateName name => .privateIn name b
    | _, _ => .binary op a b

/-- End the reading if a power has an operand that a unary operator applies to. -/
def checkPower (start : Nat) (op : String) (a : Expr) : Parser Unit := do
  if op = "**" then
    match a with
    | .unary .. | .await _ => failAt start .unaryPower
    | _ => pure ()

/-- Note a complaint if `??` is mixed with `&&` or `||`. -/
def checkMixed (start : Nat) (op : String) (a b : Expr) : Parser Unit := do
  if op = "??" && (isAndOr a || isAndOr b) then noteAt start .mixedNullish
  if op = "||" || op = "&&" then
    match a with
    | .logical "??" _ _ => noteAt start .mixedNullish
    | _ => pure ()

/-- Operators that bind more tightly than `least`, behind a left operand. -/
def operators (start : Nat) : Nat → Nat → Expr → Parser Expr
  | 0, _, _ => fail .endOfText
  | n + 1, least, a => do
    if (← isTyped) && !(← current).newline && least < 7 &&
        ((← isWord "as") || (← isWord "satisfies")) then
      let isAs ← isWord "as"
      advance
      if isAs && (← isWord "const") then advance else reads .type
      return ← operators start n least (.typed a)
    match ← binaryOperator with
    | none => return a
    | some (op, strength) =>
      if strength ≤ least then return a
      checkPower start op a
      advance
      let place ← here
      let first ← reads .unary
      let b ← operators place n (if op = "**" then strength - 1 else strength) first
      checkMixed start op a b
      operators start n least (joined op a b)

/-- The first operand of operators; one that is missing in front of an operator is complained
about and passed over. -/
def firstOperand : Parser Expr := fun s =>
  match reads .unary s with
  | .ok e s' => .ok e s'
  | .error fault s' =>
    let s' := { s' with mode := s.mode, labels := s.labels }
    match binaryOperator s' with
    | .ok (some _) s' =>
      .ok .absent { s' with notes := ⟨.expressionExpected, s'.tok.start⟩ :: s'.notes }
    | _ => .error fault s'

/-- An expression with its binary operators. -/
def binary : Parser Expr := do
  let start ← here
  let e ← firstOperand reads
  if isArrow e then return e
  operators reads start (← bound) 0 e

/-- A conditional expression, or less. -/
def conditional : Parser Expr := do
  let test ← reads .binary
  if isArrow test then return test
  if ← eatSign "?" then
    let yes ← inMode ({ · with noIn := false, beforeColon := true }) (reads .assign)
    expectSign ":"
    let no ← inMode ({ · with beforeColon := false }) (reads .assign)
    return .cond test yes no
  return test

/-! ## Assignments -/

/-- The signs that assign. -/
def assignSigns : List String :=
  ["=", "+=", "-=", "*=", "/=", "%=", "**=", "<<=", ">>=", ">>>=", "&=", "|=", "^=", "&&=", "||=",
   "??="]

/-- The sign at hand that assigns. -/
def assignSign : Parser (Option String) := do
  match (← current).kind with
  | .sign text => return if assignSigns.contains text then some text else none
  | _ => return none

/-- An assignment to what was read, if a sign for it follows. -/
def assignmentTo (start : Nat) (e : Expr) : Parser Expr := do
  match ← assignSign with
  | none => return e
  | some "=" =>
    let target ← assignTarget start e
    advance
    return .assign "=" target (← reads .assign)
  | some op =>
    unless isSimpleTarget (← mode).strict e do
      noteAt start (if ← isTyped then .notAProperty else .cannotAssign)
    unless isSimpleTarget false e do failAt start .invalidAssignTarget
    advance
    return .assign op (match e with
      | .ident name => .name name
      | e => .expr e) (← reads .assign)

/-- A `yield` expression, whose word is at hand. -/
def yield : Parser Expr := do
  let start ← here
  advance
  if (← mode).inParameters then failAt start .yieldParameter
  let tok ← current
  let ends := (← atStatementEnd) || (match tok.kind with
    | .sign ")" | .sign "]" | .sign ":" | .sign "," => true
    | .word "in" _ | .word "of" _ => true
    | _ => false)
  if ends then return .yield false .absent
  let delegate ← eatSign "*"
  return .yield delegate (← reads .assign)

/-- An expression without commas. -/
def assign : Parser Expr := do
  let start ← here
  if (← isTyped) && (← isLess) then
    let arrow ← attempt do
      let params ← typedArrowHead reads true
      arrowRest reads start params false
    if let some e := arrow then return e
  if (← mode).inGenerator && (← isWord "yield") then return ← yield reads
  markArrowStart
  let e ← conditional reads
  if isArrow e then return e
  match e with
  | .cond .. | .binary .. | .logical .. | .privateIn .. | .unary .. | .update .. => return e
  | _ => assignmentTo reads start e

/-- Expressions behind commas. -/
def commas : Nat → Parser (List Expr)
  | 0 => fail .endOfText
  | n + 1 => do
    if ← eatSign "," then
      let e ← reads .assign
      return e :: (← commas n)
    else return []

/-- An expression. -/
def expr : Parser Expr := do
  let e ← reads .assign
  if ← isSign "," then return .seq (e :: (← commas reads (← bound))) else return e

end ScriptHost.Script.Parser
