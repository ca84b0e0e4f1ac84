import ScriptHost.Script.Parser.Types
/-!
Patterns: what names are bound by, what values are assigned to, and how an expression that was read
before its meaning was known becomes a pattern.
-/

namespace ScriptHost.Script.Parser

variable (reads : Reads)

/-! ## Member names -/

/-- A computed key and whether it is one. -/
def keyOrComputed : Parser (Bool × Expr) := do
  let tok ← current
  match tok.kind with
  | .word text _ => do advance; return (false, .ident text)
  | .str value raw => do advance; return (false, .str value raw)
  | .num value raw => do advance; return (false, .num value raw)
  | .big value raw => do advance; return (false, .big value raw)
  | .sign "[" => do
    advance
    let place ← here
    let e ← inMode ({ · with noIn := false }) (reads .assign)
    if (← isTyped) && (← isSign ",") then
      let _ ← inMode ({ · with noIn := false }) do advance; reads .expr
      noteAt place .commaInKey
    expectSign "]"
    return (true, e)
  | _ => unexpected "identifier, string literal, numeric literal or [ for the computed key"

/-! ## Bindings -/

/-- A pattern with a value for when there is none. -/
def patternWithDefault : Parser Pattern := do
  let p ← reads .pattern
  if ← eatSign "=" then
    return .orElse p (← inMode ({ · with noIn := false }) (reads .assign))
  return p

/-- Elements of an array pattern up to the closing bracket. -/
def arrayBindings : Nat → Option Nat → Parser (List Pattern)
  | 0, _ => fail .endOfText
  | n + 1, rest? => do
    if (← isSign "]") || (← atEnd) then return []
    if ← eatSign "," then return .hole :: (← arrayBindings n rest?)
    match rest? with
    | some place => noteAt place .restNotLast
    | none => pure ()
    let place ← here
    let (p, rest?) ← if ← eatSign "..." then
        let p ← reads .pattern
        pure (Pattern.rest p, some place)
      else pure (← patternWithDefault reads, rest?)
    unless ← isSign "]" do
      expectSign ","
      if rest? = some place && (← isSign "]") then note .commaAfterRest
    return p :: (← arrayBindings n rest?)

/-- A member of an object pattern. -/
def memberBinding : Parser Pattern := do
  if ← eatSign "..." then return .rest (← reads .pattern)
  let place ← here
  let (computed, key) ← keyOrComputed reads
  if ← eatSign ":" then return .pair computed key (← patternWithDefault reads)
  match key, computed with
  | .ident name, false =>
    if ← eatSign "=" then
      return .short name (← inMode ({ · with noIn := false }) (reads .assign))
    if isReserved (← mode) name then noteAt place .reservedInShorthand
    return .short name .absent
  | _, _ => unexpected "an identifier"

/-- Members of an object pattern up to the closing brace. -/
def memberBindings : Nat → Parser (List Pattern)
  | 0 => fail .endOfText
  | n + 1 => do
    if ← eatSign "\x7d" then return []
    let place ← here
    let p ← memberBinding reads
    let isRest := match p with
      | .rest _ => true
      | _ => false
    unless ← isSign "\x7d" do
      expectSign ","
      if isRest then noteAt place (if ← isSign "\x7d" then .commaAfterRest else .restNotLast)
    return p :: (← memberBindings n)

/-- What a name is bound by. -/
def bindingPattern : Parser Pattern := do
  match (← current).kind with
  | .word .. => return .name (← bindingName)
  | .sign "[" => do
    advance
    let ps ← arrayBindings reads (← bound) none
    expectSign "]"
    return .array ps
  | .sign "\x7b" => do
    advance
    return .object (← memberBindings reads (← bound))
  | _ => unexpected "yield, an identifier, [ or \x7b"

/-! ## Parameters -/

/-- Words that make a parameter of a constructor a property. -/
def accessWords : List String := ["public", "private", "protected", "readonly", "override"]

/-- Pass over access words; whether there were any. -/
def eatAccessWords : Nat → Parser Bool
  | 0 => fail .endOfText
  | n + 1 => do
    let tok ← current
    match tok.kind with
    | .word text false =>
      if (← isTyped) && accessWords.contains text then
        let next ← peek
        let goesOn := match next.kind with
          | .word .. | .sign "\x7b" | .sign "[" => !next.newline
          | _ => false
        if goesOn then do
          advance
          discard (eatAccessWords n)
          return true
        else return false
      else return false
    | _ => return false

/-- A parameter; `this` with its type is none. -/
def parameter (inConstructor : Bool) : Parser (Option Pattern) := do
  let place ← here
  if (← isTyped) && (← isWord "this") then
    advance
    optionalAnnotation reads
    return none
  let isProperty ← eatAccessWords (← bound)
  if isProperty && !inConstructor then noteAt place .constructorParameterProperty
  let p ← reads .pattern
  let optional ← if ← isTyped then eatSign "?" else pure false
  optionalAnnotation reads
  let p ← if ← eatSign "=" then do
      if optional then noteAt place .optionalWithValue
      pure (Pattern.orElse p (← inMode ({ · with noIn := false }) (reads .assign)))
    else pure p
  return some (if isProperty then .property p else p)

/-- Parameters up to the closing parenthesis. -/
def parameters (inConstructor : Bool) : Nat → Option Nat → Parser (List Pattern)
  | 0, _ => fail .endOfText
  | n + 1, rest? => do
    if ← isSign ")" then return []
    match rest? with
    | some place => noteAt place .restParameterNotLast
    | none => pure ()
    if (← isTyped) && (← isSign "@") then
      advance
      discard (reads .unary)
    let place ← here
    let (p, rest?) ← if ← eatSign "..." then do
        let p ← reads .pattern
        if ← eatTypedSign "?" then noteAt place .restOptional
        optionalAnnotation reads
        if ← eatSign "=" then
          let _ ← reads .assign
          noteAt place .restWithValue
        pure (some (Pattern.rest p), some place)
      else pure (← parameter reads inConstructor, rest?)
    unless ← isSign ")" do
      expectSign ","
      if rest? = some place && (← isSign ")") then note .commaAfterRest
    return p.toList ++ (← parameters inConstructor n rest?)

/-! ## Expressions that turn out to be patterns -/

/-- What a pattern is wanted for. -/
inductive Purpose where
  /-- The left side of an assignment. -/
  | assign
  /-- A part of the left side of an assignment. -/
  | element
  /-- Parameters of an arrow function. -/
  | binding
  deriving DecidableEq

/-- What the parts of a pattern are wanted for. -/
def Purpose.part : Purpose → Purpose
  | .assign => .element
  | .element => .element
  | .binding => .binding

/-- The expression is a variable or a property access, also between parentheses. -/
def isSimpleTarget (strict : Bool) : Expr → Bool
  | .ident name => !(strict && (name = "eval" || name = "arguments"))
  | .dot _ _ .plain | .index _ _ .plain | .privateDot _ _ .plain => true
  | .superDot _ | .superIndex _ => true
  | .paren e | .typed e | .nonNull e => isSimpleTarget strict e
  | _ => false

/-- Note a complaint if an expression cannot be assigned to. -/
def checkTarget (place : Nat) (e : Expr) : Parser Unit := do
  if isSimpleTarget (← mode).strict e then return
  match e with
  | .ident _ => noteAt place .evalOrArguments
  | _ => noteAt place .notAProperty

/-- The pattern that an expression stands for, as a part of a larger one; `fuel` bounds its depth. -/
def patternOf (place : Nat) : Nat → Purpose → Expr → Parser Pattern
  | 0, _, _ => return .hole
  | n + 1, purpose, e => do
    let asIs : Parser Pattern := do
      match e with
      | .ident name => return .name name
      | _ => return .expr e
    match purpose, e with
    | _, .array items =>
      let last := items.length - 1
      let trailing := (items.reverse.takeWhile fun i => match i with
        | .hole => true
        | _ => false).length
      let parts ← items.zipIdx.mapM fun (item, i) => do
        match item with
        | .hole => return Pattern.hole
        | .one e => patternOf place n purpose.part e
        | .spread e => do
          if i ≠ last || trailing > 0 then noteAt place .restNotLast
          match e with
          | .assign .. => noteAt place .restWithValue
          | _ => pure ()
          return .rest (← patternOf place n purpose.part e)
        | _ => return Pattern.hole
      return .array (parts.take (parts.length - trailing))
    | _, .object members =>
      let last := members.length - 1
      let parts ← members.zipIdx.mapM fun (member, i) => do
        match member with
        | .short name => return Pattern.short name .absent
        | .cover name e => return .short name e
        | .pair computed key e => return .pair computed key (← patternOf place n purpose.part e)
        | .spread e => do
          if i ≠ last then noteAt place .restNotLast
          match purpose.part, e with
          | .binding, .ident name => return .rest (.name name)
          | .binding, _ => do noteAt place .dotsNeedName; return .rest .hole
          | part, _ => return .rest (← patternOf place n part e)
        | _ => failAt place .notAPattern
      return .object parts
    | .assign, _ => do checkTarget place e; asIs
    | .element, .assign "=" target value => return .orElse target value
    | .binding, .assign "=" target value =>
      match target with
      | .expr _ => do noteAt place .notAPattern; return .orElse target value
      | _ => return .orElse target value
    | .element, _ => do
      if !isSimpleTarget (← mode).strict e then
        match e with
        | .dot .. | .index .. | .call .. | .new .. | .num .. | .str .. | .big .. | .bool _ | .null
        | .regex .. | .ident _ | .func _ | .klass _ | .paren _ | .template .. | .typed _ =>
          noteAt place .cannotAssign
        | _ => noteAt place .notAPattern
      asIs
    | .binding, .ident name => do
      if isReserved (← mode) name then noteAt place .expectedAName
      else if (← mode).strict && (name = "eval" || name = "arguments") then noteAt place .bindingEval
      return .name name
    | .binding, _ => do noteAt place .notAPattern; return .hole

/-- The depth of patterns that are looked at. -/
def patternDepth : Nat := 10000

/-- The left side of an assignment; it must be a pattern, a variable or a property access. -/
def assignTarget (place : Nat) (e : Expr) : Parser Pattern := do
  let p ← patternOf place patternDepth .assign e
  match p with
  | .expr e => if isSimpleTarget false e then return p else failAt place .invalidAssignTarget
  | _ => return p

mutual

/-- A member that is only a pattern stands in the expression, functions aside. -/
def hasCover : Expr → Bool
  | .object members => hasCoverItems members
  | .array items => hasCoverItems items
  | .paren e | .unary _ e | .await e | .chain e | .typed e | .nonNull e => hasCover e
  | .binary _ a b | .logical _ a b => hasCover a || hasCover b
  | .cond a b c => hasCover a || hasCover b || hasCover c
  | .seq es => hasCoverList es
  | .call f args _ | .new f args _ => hasCover f || hasCoverItems args
  | .dot o _ _ => hasCover o
  | .index o e _ => hasCover o || hasCover e
  | .assign _ _ value => hasCover value
  | _ => false

/-- A member that is only a pattern stands among the items. -/
def hasCoverItems : List Item → Bool
  | [] => false
  | .cover .. :: _ => true
  | .one e :: rest | .spread e :: rest => hasCover e || hasCoverItems rest
  | .pair _ _ e :: rest => hasCover e || hasCoverItems rest
  | _ :: rest => hasCoverItems rest

/-- A member that is only a pattern stands in one of the expressions. -/
def hasCoverList : List Expr → Bool
  | [] => false
  | e :: rest => hasCover e || hasCoverList rest

end

/-- Note a complaint if a member that is only a pattern stands in an expression. -/
def verify (place : Nat) (e : Expr) : Parser Expr := do
  if hasCover e then noteAt place .assignProperty
  return e

end ScriptHost.Script.Parser
