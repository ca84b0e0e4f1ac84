import ScriptHost.Script.Parser.Pattern
/-!
Functions: parameters, bodies and what a body may hold. A body that opens with `'use strict'` is strict
from there on.
-/

namespace ScriptHost.Script

/-- Where the reader is inside a function. -/
def Mode.inside (m : Mode) (kind : FuncKind) (isAsync isGenerator : Bool) : Mode :=
  let m := { m with
    inFunction := true, inAsync := isAsync, inGenerator := isGenerator, canBreak := false,
    canContinue := false, inParameters := false, inStaticBlock := false }
  match kind with
  | .arrow => m
  | .plain => { m with hasNewTarget := true, hasSuper := false, inField := false, beforeColon := false }
  | _ => { m with hasNewTarget := true, hasSuper := true, inField := false, beforeColon := false }

namespace Parser

variable (reads : Reads)

/-- Statements up to the closing brace, or up to the end of the text. -/
def statements (one : Goal Stmt) (closing : Bool) : Nat → Parser (List Stmt)
  | 0 => fail .endOfText
  | n + 1 => do
    if ← atEnd then
      if closing then note (.expected "\x7d" (← shown))
      return []
    if closing then
      if ← eatSign "\x7d" then return []
    let s ← reads one
    return s :: (← statements one closing n)

/-- The token at hand is a string that is a statement of its own. -/
def atDirective : Parser (Option String) := do
  match (← current).kind with
  | .str _ raw =>
    let next ← peek
    let ends := match next.kind with
      | .eof | .sign ";" | .sign "\x7d" => true
      | .word .. | .str .. | .num .. => next.newline
      | _ => false
    return if ends then some raw else none
  | _ => return none

/-- Statements, of which the leading strings may make the text strict; whether the parameters in front
of them are plain names. -/
def body (one : Goal Stmt) (closing simple : Bool) : Nat → Parser (List Stmt)
  | 0 => fail .endOfText
  | n + 1 => do
    match ← atDirective with
    | none => statements reads one closing (← bound)
    | some raw =>
      if raw = "'use strict'" || raw = "\"use strict\"" then
        unless simple do note .illegalDirective
        becomeStrict
      let s ← reads one
      return s :: (← body one closing simple n)

/-- A block, braces included. -/
def block : Parser (List Stmt) := do
  expectSign "\x7b"
  inMode ({ · with noIn := false, beforeColon := false }) (statements reads (.stmt true) true (← bound))

/-- The parameter is a name and nothing else. -/
def isPlainParameter : Pattern → Bool
  | .name _ => true
  | _ => false

/-- The body of a function in braces, and whether it is strict. -/
def functionBody (simple : Bool) : Parser (List Stmt × Bool) := do
  if (← mode).ambient && (← isSign "\x7b") then note .ambientBody
  expectSign "\x7b"
  let outer ← labels
  setLabels []
  let result ← inMode ({ · with noIn := false, beforeColon := false }) do
    let stmts ← body reads (.stmt true) true simple (← bound)
    return (stmts, (← mode).strict)
  setLabels outer
  return result

/-- Note what is wrong with the number of parameters of an accessor. -/
def checkAccessor (place : Nat) (kind : FuncKind) (params : List Pattern) : Parser Unit := do
  match kind, params with
  | .getter, _ :: _ => noteAt place .getterParameters
  | .setter, [.rest _] => noteAt place .restInSetter
  | .setter, [_] => return
  | .setter, _ => noteAt place .setterParameters
  | _, _ => return

/-- A function from its parameters on; `start` is where its text starts and `place` what complaints
about its parameters are about. None if it is only a signature. -/
def functionRest (start place : Nat) (name : Option String) (kind : FuncKind)
    (isAsync isGenerator : Bool) : Parser (Option Func) := do
  let inConstructor := kind = .constructor || kind = .derivedConstructor
  inMode (Mode.inside · kind isAsync isGenerator) do
    optionalTypeParameters reads
    expectSign "("
    let params ← inMode ({ · with inParameters := true, noIn := false })
      (parameters reads inConstructor (← bound) none)
    expectSign ")"
    checkAccessor place kind params
    optionalReturnType reads
    if (← isTyped) && !(← isSign "\x7b") then
      if ← eatStatementEnd then return none
    let (stmts, strict) ← functionBody reads (params.all isPlainParameter)
    let text ← textFrom start
    return some (.mk name params stmts { kind, isAsync, isGenerator, strict, text })

/-- The name of a function, which may be missing. -/
def optionalName : Parser (Option String) := do
  match (← current).kind with
  | .word text _ =>
    let m ← mode
    if keywords.contains text || isReserved { m with strict := false } text then return none
    else return some (← bindingName)
  | _ => return none

/-- A function from its keyword on. -/
def function (isExpr isAsync : Bool) (start : Nat) : Parser (Option Func) := do
  expectWord "function"
  let isGenerator ← eatSign "*"
  let place ← here
  let name ← if isExpr then
      inMode ({ · with inAsync := isAsync, inGenerator := isGenerator, inStaticBlock := false })
        optionalName
    else some <$> bindingName
  functionRest reads start place name .plain isAsync isGenerator

/-- A function that must have a body. -/
def withBody (f : Option Func) : Parser Func := do
  match f with
  | some f => return f
  | none => fail (.expected "\x7b" (← shown))

/-- An arrow function from its body on. -/
def arrowRest (start : Nat) (params : List Pattern) (isAsync : Bool) : Parser Expr := do
  inMode (Mode.inside · .arrow isAsync false) do
    if ← isSign "\x7b" then
      let (stmts, strict) ← functionBody reads (params.all isPlainParameter)
      let text ← textFrom start
      return .func (.mk none params stmts { kind := .arrow, isAsync, strict, text })
    else
      let e ← reads .assign
      let strict := (← mode).strict
      let text ← textFrom start
      return .func (.mk none params [.ret e] { kind := .arrow, isAsync, strict, exprBody := true, text })

end Parser

end ScriptHost.Script
