import ScriptHost.Script.Ast
import ScriptHost.Script.Token
/-!
The reader of scripts: its state, its steps and its goals. A reader looks at one token at a time. A
complaint either ends the reading or is noted down while the reading goes on; of several notes the
first one counts, and a complaint that ended the reading counts before them.

Rules that use one another do so through a `Goal`: every rule is given a way to read any goal, and
the knot is tied once, with a bound on the depth of nesting (`Parser.read`).
-/

namespace ScriptHost.Script

/-- Where in a script the reader is. -/
structure Mode where
  strict : Bool := false
  isModule : Bool := false
  /-- Inside a function body, arrows included. -/
  inFunction : Bool := false
  inAsync : Bool := false
  inGenerator : Bool := false
  /-- `in` ends the expression. -/
  noIn : Bool := false
  canBreak : Bool := false
  canContinue : Bool := false
  /-- Inside a function that is no arrow, or a class. -/
  hasNewTarget : Bool := false
  /-- Inside a method. -/
  hasSuper : Bool := false
  inParameters : Bool := false
  /-- Inside a class field. -/
  inField : Bool := false
  inStaticBlock : Bool := false
  /-- Inside `declare`. -/
  ambient : Bool := false
  /-- Inside the middle of a conditional expression, where a colon follows. -/
  beforeColon : Bool := false
  /-- Inside the extends part of a conditional type. -/
  noConditional : Bool := false
  deriving Inhabited

/-- The state of a reader. -/
structure Cursor where
  text : Array Char
  /-- Type annotations are read and dropped. -/
  typed : Bool
  tok : Token
  /-- The end of the token before. -/
  last : Nat
  /-- What is wrong, newest first. -/
  notes : List Fault
  labels : List String
  mode : Mode
  /-- The last place where an arrow function could start. -/
  arrowStart : Nat
  deriving Inhabited

/-- A step of a reader. -/
abbrev Parser := EStateM Fault Cursor

/-- What can be read; the type says what comes out. -/
inductive Goal : Type → Type where
  | expr : Goal Expr
  | assign : Goal Expr
  | unary : Goal Expr
  | binary : Goal Expr
  /-- What `new` is applied to. -/
  | newTarget : Goal Expr
  /-- A statement; whether a declaration may stand here. -/
  | stmt (declarations : Bool) : Goal Stmt
  /-- A statement of a module or namespace, which may import and export. -/
  | item : Goal Stmt
  | pattern : Goal Pattern
  /-- A function from its keyword on; none if it has no body. -/
  | func (isExpr isAsync : Bool) (start : Nat) : Goal (Option Func)
  | klass (isExpr : Bool) (start : Nat) (decorators : List Expr) (isAbstract : Bool) : Goal Class
  | block : Goal (List Stmt)
  /-- A type. -/
  | type : Goal Unit
  /-- A type with no function or conditional form. -/
  | simpleType : Goal Unit

/-- A way to read every goal. -/
abbrev Reads := {α : Type} → Goal α → Parser α

namespace Parser

/-! ## Complaints -/

/-- The token at hand. -/
def current : Parser Token := return (← get).tok

/-- The place of the token at hand. -/
def here : Parser Nat := return (← get).tok.start

/-- Where the reader is. -/
def mode : Parser Mode := return (← get).mode

/-- The labels that a jump may name. -/
def labels : Parser (List String) := return (← get).labels

/-- Let jumps name these labels. -/
def setLabels (labels : List String) : Parser Unit := modify fun s => { s with labels }

/-- The end of the token before the one at hand. -/
def lastEnd : Parser Nat := return (← get).last

/-- The text is strict from here on. -/
def becomeStrict : Parser Unit := modify fun s => { s with mode := { s.mode with strict := true } }

/-- An arrow function may start at the token at hand. -/
def markArrowStart : Parser Unit := modify fun s => { s with arrowStart := s.tok.start }

/-- The token at hand is one where an arrow function may start. -/
def atArrowStart : Parser Bool := do
  let s ← get
  return s.arrowStart = s.tok.start

/-- Type annotations may stand here. -/
def isTyped : Parser Bool := return (← get).typed

/-- End the reading with a complaint about a place; a token that could not be read is complained
about before anything else. -/
def failAt {α : Type} (place : Nat) (complaint : Complaint) : Parser α := do
  let tok ← current
  match tok.kind with
  | .bad c => throw ⟨c, tok.start⟩
  | _ => throw ⟨complaint, place⟩

/-- End the reading with a complaint about the token at hand. -/
def fail {α : Type} (complaint : Complaint) : Parser α := do failAt (← here) complaint

/-- Note a complaint and go on. -/
def noteAt (place : Nat) (complaint : Complaint) : Parser Unit := do
  let s ← get
  match s.tok.kind with
  | .bad c => set { s with notes := ⟨complaint, place⟩ :: ⟨c, s.tok.start⟩ :: s.notes }
  | _ => set { s with notes := ⟨complaint, place⟩ :: s.notes }

/-- Note a complaint about the token at hand and go on. -/
def note (complaint : Complaint) : Parser Unit := do noteAt (← here) complaint

/-- Note a complaint if the text is strict. -/
def noteIfStrict (place : Nat) (complaint : Complaint) : Parser Unit := do
  if (← mode).strict then noteAt place complaint

/-- Read in another mode. -/
def inMode {α : Type} (change : Mode → Mode) (m : Parser α) : Parser α := do
  let old ← mode
  modify fun s => { s with mode := change s.mode }
  let a ← m
  modify fun s => { s with mode := old }
  return a

/-- Try a way of reading; when it ends with a complaint nothing has happened. -/
def attempt {α : Type} (m : Parser α) : Parser (Option α) := fun s =>
  match m s with
  | .ok a s' => .ok (some a) s'
  | .error _ _ => .ok none s

/-- Try a way of reading that must not note anything. -/
def attemptCleanly {α : Type} (m : Parser α) : Parser (Option α) := fun s =>
  match m s with
  | .ok a s' => if s'.notes.length = s.notes.length then .ok (some a) s' else .ok none s
  | .error _ _ => .ok none s

/-- Note the complaint that ends a way of reading, and go on with a value instead. -/
def recover {α : Type} (m : Parser α) (a : α) : Parser α := fun s =>
  match m s with
  | .ok a s' => .ok a s'
  | .error e s' => .ok a { s' with mode := s.mode, labels := s.labels, notes := e :: s'.notes }

/-- Pass over what a way of reading passes over, also if it ends with a complaint. -/
def passOver {α : Type} (m : Parser α) : Parser Unit := fun s =>
  match m s with
  | .ok _ s' => .ok () s'
  | .error _ s' => .ok () { s' with mode := s.mode, labels := s.labels }

/-- Look at what a way of reading comes to, without moving. -/
def lookAhead {α : Type} (m : Parser α) : Parser (Option α) := fun s =>
  match m s with
  | .ok a _ => .ok (some a) s
  | .error _ _ => .ok none s

/-! ## Tokens -/

/-- Make the token at a place the one at hand. -/
def goTo (place : Nat) : Parser Unit := do
  let s ← get
  let (tok, faults) := Token.scan s.text s.mode.strict s.typed place
  set { s with tok, notes := faults.reverse ++ s.notes }

/-- Pass over the token at hand. -/
def advance : Parser Unit := do
  let stop := (← current).stop
  modify fun s => { s with last := stop }
  goTo stop

/-- The token at hand, once passed over. -/
def take : Parser Token := do
  let tok ← current
  advance
  return tok

/-- The token after the one at hand. -/
def peek : Parser Token := do
  let s ← get
  return (Token.scan s.text s.mode.strict s.typed s.tok.stop).1

/-- The token at hand is this punctuation. -/
def isSign (text : String) : Parser Bool := do
  match (← current).kind with
  | .sign t => return t = text
  | _ => return false

/-- The token is this punctuation. -/
def Token.isSign (tok : Token) (text : String) : Bool :=
  match tok.kind with
  | .sign t => t = text
  | _ => false

/-- The token is this word, written without escapes. -/
def Token.isWord (tok : Token) (text : String) : Bool :=
  match tok.kind with
  | .word t escaped => t = text && !escaped
  | _ => false

/-- The token is a name or a keyword. -/
def Token.isAnyWord (tok : Token) : Bool :=
  match tok.kind with
  | .word .. => true
  | _ => false

/-- The token at hand is this word, written without escapes. -/
def isWord (text : String) : Parser Bool := return Token.isWord (← current) text

/-- The text is at its end. -/
def atEnd : Parser Bool := do
  match (← current).kind with
  | .eof => return true
  | _ => return false

/-- Pass over this punctuation, if it is at hand. -/
def eatSign (text : String) : Parser Bool := do
  if ← isSign text then do advance; return true else return false

/-- Pass over this punctuation, if it is at hand in a typed text. -/
def eatTypedSign (text : String) : Parser Bool := do
  if ← isTyped then eatSign text else return false

/-- Pass over this word, if it is at hand. -/
def eatWord (text : String) : Parser Bool := do
  if ← isWord text then do advance; return true else return false

/-- How complaints quote the token at hand. -/
def shown : Parser String := return (← current).kind.shown

/-- Pass over this punctuation, which must be at hand. -/
def expectSign (text : String) : Parser Unit := do
  unless ← eatSign text do fail (.expected text (← shown))

/-- Pass over this word, which must be at hand. -/
def expectWord (text : String) : Parser Unit := do
  unless ← eatWord text do fail (.expected text (← shown))

/-- End the reading: another token was expected. -/
def unexpected {α : Type} (wanted : String) : Parser α := do
  fail (.unexpected (← shown) wanted)

/-- A statement may end here: at a semicolon, before a brace, at the end, or at a line break. -/
def atStatementEnd : Parser Bool := do
  let tok ← current
  match tok.kind with
  | .eof => return true
  | .sign ";" | .sign "\x7d" => return true
  | _ => return tok.newline

/-- Pass over the end of a statement, if it is at hand. -/
def eatStatementEnd : Parser Bool := do
  if ← eatSign ";" then return true else atStatementEnd

/-- Pass over the end of a statement, which must be at hand. -/
def expectStatementEnd : Parser Unit := do
  unless ← eatStatementEnd do fail (.expected ";" (← shown))

/-- The text from a place to the end of the token before. -/
def textFrom (start : Nat) : Parser String := do
  let s ← get
  return Token.textBetween s.text start s.last

/-- A bound on the number of tokens that are left. -/
def bound : Parser Nat := do
  let s ← get
  return s.text.size + 2 - s.tok.start

/-! ## Words -/

/-- Words that never name anything. -/
def keywords : List String :=
  ["break", "case", "catch", "class", "const", "continue", "debugger", "default", "delete", "do",
   "else", "enum", "export", "extends", "false", "finally", "for", "function", "if", "import", "in",
   "instanceof", "new", "null", "return", "super", "switch", "this", "throw", "true", "try",
   "typeof", "var", "void", "while", "with"]

/-- Words that name nothing in strict text. -/
def strictWords : List String :=
  ["implements", "interface", "let", "package", "private", "protected", "public", "static", "yield"]

/-- The word names nothing here. -/
def isReserved (m : Mode) (word : String) : Bool :=
  keywords.contains word || (m.strict && strictWords.contains word) ||
  (word = "await" && (m.inAsync || m.isModule || m.inStaticBlock)) || (word = "yield" && m.inGenerator)

/-- The token at hand names something. -/
def isName : Parser Bool := do
  match (← current).kind with
  | .word text _ => return !isReserved (← mode) text
  | _ => return false

/-- A name that is bound here. -/
def bindingName : Parser String := do
  let tok ← current
  match tok.kind with
  | .word text escaped =>
    let m ← mode
    if escaped && keywords.contains text then failAt tok.start (.escapedKeyword text)
    if text = "enum" then noteAt tok.start (.reservedName text)
    else if strictWords.contains text then noteIfStrict tok.start (.reservedName text)
    if text = "await" then
      if m.ambient then pure ()
      else if m.inStaticBlock then fail .expectedAName
      else if m.isModule || m.inAsync then fail .awaitIsReserved
    else if text = "yield" then
      if m.inGenerator then fail .expectedAName
    else if text = "this" && (← isTyped) then pure ()
    else if keywords.contains text && text ≠ "enum" then fail .expectedAName
    else if m.strict && (text = "eval" || text = "arguments") then noteAt tok.start .bindingEval
    if m.inField && text = "arguments" then noteAt tok.start .argumentsInField
    advance
    return text
  | _ => fail .expectedAName

/-- Any word, as a name behind a dot. -/
def wordName : Parser String := do
  match (← current).kind with
  | .word text _ => do advance; return text
  | _ => fail .expectedAName

end Parser

end ScriptHost.Script
