import ScriptHost.Number
import ScriptHost.Script.Ast
/-!
Members of enumerations. A member is known before the script runs if its value is a literal or is
computed from members that are known; a member without a value counts on from the one before it.
-/

namespace ScriptHost.Script

/-! ## Texts as literals -/

/-- A character inside a literal; what follows it tells whether a digit comes next. -/
def escapedChar (quote c : Char) (rest : List Char) : List Char :=
  let hex (n : Nat) : List Char := (Nat.toDigits 16 n)
  if c = quote || c = '\\' then ['\\', c]
  else if c = '\n' then ['\\', 'n']
  else if c = '\r' then ['\\', 'r']
  else if c = '\t' then [c]
  else if c.toNat = 8 then ['\\', 'b']
  else if c.toNat = 11 then ['\\', 'v']
  else if c.toNat = 12 then ['\\', 'f']
  else if c.toNat = 0 then
    (if (rest.head?.any Char.isDigit) then ['\\', 'x', '0', '0'] else ['\\', '0'])
  else if c.toNat < 16 then ['\\', 'x', '0'] ++ hex c.toNat
  else if c.toNat < 32 then ['\\', 'x'] ++ hex c.toNat
  else if c.toNat = 0x2028 || c.toNat = 0x2029 then ['\\', 'u'] ++ hex c.toNat
  else if c.toNat = 0xfeff then ['\\', 'u', 'F', 'E', 'F', 'F']
  else [c]

/-- The characters of a text inside a literal. -/
def escapedChars (quote : Char) : List Char → List Char
  | [] => []
  | c :: rest => escapedChar quote c rest ++ escapedChars quote rest

/-- A text as a literal, between the quotes that it holds fewer of; double ones if it makes no
difference. -/
def textLiteral (s : String) : String :=
  let cs := s.toList
  let quote := if cs.count '\'' < cs.count '"' then '\'' else '"'
  String.ofList ([quote] ++ escapedChars quote cs ++ [quote])

/-- A text as an expression. -/
def Expr.ofText (s : String) : Expr := .str s (textLiteral s)

/-- A number as an expression. -/
def Expr.ofNumber (x : Float) : Expr := .num x (Number.text x)

/-- The expression without the annotations and parentheses around it. -/
def Expr.bare : Expr → Expr
  | .paren e | .typed e | .nonNull e => e.bare
  | e => e

/-! ## Values of members -/

/-- The value of a member of an enumeration. -/
inductive MemberValue where
  | text (s : String)
  | number (x : Float)
  /-- Known only when the script runs. -/
  | late (e : Expr)
  /-- A member behind a late one that says nothing. -/
  | missing
  deriving Inhabited

namespace MemberValue

/-- The value is known before the script runs. -/
def isKnown : MemberValue → Bool
  | .text _ | .number _ => true
  | _ => false

/-- The expression for a value. -/
def toExpr : MemberValue → Expr
  | .text s => .ofText s
  | .number x => .ofNumber x
  | .late e => e
  | .missing => .unary "void" (.num 0 "0")

/-- The value of a member that says nothing, behind a member with this value. -/
def next : MemberValue → MemberValue
  | .number x => .number (x + 1)
  | _ => .missing

/-- The text that a known value adds to a template. -/
def shown? : MemberValue → Option String
  | .text s => some s
  | .number x => some (Number.text x)
  | _ => none

/-- An operator in front of a value. -/
def unary (op : String) (v : MemberValue) : MemberValue :=
  match v, op with
  | .number x, "+" => .number x
  | .number x, "-" => .number (-x)
  | .number x, "~" => .number (Number.complement x)
  | v, _ => .late (.unary op v.toExpr)

/-- An operator between two values. -/
def binary (op : String) (a b : MemberValue) : MemberValue :=
  match a, b with
  | .number x, .number y => .number (Number.operate op x y)
  | a, b =>
    match op, a.shown?, b.shown? with
    | "+", some s, some t => .text (s ++ t)
    | _, _, _ => .late (.binary op a.toExpr b.toExpr)

end MemberValue

/-- Members of enumerations whose values are known: the enumeration, the member, the value. -/
abbrev Members := String → String → Option MemberValue

/-- The name of a member that an access between brackets is about. -/
def memberNamed : Expr → Option String
  | .str value _ => some value
  | .template [⟨_, some text⟩] _ => some text
  | _ => none

mutual

/-- The value of an expression. -/
def Expr.value (known : Members) : Expr → MemberValue
  | .str value _ => .text value
  | .num x _ => .number x
  | .ident "NaN" => .number Number.nan
  | .ident "Infinity" => .number (1.0 / 0.0)
  | .paren e | .typed e | .nonNull e => e.value known
  | .unary op e =>
    if op = "+" || op = "-" || op = "~" then (e.value known).unary op else .late (.unary op e)
  | .binary op a b =>
    if Number.operators.contains op then (a.value known).binary op (b.value known)
    else .late (.binary op a b)
  | .dot (.ident owner) name .plain =>
    match known owner name with
    | some v => if v.isKnown then v else .late (.dot (.ident owner) name .plain)
    | none => .late (.dot (.ident owner) name .plain)
  | .index (.ident owner) e .plain =>
    match memberNamed e >>= known owner with
    | some v => if v.isKnown then v else .late (.index (.ident owner) e .plain)
    | none => .late (.index (.ident owner) e .plain)
  | .template chunks holes =>
    match Expr.shownAll known holes with
    | some texts =>
      .text (String.join ((chunks.map (·.raw)).zip (texts ++ [""]) |>.map fun (a, b) => a ++ b))
    | none => .late (.template chunks holes)
  | e => .late e

/-- The texts that expressions add to a template, if all of them are known. -/
def Expr.shownAll (known : Members) : List Expr → Option (List String)
  | [] => some []
  | e :: es => do
    let s ← (e.value known).shown?
    let rest ← Expr.shownAll known es
    return s :: rest

end

end ScriptHost.Script
