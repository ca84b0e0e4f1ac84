import ScriptHost.Proofs.Script.Expressions
namespace ScriptHost.Script

open ScriptHost.Script.Parser

set_option synthInstance.maxSize 1000000

namespace Twins

variable {w : Twins} (reads : Reads) [Reading w reads]

/-! ### Variables -/

instance (kind : DeclKind) (inLoop : Bool) : w.Blind (declarator reads kind inLoop) := by
  unfold declarator
  dsimp only
  refine .on_place fun start _ => .step inferInstance fun isLet => .choice (.step inferInstance fun _ => ?_) ?_
  all_goals
    refine .step inferInstance fun p => .untyped ?_
    refine @Blind.off _ _ _ inferInstance _ _ (.step inferInstance fun _ => ?_)
    refine .step inferInstance fun ins => .step inferInstance fun ofs => .choice inferInstance ?_
    refine .step inferInstance fun value => .choice inferInstance (.step inferInstance fun mode => ?_)
    refine .choice inferInstance (.choice inferInstance ?_)
    split <;> infer_instance

instance declarators_blind (kind : DeclKind) (inLoop : Bool) (n : Nat) :
    w.Blind (declarators reads kind inLoop n) := by
  induction n with
  | zero =>
    unfold declarators
    infer_instance
  | succ n ih =>
    unfold declarators
    infer_instance

instance skipToEnd_blind (n : Nat) : w.Blind (skipToEnd n) := by
  induction n with
  | zero =>
    unfold skipToEnd
    infer_instance
  | succ n ih =>
    unfold skipToEnd
    infer_instance

instance : w.Blind declKind := by
  unfold declKind
  refine .step inferInstance fun isVar => .choice inferInstance (.step inferInstance fun isConst => ?_)
  refine .choice inferInstance (.step inferInstance fun isLet => .choice ?_ inferInstance)
  exact .peek (fun next => inferInstance) (fun _ => rfl) (fun _ _ _ => rfl) fun _ => rfl

instance (kind : DeclKind) : w.Blind (declaration reads kind) := by
  unfold declaration
  dsimp only
  refine .step inferInstance fun _ => .step inferInstance fun _ => .step inferInstance fun ds => ?_
  refine .step inferInstance fun ended => .choice inferInstance ?_
  exact .noted .expectedSemicolon

/-! ### Loops -/

instance (start : Stmt) (inBody : Parser Stmt) [w.Blind inBody] : w.Blind (forRest reads start inBody) := by
  unfold forRest
  dsimp only
  infer_instance

instance (kind : Option DeclKind) (target : Pattern) (awaitPlace : Option Nat) (inBody : Parser Stmt) [w.Blind inBody] :
    w.Blind (forEach reads kind target awaitPlace inBody) := by
  unfold forEach
  infer_instance

instance : w.Blind (inParens reads) := by
  unfold inParens
  infer_instance

instance : w.Blind (loopBody reads) := by
  unfold loopBody
  infer_instance

instance : w.Blind (whileLoop reads) := by
  unfold whileLoop
  infer_instance

instance : w.Blind (doLoop reads) := by
  unfold doLoop
  infer_instance

instance (kind : DeclKind) (isOf : Bool) (ds : List Pattern) : w.Blind (loopTarget kind isOf ds) := by
  unfold loopTarget
  dsimp only
  split <;> infer_instance

instance (kind : DeclKind) (awaitPlace : Option Nat) : w.Blind (forDeclared reads kind awaitPlace) := by
  unfold forDeclared
  infer_instance

instance (place : Nat) (p : Pattern) : w.Blind (checkForIn place p) := by
  unfold checkForIn
  split <;> infer_instance

instance (awaitPlace : Option Nat) : w.Blind (forExpression reads awaitPlace) := by
  unfold forExpression
  dsimp only
  refine .step inferInstance fun ended => .choice inferInstance (.on_place fun place _ => ?_)
  refine .step inferInstance fun async => .peek (fun next => ?_) (fun _ => rfl) (fun _ _ _ => rfl) fun _ => rfl
  infer_instance

instance : w.Blind (forLoop reads) := by
  unfold forLoop
  dsimp only
  refine .step inferInstance fun _ => .on_place fun place _ => .step inferInstance fun awaits => ?_
  refine .step inferInstance fun _ => .step inferInstance fun kind => ?_
  split
  all_goals
    refine .step inferInstance fun s => ?_
    split <;> infer_instance

/-! ### Choices and exits -/

instance : w.Blind (Parser.choice reads) := by
  unfold Parser.choice
  dsimp only
  infer_instance

instance caseBody_blind (n : Nat) : w.Blind (caseBody reads n) := by
  induction n with
  | zero =>
    unfold caseBody
    infer_instance
  | succ n ih =>
    unfold caseBody
    infer_instance

instance cases_blind : ∀ n hasDefault, w.Blind (Parser.cases reads n hasDefault)
  | 0, _ => by
    unfold Parser.cases
    infer_instance
  | n + 1, hasDefault => by
    have := cases_blind n
    unfold Parser.cases
    dsimp only
    infer_instance

instance : w.Blind (switch reads) := by
  unfold switch
  infer_instance

instance : w.Blind (handler reads) := by
  unfold handler
  dsimp only
  infer_instance

instance : w.Blind (tryStmt reads) := by
  unfold tryStmt
  dsimp only
  infer_instance

instance (isBreak : Bool) : w.Blind (jump isBreak) := by
  unfold jump
  dsimp only
  infer_instance

instance : w.Blind (returnStmt reads) := by
  unfold returnStmt
  dsimp only
  infer_instance

instance : w.Blind (throwStmt reads) := by
  unfold throwStmt
  dsimp only
  infer_instance

instance : w.Blind (withStmt reads) := by
  unfold withStmt
  dsimp only
  infer_instance

instance (place : Nat) (name : String) : w.Blind (labelled reads place name) := by
  unfold labelled
  dsimp only
  refine .step inferInstance fun outer => .step inferInstance fun _ => .step (.within ?_) fun s => inferInstance
  refine .step inferInstance fun function => .choice (.on_place fun start _ => ?_) inferInstance
  refine .step inferInstance fun f => ?_
  split <;> infer_instance

instance (start : Nat) (e : Expr) : w.Blind (expressionEnd reads start e) := by
  unfold expressionEnd
  refine .step inferInstance fun ended => .choice inferInstance (.step inferInstance fun operator => ?_)
  split <;> infer_instance

instance (declarations : Bool) : w.Blind (keywordStmt reads declarations) := by
  unfold keywordStmt
  refine .on_token fun tok _ => ?_
  dsimp only
  split
  · infer_instance
  · infer_instance
  · split
    case h_15 =>
      refine .choice ?_ (.step inferInstance fun _ => ?_)
      all_goals
        refine .step inferInstance fun f => ?_
        split <;> infer_instance
    case h_16 =>
      refine .peek (fun next => .choice ?_ inferInstance) (fun _ => rfl) (fun _ _ _ => rfl) fun _ => rfl
      refine .choice ?_ (.step inferInstance fun _ => ?_)
      all_goals
        refine .step inferInstance fun _ => .step inferInstance fun f => ?_
        split <;> infer_instance
    case h_20 => exact .peek (fun next => inferInstance) (fun _ => rfl) (fun _ _ _ => rfl) fun _ => rfl
    all_goals infer_instance
  · infer_instance

instance : w.Blind (typedStmt reads) := by
  unfold typedStmt
  dsimp only
  refine .untyped ?_
  infer_instance

instance (items : Bool) : w.Blind (refuseItem items) := by
  unfold refuseItem
  refine .step inferInstance fun imports => .choice ?_ inferInstance
  exact .peek (fun next => inferInstance) (fun _ => rfl) (fun _ _ _ => rfl) fun _ => rfl

instance (start : Nat) : w.Blind (expressionStmt reads start) := by
  unfold expressionStmt
  dsimp only
  refine .step inferInstance fun e => ?_
  split
  · infer_instance
  · infer_instance

instance (declarations items : Bool) : w.Blind (statement reads declarations items) := by
  unfold statement
  dsimp only
  refine .step inferInstance fun start => .step inferInstance fun _ => .step inferInstance fun typed => ?_
  split
  · infer_instance
  refine .step inferInstance fun keyword => ?_
  split <;> infer_instance

/-! ### The whole grammar -/

instance read_reading (n : Nat) : Reading w (Parser.read n) := by
  induction n with
  | zero => constructor <;> intros <;> unfold Parser.read <;> infer_instance
  | succ n ih => constructor <;> intros <;> unfold Parser.read <;> infer_instance

end Twins
end ScriptHost.Script
