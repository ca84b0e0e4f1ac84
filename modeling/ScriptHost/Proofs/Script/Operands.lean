import ScriptHost.Proofs.Script.Statements
/-!
What the steps of a reader come to at a state that is known: what looks at the state goes on with what is there, and a
sign or a word that is not at hand is not passed.
-/
namespace ScriptHost.Script

open ScriptHost.Script.Parser

variable {α β : Type} {s s' : Cursor} {text : String}

theorem bind_run {m : Parser α} {k : α → Parser β} {a : α} (run : m s = .ok a s') : (m >>= k) s = k a s' := by
  show EStateM.bind m k s = _
  unfold EStateM.bind
  rw [run]

/-- What a first step comes to, and what the rest makes of it. -/
theorem bind_ok_iff {m : Parser α} {k : α → Parser β} {b : β} :
    (m >>= k) s = .ok b s' ↔ ∃ a s₁, m s = .ok a s₁ ∧ k a s₁ = .ok b s' := by
  show EStateM.bind m k s = _ ↔ _
  unfold EStateM.bind
  cases m s with
  | ok a s₁ => exact ⟨fun rest => ⟨a,s₁,rfl,rest⟩,fun ⟨a,s₁,first,rest⟩ => by cases first; exact rest⟩
  | error e s₁ => exact ⟨nofun,fun ⟨a,s₁,first,rest⟩ => nomatch first⟩

section Looking

variable {k : Bool → Parser α}

theorem here_bind (k : Nat → Parser α) : (here >>= k) s = k s.tok.start s := rfl

theorem current_bind (k : Token → Parser α) : (current >>= k) s = k s.tok s := rfl

theorem mode_bind (k : Mode → Parser α) : (mode >>= k) s = k s.mode s := rfl

theorem bound_bind (k : Nat → Parser α) : (bound >>= k) s = k (s.text.size + 2 - s.tok.start) s := rfl

theorem markArrowStart_bind (k : Unit → Parser α) :
    (markArrowStart >>= k) s = k () { s with arrowStart := s.tok.start } := rfl

theorem goTo_bind (k : Unit → Parser α) (place : Nat) : (goTo place >>= k) s =
    k () { s with
      tok := (Token.scan s.text s.mode.strict s.typed place).1
      notes := (Token.scan s.text s.mode.strict s.typed place).2.reverse ++ s.notes } := rfl

theorem eof_of_atEnd (ended : atEnd s = .ok true s') : s' = s ∧ s.tok.kind = .eof := by
  obtain ⟨_,typed,⟨kind,start,stop,newline⟩,last,notes,labels,mode,arrowStart⟩ := s
  cases kind <;> cases ended
  exact ⟨rfl,rfl⟩

theorem atArrowStart_bind : (atArrowStart >>= k) s = k (decide (s.arrowStart = s.tok.start)) s := rfl

theorem get_bind (k : Cursor → Parser α) : (get >>= k) s = k s s := rfl

theorem isTyped_bind : (isTyped >>= k) s = k s.typed s := rfl

theorem isWord_bind : (isWord text >>= k) s = k (Token.isWord s.tok text) s := rfl

theorem isSign_run (text : String) (s : Cursor) : isSign text s = .ok (Token.isSign s.tok text) s := by
  obtain ⟨_,typed,⟨kind,start,stop,newline⟩,last,notes,labels,mode,arrowStart⟩ := s
  cases kind <;> rfl

theorem isSign_bind : (isSign text >>= k) s = k (Token.isSign s.tok text) s := bind_run (isSign_run text s)

theorem kind_of_isSign {tok : Token} (sign : Token.isSign tok text = true) : tok.kind = .sign text := by
  unfold Parser.Token.isSign at sign
  split at sign
  · next t kind => rw [kind,of_decide_eq_true sign]
  · cases sign

theorem eatSign_run (text : String) (s : Cursor) : eatSign text s =
    if Token.isSign s.tok text = true then .ok true (Twins.past s s.tok.stop) else .ok false s := by
  unfold eatSign
  rw [isSign_bind]
  split <;> rfl

theorem eatSign_other (other : Token.isSign s.tok text = false) : (eatSign text >>= k) s = k false s :=
  bind_run (by rw [eatSign_run,other]; rfl)

theorem eatSign_here (sign : Token.isSign s.tok text = true) :
    (eatSign text >>= k) s = k true (Twins.past s s.tok.stop) :=
  bind_run (by rw [eatSign_run,sign]; rfl)

theorem eatWord_run (text : String) (s : Cursor) : eatWord text s =
    if Token.isWord s.tok text = true then .ok true (Twins.past s s.tok.stop) else .ok false s := by
  unfold eatWord
  rw [isWord_bind]
  split <;> rfl

theorem eatWord_other (other : Token.isWord s.tok text = false) : (eatWord text >>= k) s = k false s :=
  bind_run (by rw [eatWord_run,other]; rfl)

theorem expectSign_here {k : Unit → Parser α} (sign : Token.isSign s.tok text = true) :
    (expectSign text >>= k) s = k () (Twins.past s s.tok.stop) :=
  bind_run (by unfold expectSign; rw [eatSign_here sign]; rfl)

theorem expectWord_here {k : Unit → Parser α} (word : Token.isWord s.tok text = true) :
    (expectWord text >>= k) s = k () (Twins.past s s.tok.stop) :=
  bind_run (by unfold expectWord; rw [bind_run (by rw [eatWord_run,if_pos word])]; rfl)

theorem isLess_run (s : Cursor) : ∃ less, isLess s = .ok less s := by
  obtain ⟨_,typed,⟨kind,start,stop,newline⟩,last,notes,labels,mode,arrowStart⟩ := s
  cases kind <;> exact ⟨_,rfl⟩

variable (reads : Reads)

theorem optionalAnnotation_untyped (untyped : s.typed = false) : optionalAnnotation reads s = .ok () s := by
  unfold optionalAnnotation eatTypedSign
  rw [bind_assoc,isTyped_bind,untyped]
  rfl

theorem optionalReturnType_untyped (untyped : s.typed = false) : optionalReturnType reads s = .ok () s := by
  unfold optionalReturnType eatTypedSign
  rw [bind_assoc,isTyped_bind,untyped]
  rfl

theorem optionalTypeParameters_untyped (untyped : s.typed = false) : optionalTypeParameters reads s = .ok () s := by
  obtain ⟨less,look⟩ := isLess_run s
  unfold optionalTypeParameters
  rw [isTyped_bind,bind_run look,untyped]
  rfl

end Looking

/-! ### An operand alone -/

/-- A token that an operand starts with: a parenthesis or the word of a function. -/
structure Opens (s : Cursor) : Prop where
  untyped : s.typed = false
  outside : s.mode.inGenerator = false
  kind : s.tok.kind = .sign "(" ∨ s.tok.kind = .word "function" false

/-- Nothing that would belong to an operand follows. -/
structure Closes (s : Cursor) : Prop where
  untyped : s.typed = false
  inside : s.tok.start ≤ s.text.size
  sameLine : s.tok.newline = false
  kind : s.tok.kind = .sign ")" ∨ s.tok.kind = .eof

/-- An expression between parentheses, or a function that is no arrow. -/
inductive IsOperand : Expr → Prop where
  | paren (e : Expr) : IsOperand (.paren e)
  | func (f : Func) (keyed : f.info.kind = .plain) : IsOperand (.func f)

theorem IsOperand.noArrow {e : Expr} (operand : IsOperand e) : isArrow e = false := by
  cases operand with
  | paren e => rfl
  | func f keyed => simp [isArrow,keyed]

theorem Opens.noSign (opens : Opens s) (other : "(" ≠ text) : Token.isSign s.tok text = false := by
  unfold Parser.Token.isSign
  rcases opens.kind with kind | kind
  · rw [kind]
    exact decide_eq_false other
  · rw [kind]

theorem Opens.noWord (opens : Opens s) (other : "function" ≠ text) : Token.isWord s.tok text = false := by
  unfold Parser.Token.isWord
  rcases opens.kind with kind | kind
  · rw [kind]
  · simp [kind,other]

theorem Closes.noSign (closes : Closes s) (other : ")" ≠ text) : Token.isSign s.tok text = false := by
  unfold Parser.Token.isSign
  rcases closes.kind with kind | kind
  · rw [kind]
    exact decide_eq_false other
  · rw [kind]

theorem Closes.noWord (closes : Closes s) : Token.isWord s.tok text = false := by
  unfold Parser.Token.isWord
  rcases closes.kind with kind | kind <;> rw [kind]

section Operand

variable (reads : Reads) {e : Expr}

theorem accesses_closes (closes : Closes s) (noCall : Bool) (n : Nat) (e : Expr) :
    accesses reads noCall (n + 1) false e s = .ok e s := by
  have none : accessTypeArguments reads noCall s = .ok false s := by
    obtain ⟨less,look⟩ := isLess_run s
    unfold accessTypeArguments
    rw [isTyped_bind,bind_run look,closes.untyped]
    rfl
  unfold accesses
  rw [current_bind,isTyped_bind,closes.untyped]
  simp only [Bool.false_and,Bool.false_eq_true,if_false]
  rw [bind_run none]
  rcases closes.kind with kind | kind <;> rw [kind] <;> rfl

theorem accessesOf_closes (closes : Closes s) (noCall : Bool) (operand : IsOperand e) :
    accessesOf reads noCall e s = .ok e s := by
  have some : s.text.size + 2 - s.tok.start = s.text.size + 1 - s.tok.start + 1 := by
    have := closes.inside
    omega
  unfold accessesOf
  rw [bound_bind,some]
  cases operand <;> exact accesses_closes reads closes noCall _ _

theorem leftHand_operand (opens : Opens s) (closes : Closes s') (operand : IsOperand e)
    (run : primary reads s = .ok e s') : leftHand reads s = .ok e s' := by
  have inner : memberOrNew reads s = .ok e s' := by
    unfold memberOrNew
    rw [here_bind,eatWord_other (opens.noWord (by decide)),if_neg Bool.false_ne_true,
      eatWord_other (opens.noWord (by decide)),if_neg Bool.false_ne_true,
      eatWord_other (opens.noWord (by decide)),if_neg Bool.false_ne_true,bind_run run,operand.noArrow,
      if_neg Bool.false_ne_true]
    exact accessesOf_closes reads closes true operand
  unfold leftHand
  rw [here_bind,eatWord_other (opens.noWord (by decide)),if_neg Bool.false_ne_true,
    eatWord_other (opens.noWord (by decide)),if_neg Bool.false_ne_true,bind_run inner]
  cases operand with
  | paren e => exact accessesOf_closes reads closes false (.paren e)
  | func f keyed =>
    dsimp only
    rw [(IsOperand.func f keyed).noArrow,if_neg Bool.false_ne_true]
    exact accessesOf_closes reads closes false (.func f keyed)

theorem unary_operand (opens : Opens s) (closes : Closes s') (operand : IsOperand e)
    (run : primary reads s = .ok e s') : unary reads s = .ok e s' := by
  obtain ⟨less,look⟩ := isLess_run s
  have none : unaryOperator s = .ok none s := by
    unfold unaryOperator
    rw [current_bind]
    rcases opens.kind with kind | kind <;> rw [kind] <;> rfl
  unfold unary
  rw [here_bind,isTyped_bind,bind_run look,opens.untyped]
  simp only [Bool.false_and,Bool.false_eq_true,if_false]
  rw [isSign_bind,isSign_bind,opens.noSign (by decide),opens.noSign (by decide),Bool.false_or,
    if_neg Bool.false_ne_true,bind_run none]
  dsimp only
  rw [eatWord_other (opens.noWord (by decide)),if_neg Bool.false_ne_true,
    bind_run (leftHand_operand reads opens closes operand run),current_bind,operand.noArrow,closes.sameLine,
    Bool.false_or,if_neg Bool.false_ne_true,isSign_bind,isSign_bind,closes.noSign (by decide),closes.noSign (by decide),
    Bool.false_or,if_neg Bool.false_ne_true]
  rfl

theorem binaryOperator_closes (closes : Closes s) : binaryOperator s = .ok none s := by
  unfold binaryOperator
  rw [current_bind]
  rcases closes.kind with kind | kind <;> rw [kind] <;> rfl

theorem binary_operand (closes : Closes s') (operand : IsOperand e)
    (run : reads .unary s = .ok e s') : binary reads s = .ok e s' := by
  have some : s'.text.size + 2 - s'.tok.start = s'.text.size + 1 - s'.tok.start + 1 := by
    have := closes.inside
    omega
  unfold binary
  rw [here_bind,bind_run (Twins.firstOperand_ok reads run),operand.noArrow,if_neg Bool.false_ne_true,bound_bind,some]
  unfold operators
  rw [isTyped_bind,current_bind,isWord_bind,isWord_bind,closes.untyped]
  simp only [Bool.false_and,Bool.false_eq_true,if_false]
  rw [bind_run (binaryOperator_closes closes)]
  rfl

theorem conditional_operand (closes : Closes s') (operand : IsOperand e) (run : reads .binary s = .ok e s') :
    conditional reads s = .ok e s' := by
  unfold conditional
  rw [bind_run run,operand.noArrow,if_neg Bool.false_ne_true,eatSign_other (closes.noSign (by decide)),
    if_neg Bool.false_ne_true]
  rfl

theorem assignSign_closes (closes : Closes s) : assignSign s = .ok none s := by
  unfold assignSign
  rw [current_bind]
  rcases closes.kind with kind | kind <;> rw [kind] <;> rfl

theorem assign_operand (opens : Opens s) (closes : Closes s') (operand : IsOperand e)
    (run : reads .binary { s with arrowStart := s.tok.start } = .ok e s') : assign reads s = .ok e s' := by
  have assigned : assignmentTo reads s.tok.start e s' = .ok e s' := by
    unfold assignmentTo
    rw [bind_run (assignSign_closes closes)]
    rfl
  obtain ⟨less,look⟩ := isLess_run s
  unfold assign
  rw [here_bind,isTyped_bind,bind_run look,opens.untyped]
  simp only [Bool.false_and,Bool.false_eq_true,if_false]
  rw [mode_bind,isWord_bind,opens.outside]
  simp only [Bool.false_and,Bool.false_eq_true,if_false]
  rw [markArrowStart_bind,bind_run (conditional_operand reads closes operand run),operand.noArrow,if_neg Bool.false_ne_true]
  cases operand <;> exact assigned

theorem expr_operand (closes : Closes s') (run : reads .assign s = .ok e s') : expr reads s = .ok e s' := by
  unfold expr
  rw [bind_run run,isSign_bind,closes.noSign (by decide),if_neg Bool.false_ne_true]
  rfl

/-- An operand alone is what an expression without commas comes to. -/
theorem read_assign_operand (n : Nat) (opens : Opens s) (closes : Closes s') (operand : IsOperand e)
    (run : primary (Parser.read n) { s with arrowStart := s.tok.start } = .ok e s') :
    Parser.read (n + 3) .assign s = .ok e s' := by
  have opens' : Opens { s with arrowStart := s.tok.start } := ⟨opens.untyped,opens.outside,opens.kind⟩
  refine assign_operand _ opens closes operand ?_
  refine binary_operand _ closes operand ?_
  exact unary_operand _ opens' closes operand run

end Operand

/-! ### A function in a parenthesis -/

section Parenthesis

variable (reads : Reads) {s u : Cursor} {f : Func}

/-- The items of a parenthesis around an operand. -/
theorem parenItems_operand {e : Expr} {n : Nat} (opens : Opens s) (run : reads .assign s = .ok e u)
    (closing : u.tok.kind = .sign ")") :
    parenItems reads (n + 1) s = .ok ([(.one e,s.tok.start)],none) (Twins.past u u.tok.stop) := by
  have isClosing : Token.isSign u.tok ")" = true := by
    unfold Parser.Token.isSign
    rw [closing]
    rfl
  have one : spreadOrOne reads s = .ok (.one e) u := by
    unfold spreadOrOne
    rw [eatSign_other (opens.noSign (by decide)),if_neg Bool.false_ne_true,bind_run run]
    rfl
  unfold parenItems
  rw [eatSign_other (opens.noSign (by decide)),if_neg Bool.false_ne_true,here_bind,bind_run one,here_bind,isSign_bind,
    isClosing,if_pos rfl]
  rfl

/-- A function in a parenthesis. -/
theorem parenthesis_function {start : Nat} {canBeArrow : Bool} {t v : Cursor} (untyped : s.typed = false)
    (paren : s.tok.kind = .sign "(") (passed : Twins.past s s.tok.stop = t) (opens : Opens t)
    (room : t.tok.start ≤ t.text.size)
    (run : reads .assign { t with mode := { t.mode with noIn := false, beforeColon := false } } = .ok (.func f) u)
    (closing : u.tok.kind = .sign ")") (after : { Twins.past u u.tok.stop with mode := t.mode } = v)
    (ends : v.tok.kind = .eof) :
    parenthesis reads start canBeArrow false s = .ok (.paren (.func f)) v := by
  have isParen : Token.isSign s.tok "(" = true := by
    unfold Parser.Token.isSign
    rw [paren]
    rfl
  have some : t.text.size + 2 - t.tok.start = t.text.size + 1 - t.tok.start + 1 := by omega
  have opens' : Opens { t with mode := { t.mode with noIn := false, beforeColon := false } } :=
    ⟨opens.untyped,opens.outside,opens.kind⟩
  have items : inMode ({ · with noIn := false, beforeColon := false }) (parenItems reads (t.text.size + 2 - t.tok.start)) t =
      .ok ([(.one (.func f),t.tok.start)],none) v := by
    rw [Twins.inMode_run,some,parenItems_operand reads opens' run closing,← after]
  have noArrow : Token.isSign v.tok "=>" = false := by
    unfold Parser.Token.isSign
    rw [ends]
  unfold parenthesis
  rw [isTyped_bind,untyped]
  simp only [Bool.false_and,Bool.false_eq_true,if_false]
  rw [expectSign_here isParen,passed,bound_bind,bind_run items]
  simp only
  rw [isSign_bind,noArrow]
  rfl

/-- A parenthesis is what a statement comes to that it starts and ends. -/
theorem statement_parenthesis {e : Expr} {v : Cursor} (untyped : s.typed = false) (paren : s.tok.kind = .sign "(")
    (run : reads .expr { s with mode := { s.mode with noIn := false } } = .ok (.paren e) u) (plain : hasCover (.paren e) = false)
    (after : { u with mode := s.mode } = v) (ends : v.tok.kind = .eof) :
    statement reads true false s = .ok (.expr (.paren e)) v := by
  have noWord : ∀ text, Token.isWord s.tok text = false := fun text => by
    unfold Parser.Token.isWord
    rw [paren]
  have refused : refuseItem false s = .ok () s := by
    unfold refuseItem
    rw [isWord_bind,noWord,if_neg Bool.false_ne_true,isWord_bind,noWord,if_neg Bool.false_ne_true]
    rfl
  have typed : typedStmt reads s = .ok none s := by
    unfold typedStmt
    rw [isTyped_bind,untyped]
    rfl
  have keyword : keywordStmt reads true s = .ok none s := by
    unfold keywordStmt
    rw [current_bind,paren]
    rfl
  have read : inMode ({ · with noIn := false }) (reads .expr) s = .ok (.paren e) v := by
    rw [Twins.inMode_run,run,← after]
  have ended : eatStatementEnd v = .ok true v := by
    have noSign : Token.isSign v.tok ";" = false := by
      unfold Parser.Token.isSign
      rw [ends]
    unfold eatStatementEnd
    rw [eatSign_other noSign,if_neg Bool.false_ne_true]
    unfold atStatementEnd
    rw [current_bind,ends]
    rfl
  unfold statement
  rw [here_bind,bind_run refused,bind_run typed]
  simp only
  rw [bind_run keyword]
  simp only
  unfold expressionStmt
  rw [bind_run read]
  simp only
  unfold verify
  simp only [plain,Bool.false_eq_true,if_false]
  rw [pure_bind]
  unfold expressionEnd
  rw [bind_run ended]
  rfl

/-- A text that a statement ends. -/
theorem body_alone {one : Stmt} {v : Cursor} {n : Nat} (paren : s.tok.kind = .sign "(") (room : s.tok.start ≤ s.text.size)
    (run : reads (.stmt true) s = .ok one v) (ends : v.tok.kind = .eof) :
    body reads (.stmt true) false true (n + 1) s = .ok [one] v := by
  have directive : atDirective s = .ok none s := by
    unfold atDirective
    rw [current_bind,paren]
    rfl
  have some : s.text.size + 2 - s.tok.start = s.text.size - s.tok.start + 2 := by omega
  have notEnd : atEnd s = .ok false s := by
    unfold atEnd
    rw [current_bind,paren]
    rfl
  have atLast : atEnd v = .ok true v := by
    unfold atEnd
    rw [current_bind,ends]
    rfl
  have rest (n : Nat) : statements reads (.stmt true) false (n + 1) v = .ok [] v := by
    unfold statements
    rw [bind_run atLast]
    rfl
  unfold body
  rw [bind_run directive]
  simp only
  rw [bound_bind,some]
  unfold statements
  rw [bind_run notEnd]
  simp only [Bool.false_eq_true,if_false]
  rw [bind_run run,bind_run (rest _)]
  rfl

end Parenthesis
end ScriptHost.Script
