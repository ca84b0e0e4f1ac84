import ScriptHost.Proofs.Script.Steps
namespace ScriptHost.Script

open ScriptHost.Script.Parser

set_option synthInstance.maxSize 1000000

namespace Twins

variable {w : Twins}

/-- A way to read goals that does the same in both texts. -/
class Reading (w : Twins) (reads : Reads) : Prop where
  expr : w.Blind (reads .expr)
  assign : w.Blind (reads .assign)
  unary : w.Blind (reads .unary)
  binary : w.Blind (reads .binary)
  newTarget : w.Blind (reads .newTarget)
  stmt (declarations : Bool) : w.Blind (reads (.stmt declarations))
  pattern : w.Blind (reads .pattern)
  func (isExpr isAsync : Bool) (start : Nat) [NeZero start] : w.Blind (reads (.func isExpr isAsync start))
  klass (isExpr : Bool) (start : Nat) [NeZero start] (ds : List Expr) (isAbstract : Bool) :
    w.Blind (reads (.klass isExpr start ds isAbstract))
  block : w.Blind (reads .block)

attribute [instance] Reading.expr Reading.assign Reading.unary Reading.binary Reading.newTarget Reading.stmt
  Reading.pattern Reading.func Reading.klass Reading.block

variable (reads : Reads) [Reading w reads]

/-! ### Annotations, of which there are none -/

instance isLess_blind : w.Blind isLess := by
  unfold isLess
  refine .on_token fun tok _ => ?_
  split <;> infer_instance

theorem Blind.typed_sign {text : String} {α : Type} {k : Bool → Parser α} (rest : w.Blind (k false)) :
    w.Blind (eatTypedSign text >>= k) := by
  unfold eatTypedSign
  rw [bind_assoc]
  refine .untyped ?_
  rw [if_neg Bool.false_ne_true,pure_bind]
  exact rest

instance (text : String) {α : Type} (k : Bool → Parser α) [w.Blind (k false)] : w.Blind (eatTypedSign text >>= k) :=
  .typed_sign inferInstance

instance : w.Blind ( optionalAnnotation reads) := by
  unfold optionalAnnotation
  infer_instance

instance : w.Blind (optionalReturnType reads) := by
  unfold optionalReturnType
  infer_instance

instance : w.Blind (optionalTypeParameters reads) := by
  unfold optionalTypeParameters
  infer_instance

/-! ### Patterns -/

instance : w.Blind (keyOrComputed reads) := by
  unfold keyOrComputed
  refine .on_token fun tok _ => ?_
  dsimp only
  split <;> infer_instance

instance : w.Blind (patternWithDefault reads) := by
  unfold patternWithDefault
  infer_instance

instance arrayBindings_blind : ∀ n rest, w.Blind (arrayBindings reads n rest)
  | 0, _ => by
    unfold arrayBindings
    infer_instance
  | n + 1, rest => by
    have := arrayBindings_blind n
    unfold arrayBindings
    cases rest <;> dsimp only <;> infer_instance

instance : w.Blind (memberBinding reads) := by
  unfold memberBinding
  dsimp only
  refine .step inferInstance fun rest => .choice inferInstance (.on_place fun place _ => ?_)
  refine .step inferInstance fun key => .step inferInstance fun colon => .choice inferInstance ?_
  split <;> infer_instance

instance memberBindings_blind : ∀ n, w.Blind (memberBindings reads n)
  | 0 => by
    unfold memberBindings
    infer_instance
  | n + 1 => by
    have := memberBindings_blind n
    unfold memberBindings
    dsimp only
    infer_instance

instance : w.Blind (bindingPattern reads) := by
  unfold bindingPattern
  refine .on_token fun tok _ => ?_
  split <;> infer_instance

instance eatAccessWords_blind : ∀ n, w.Blind (eatAccessWords n)
  | 0 => by
    unfold eatAccessWords
    infer_instance
  | n + 1 => by
    unfold eatAccessWords
    refine .on_token fun tok _ => ?_
    dsimp only
    split <;> infer_instance

instance (inConstructor : Bool) : w.Blind (parameter reads inConstructor) := by
  unfold parameter
  dsimp only
  infer_instance

instance parameters_blind (inConstructor : Bool) : ∀ n rest, w.Blind (parameters reads inConstructor n rest)
  | 0, _ => by
    unfold parameters
    infer_instance
  | n + 1, rest => by
    have := parameters_blind inConstructor n
    unfold parameters
    cases rest <;> dsimp only <;> infer_instance

instance (place : Nat) (e : Expr) : w.Blind (checkTarget place e) := by
  unfold checkTarget
  cases e <;> dsimp only <;> infer_instance


instance patternOf_blind (place : Nat) : ∀ n purpose e, w.Blind (patternOf place n purpose e)
  | 0, _, _ => by
    unfold patternOf
    infer_instance
  | n + 1, purpose, e => by
    have := patternOf_blind place n
    have asIs : w.Blind (match e with
        | .ident name => pure (.name name)
        | _ => pure (.expr e) : Parser Pattern) := by
      split <;> infer_instance
    unfold patternOf
    dsimp only
    split
    · refine .step (.each fun item => ?_) fun parts => inferInstance
      split
      · infer_instance
      · infer_instance
      · refine .choice (.step inferInstance fun _ => ?_) ?_ <;> split <;> infer_instance
      · infer_instance
    · refine .step (.each fun member => ?_) fun parts => inferInstance
      split
      · infer_instance
      · infer_instance
      · infer_instance
      · refine .choice (.step inferInstance fun _ => ?_) ?_ <;> split <;> infer_instance
      · infer_instance
    · infer_instance
    · infer_instance
    · split <;> infer_instance
    · refine .step inferInstance fun mode => .choice ?_ inferInstance
      split <;> infer_instance
    · infer_instance
    · infer_instance

instance (place : Nat) (e : Expr) : w.Blind (assignTarget place e) := by
  unfold assignTarget
  refine .step inferInstance fun p => ?_
  split <;> infer_instance

instance (place : Nat) (e : Expr) : w.Blind (verify place e) := by
  unfold verify
  infer_instance

/-! ### Functions -/

instance statements_blind (n : Nat) (declarations closing : Bool) :
    w.Blind (statements reads (.stmt declarations) closing n) := by
  induction n with
  | zero =>
    unfold statements
    infer_instance
  | succ n ih =>
    unfold statements
    dsimp only
    infer_instance

instance : w.Blind atDirective := by
  unfold atDirective
  refine .current_at fun tok _ => ?_
  split
  · next value raw kind =>
    exact .peek (by rw [kind]; rfl) (fun next => inferInstance) (fun _ => rfl) fun _ _ _ => rfl
  · infer_instance

instance body_blind (n : Nat) (declarations closing simple : Bool) :
    w.Blind (body reads (.stmt declarations) closing simple n) := by
  induction n with
  | zero =>
    unfold body
    infer_instance
  | succ n ih =>
    unfold body
    refine .step inferInstance fun directive => ?_
    dsimp only
    split <;> infer_instance

instance : w.Blind (block reads) := by
  unfold block
  infer_instance

instance (simple : Bool) : w.Blind (functionBody reads simple) := by
  unfold functionBody
  dsimp only
  infer_instance

instance (place : Nat) (kind : FuncKind) (params : List Pattern) : w.Blind (checkAccessor place kind params) := by
  unfold checkAccessor
  split <;> infer_instance

instance (start place : Nat) [NeZero start] (name : Option String) (kind : FuncKind) (isAsync isGenerator : Bool) :
    w.Blind (functionRest reads start place name kind isAsync isGenerator) := by
  unfold functionRest
  dsimp only
  infer_instance

instance : w.Blind optionalName := by
  unfold optionalName
  refine .on_token fun tok _ => ?_
  split <;> infer_instance

instance (isExpr isAsync : Bool) (start : Nat) [NeZero start] : w.Blind (function reads isExpr isAsync start) := by
  unfold function
  dsimp only
  infer_instance

instance (f : Option Func) : w.Blind (withBody f) := by
  unfold withBody
  split <;> infer_instance

instance (start : Nat) [NeZero start] (params : List Pattern) (isAsync : Bool) :
    w.Blind (arrowRest reads start params isAsync) := by
  unfold arrowRest
  dsimp only
  infer_instance

/-! ### Expressions -/

instance : w.Blind (spreadOrOne reads) := by
  unfold spreadOrOne
  infer_instance

instance argumentsFrom_blind (n : Nat) : w.Blind (argumentsFrom reads n) := by
  induction n with
  | zero =>
    unfold argumentsFrom
    infer_instance
  | succ n ih =>
    unfold argumentsFrom
    dsimp only
    infer_instance

instance : w.Blind (arguments reads) := by
  unfold arguments
  infer_instance

instance elementsFrom_blind (n : Nat) : w.Blind (elementsFrom reads n) := by
  induction n with
  | zero =>
    unfold elementsFrom
    infer_instance
  | succ n ih =>
    unfold elementsFrom
    dsimp only
    infer_instance

theorem templatePiece_run (start : Nat) (tagged : Bool) (s : Cursor) : templatePiece start tagged s =
    match Token.scanChunk s.text s.tok.stop with
    | none => failAt start .unterminatedTemplate s
    | some ((raw,cooked),more,stop) =>
      if cooked.isNone && !tagged then
        failAt s.tok.stop (templateComplaint raw.toList.toArray raw.toList.toArray.size 0) s
      else .ok (⟨raw,cooked⟩,more) (past s stop) := by
  unfold templatePiece
  show EStateM.bind EStateM.get _ s = _
  unfold EStateM.bind
  dsimp only [EStateM.get]
  cases Token.scanChunk s.text s.tok.stop with
  | none => rfl
  | some r =>
    obtain ⟨⟨raw,cooked⟩,more,stop⟩ := r
    simp only
    split <;> rfl

instance (start : Nat) (tagged : Bool) : w.Blind (templatePiece start tagged) where
  onward s fits := by
    have later := (scanChunk_same (w := w) (Nat.lt_of_lt_of_le fits.begun fits.ordered)).2
    rw [← fits.text] at later
    rw [templatePiece_run]
    cases chunk : Token.scanChunk s.text s.tok.stop with
    | none => exact Moves.onward (m := failAt _ _) s fits
    | some r =>
      obtain ⟨⟨raw,cooked⟩,more,stop⟩ := r
      simp only
      split
      · exact Moves.onward (m := failAt _ _) s fits
      · exact fits.past (Nat.le_trans fits.ordered (later _ chunk))
  same s a s' fits run sound := by
    obtain ⟨same,later⟩ := scanChunk_same (w := w) (Nat.lt_of_lt_of_le fits.begun fits.ordered)
    have same : Token.scanChunk (w.swap s).text (w.swap s).tok.stop = Token.scanChunk s.text s.tok.stop := by
      rw [fits.text]
      exact same
    rw [← fits.text] at later
    rw [templatePiece_run] at run ⊢
    rw [same]
    cases chunk : Token.scanChunk s.text s.tok.stop with
    | none =>
      rw [chunk] at run
      exact Blind.same (m := failAt _ _) s a s' fits run sound
    | some r =>
      obtain ⟨⟨raw,cooked⟩,more,stop⟩ := r
      rw [chunk] at run
      simp only at run ⊢
      split at run
      · next refused =>
        rw [if_pos refused]
        exact Blind.same (m := failAt _ _) s a s' fits run sound
      · next accepted =>
        rw [if_neg accepted]
        cases run
        rw [swap_past fits (Nat.le_trans fits.ordered (later _ chunk)) sound]

instance templateFrom_blind (start : Nat) (tagged : Bool) (n : Nat) : w.Blind (templateFrom reads start tagged n) := by
  induction n with
  | zero =>
    unfold templateFrom
    infer_instance
  | succ n ih =>
    unfold templateFrom
    dsimp only
    infer_instance

instance (tagged : Bool) : w.Blind (templateParts reads tagged) := by
  unfold templateParts
  infer_instance

instance : w.Blind afterMemberName := by
  unfold afterMemberName
  infer_instance

instance (start place : Nat) [NeZero start] (computed : Bool) (key : Expr) (kind : FuncKind) (isAsync isGenerator : Bool) :
    w.Blind (objectMethod reads start place computed key kind isAsync isGenerator) := by
  unfold objectMethod
  infer_instance

instance : w.Blind (member reads) := by
  unfold member
  dsimp only
  refine .on_place fun start _ => .step inferInstance fun spread => .choice inferInstance ?_
  refine .step inferInstance fun star => .choice inferInstance (.on_place fun place _ => ?_)
  refine .step inferInstance fun key => .typed_sign (.otherwise ?_)
  refine .step inferInstance fun colon => .choice inferInstance ?_
  refine .step inferInstance fun opens => .untyped (.step inferInstance fun less => .choice inferInstance ?_)
  split <;> infer_instance

instance membersFrom_blind (n : Nat) : w.Blind (membersFrom reads n) := by
  induction n with
  | zero =>
    unfold membersFrom
    infer_instance
  | succ n ih =>
    unfold membersFrom
    dsimp only
    infer_instance

instance parenItems_blind (n : Nat) : w.Blind (parenItems reads n) := by
  induction n with
  | zero =>
    unfold parenItems
    infer_instance
  | succ n ih =>
    unfold parenItems
    dsimp only
    infer_instance


instance parametersOf_blind : ∀ items trailing, w.Blind (parametersOf items trailing)
  | [], _ => by
    unfold parametersOf
    infer_instance
  | (item,place) :: rest, trailing => by
    have := parametersOf_blind rest trailing
    cases item with
    | spread e =>
      unfold parametersOf
      cases trailing <;> cases e <;> infer_instance
    | _ =>
      unfold parametersOf
      infer_instance

instance (items : List (Item × Nat)) : w.Blind (sequenceOf items) := by
  unfold sequenceOf
  refine .each fun item => ?_
  dsimp only
  split <;> infer_instance

instance noteCovers_blind : ∀ items, w.Blind (noteCovers items)
  | [] => by
    unfold noteCovers
    infer_instance
  | (item,place) :: rest => by
    have := noteCovers_blind rest
    unfold noteCovers
    dsimp only
    split <;> infer_instance

instance (start : Nat) [NeZero start] (canBeArrow isAsync : Bool) : w.Blind (parenthesis reads start canBeArrow isAsync) := by
  unfold parenthesis
  dsimp only
  refine .untyped ?_
  refine @Blind.off _ _ _ inferInstance _ _ ?_
  refine .step inferInstance fun _ => .step inferInstance fun _ => .step inferInstance fun items => ?_
  refine .step inferInstance fun arrow => .choice inferInstance (.step inferInstance fun _ => .choice inferInstance ?_)
  refine .choice (.step inferInstance fun _ => ?_) ?_
  all_goals
    refine .step inferInstance fun es => ?_
    split <;> infer_instance

instance (start : Nat) [NeZero start] (canBeArrow : Bool) : w.Blind (nameOrArrow reads start canBeArrow) := by
  unfold nameOrArrow
  refine .step inferInstance fun tok => ?_
  dsimp only
  split <;> infer_instance

instance (start : Nat) [NeZero start] (canBeArrow : Bool) : w.Blind (asyncStart reads start canBeArrow) := by
  unfold asyncStart
  refine .peek (fun next => ?_) (fun _ => rfl) (fun _ _ _ => rfl) fun _ => ?_
  · dsimp only
    refine .choice inferInstance (.choice inferInstance (.choice inferInstance (.untyped ?_)))
    refine @Blind.off _ _ _ inferInstance _ _ ?_
    split <;> infer_instance
  · rfl

theorem regexParts_run (s : Cursor) : regexParts s =
    match Token.scanRegex s.text s.tok.start with
    | none => .error ⟨.unterminatedRegex,s.tok.start⟩ { s with tok := { s.tok with kind := .bad .unterminatedRegex } }
    | some (body,flags,stop) => .ok (body,flags) (past s stop) := by
  unfold regexParts
  show EStateM.bind EStateM.get _ s = _
  unfold EStateM.bind
  dsimp only [EStateM.get]
  cases Token.scanRegex s.text s.tok.start <;> rfl

instance : w.Blind regexParts where
  onward s fits := by
    have later := (scanRegex_same (w := w) s.tok.start).2
    rw [← fits.text] at later
    rw [regexParts_run]
    cases parts : Token.scanRegex s.text s.tok.start with
    | none =>
      refine ⟨⟨fits.text,fits.untyped,fits.begun,fits.ordered,fits.behind,fun none inside => ?_,?_,fun _ _ => rfl⟩,
        Nat.le_refl _,id⟩
      · exact (fits.stops none inside).imp_right fun ends => ⟨rfl,ends.2⟩
      · intro ends
        cases ends
    | some r => exact fits.past (later _ parts)
  same s a s' fits run sound := by
    obtain ⟨same,later⟩ := scanRegex_same (w := w) s.tok.start
    have same : Token.scanRegex (w.swap s).text (w.swap s).tok.start = Token.scanRegex s.text s.tok.start := by
      rw [fits.text]
      exact same
    rw [← fits.text] at later
    rw [regexParts_run] at run ⊢
    rw [same]
    cases parts : Token.scanRegex s.text s.tok.start with
    | none =>
      rw [parts] at run
      cases run
    | some r =>
      rw [parts] at run
      cases run
      simp only
      rw [swap_past fits (later _ parts) sound]

instance : w.Blind regex := by
  unfold regex
  dsimp only
  refine .on_place fun start _ => .step inferInstance fun parts => ?_
  split <;> infer_instance

instance decorators_blind (n : Nat) : w.Blind (decorators reads n) := by
  induction n with
  | zero =>
    unfold decorators
    infer_instance
  | succ n ih =>
    unfold decorators
    dsimp only
    infer_instance

instance : w.Blind (primary reads) := by
  unfold primary
  refine .on_token fun tok _ => .step inferInstance fun canBeArrow => ?_
  dsimp only
  split <;> infer_instance

instance (noCall : Bool) : w.Blind (accessTypeArguments reads noCall) := by
  unfold accessTypeArguments
  infer_instance

instance accesses_blind (noCall : Bool) : ∀ n optional e, w.Blind (accesses reads noCall n optional e)
  | 0, _, _ => by
    unfold accesses
    infer_instance
  | n + 1, optional, e => by
    have := accesses_blind noCall n
    unfold accesses
    dsimp only
    refine .on_token fun tok _ => .untyped ?_
    refine @Blind.off _ _ _ inferInstance _ _ ?_
    refine .step inferInstance fun args => .choice inferInstance ?_
    split
    · refine .peek (fun next => .choice inferInstance (.step inferInstance fun _ => .on_token fun tok _ => ?_))
        (fun _ => rfl) (fun _ _ _ => rfl) fun _ => rfl
      split <;> infer_instance
    · refine .step inferInstance fun _ => .on_token fun tok _ => ?_
      split <;> infer_instance
    all_goals infer_instance

instance (noCall : Bool) (e : Expr) : w.Blind (accessesOf reads noCall e) := by
  unfold accessesOf
  refine .step inferInstance fun n => ?_
  split <;> infer_instance

instance (start : Nat) (noCall : Bool) : w.Blind (superRest reads start noCall) := by
  unfold superRest
  refine .on_token fun tok _ => ?_
  dsimp only
  split
  · infer_instance
  · refine .step inferInstance fun _ => .step inferInstance fun mode => .choice ?_ (.step inferInstance fun _ => ?_)
    all_goals
      refine .on_token fun tok _ => ?_
      split <;> infer_instance
  · infer_instance
  · infer_instance

instance (start : Nat) (noCall : Bool) : w.Blind (importRest reads start noCall) := by
  unfold importRest
  dsimp only
  infer_instance

instance (start : Nat) : w.Blind (newRest reads start) := by
  unfold newRest
  dsimp only
  refine .step inferInstance fun dot => .choice inferInstance (.on_place fun place _ => ?_)
  refine .step inferInstance fun callee => ?_
  split <;> infer_instance

instance : w.Blind (memberOrNew reads) := by
  unfold memberOrNew
  infer_instance

instance : w.Blind (leftHand reads) := by
  unfold leftHand
  refine .on_place fun start _ => ?_
  refine .step inferInstance fun super => .choice inferInstance ?_
  refine .step inferInstance fun imports => .choice inferInstance (.step inferInstance fun e => ?_)
  split <;> infer_instance

instance (start : Nat) : w.Blind (awaitRest reads start) := by
  unfold awaitRest
  dsimp only
  infer_instance

instance : w.Blind unaryOperator := by
  unfold unaryOperator
  refine .on_token fun tok _ => ?_
  split <;> infer_instance

instance : w.Blind (unary reads) := by
  unfold unary
  dsimp only
  refine .on_place fun start _ => .untyped (.step inferInstance fun less => ?_)
  refine @Blind.off _ _ _ inferInstance _ _ ?_
  refine .step inferInstance fun plus => .step inferInstance fun minus => .choice inferInstance ?_
  refine .step inferInstance fun operator => ?_
  split
  · refine .step inferInstance fun _ => .on_place fun place _ => .step inferInstance fun e => .choice ?_ inferInstance
    split <;> infer_instance
  · infer_instance

instance : w.Blind binaryOperator := by
  unfold binaryOperator
  refine .on_token fun tok _ => ?_
  split <;> infer_instance


instance (start : Nat) (op : String) (a : Expr) : w.Blind (checkPower start op a) := by
  unfold checkPower
  refine .choice ?_ inferInstance
  split <;> infer_instance

instance (start : Nat) (op : String) (a b : Expr) : w.Blind (checkMixed start op a b) := by
  unfold checkMixed
  dsimp only
  refine .choice (.step inferInstance fun _ => .choice ?_ inferInstance) (.choice ?_ inferInstance)
  all_goals split <;> infer_instance

instance operators_blind : ∀ start n least a, w.Blind (operators reads start n least a)
  | _, 0, _, _ => by
    unfold operators
    infer_instance
  | start, n + 1, least, a => by
    have := fun start => operators_blind start n
    unfold operators
    dsimp only
    refine .untyped (.step inferInstance fun _ => .step inferInstance fun _ => .step inferInstance fun _ => ?_)
    refine @Blind.off _ _ _ inferInstance _ _ (.step inferInstance fun operator => ?_)
    split <;> infer_instance

theorem binaryOperator_run (s : Cursor) : ∃ operator, binaryOperator s = .ok operator s := by
  obtain ⟨text,typed,⟨kind,start,stop,newline⟩,last,notes,labels,mode,arrowStart⟩ := s
  unfold binaryOperator
  cases kind with
  | word text escaped =>
    cases escaped with
    | true => exact ⟨_,rfl⟩
    | false =>
      show ∃ operator, (if (decide (text = "in") && mode.noIn) = true then (pure none : Parser _)
        else if (decide (text = "in") || decide (text = "instanceof")) = true then pure _ else pure none) _ = _
      split
      · exact ⟨_,rfl⟩
      split <;> exact ⟨_,rfl⟩
  | _ => exact ⟨_,rfl⟩

/-- A missing operand is complained about, or ends the reading. -/
theorem firstOperand_error {s s' : Cursor} {fault : Fault} (run : reads .unary s = .error fault s') :
    (∃ fault', firstOperand reads s =
      .ok .absent { s' with mode := s.mode, labels := s.labels, notes := fault' :: s'.notes }) ∨
    firstOperand reads s = .error fault { s' with mode := s.mode, labels := s.labels } := by
  obtain ⟨operator,found⟩ := binaryOperator_run { s' with mode := s.mode, labels := s.labels }
  unfold firstOperand
  dsimp only
  rw [run]
  dsimp only
  rw [found]
  cases operator with
  | none => exact .inr rfl
  | some operator => exact .inl ⟨_,rfl⟩

theorem firstOperand_ok {s s' : Cursor} {e : Expr} (run : reads .unary s = .ok e s') :
    firstOperand reads s = .ok e s' := by
  unfold firstOperand
  dsimp only
  rw [run]

instance : w.Blind (firstOperand reads) where
  onward s fits := by
    have inner := Moves.onward (w := w) (m := reads .unary) s fits
    cases run : reads .unary s with
    | ok e s' =>
      rw [run] at inner
      rw [firstOperand_ok reads run]
      exact inner
    | error fault s' =>
      rw [run] at inner
      have restored := inner.restored s.mode s.labels
      rcases firstOperand_error reads run with ⟨fault',ends⟩ | ends
      · rw [ends]
        exact restored.trans (restored.fits.noted fault' [])
      · rw [ends]
        exact restored
  same s a s' fits run sound := by
    cases inner : reads .unary s with
    | ok e s'' =>
      rw [firstOperand_ok reads inner] at run
      cases run
      exact firstOperand_ok reads (Blind.same s a s' fits inner sound)
    | error fault s'' =>
      rcases firstOperand_error reads inner with ⟨fault',ends⟩ | ends
      · rw [ends] at run
        cases run
        cases sound.quiet
      · rw [ends] at run
        cases run

instance : w.Blind (binary reads) := by
  unfold binary
  infer_instance

instance : w.Blind (conditional reads) := by
  unfold conditional
  infer_instance

instance : w.Blind assignSign := by
  unfold assignSign
  refine .on_token fun tok _ => ?_
  split <;> infer_instance

instance (start : Nat) (e : Expr) : w.Blind (assignmentTo reads start e) := by
  unfold assignmentTo
  dsimp only
  refine .step inferInstance fun sign => ?_
  split <;> infer_instance

instance : w.Blind (yield reads) := by
  unfold yield
  dsimp only
  infer_instance

instance : w.Blind (assign reads) := by
  unfold assign
  dsimp only
  refine .on_place fun start _ => .untyped (.step inferInstance fun less => ?_)
  refine @Blind.off _ _ _ inferInstance _ _ ?_
  refine .step inferInstance fun mode => .step inferInstance fun yields => .choice inferInstance ?_
  refine .step inferInstance fun _ => .step inferInstance fun e => .choice inferInstance ?_
  split <;> infer_instance

instance commas_blind (n : Nat) : w.Blind (commas reads n) := by
  induction n with
  | zero =>
    unfold commas
    infer_instance
  | succ n ih =>
    unfold commas
    infer_instance

instance : w.Blind (expr reads) := by
  unfold expr
  infer_instance

/-! ### Classes -/

instance : w.Blind atMethod := by
  unfold atMethod
  infer_instance

instance (breaks : Bool) : w.Blind (atField breaks) := by
  unfold atField
  infer_instance

instance : w.Blind isModifier := by
  unfold isModifier
  refine .peek (fun next => ?_) (fun _ => rfl) (fun _ _ _ => rfl) fun _ => rfl
  split <;> infer_instance

instance modifiers_blind : ∀ n m, w.Blind (modifiers n m)
  | 0, _ => by
    unfold modifiers
    infer_instance
  | n + 1, m => by
    have := modifiers_blind n
    unfold modifiers
    dsimp only
    refine .current_at fun tok _ => ?_
    split
    · next kind =>
      refine .peek (by rw [kind]; rfl) (fun next => ?_) (fun _ => rfl) fun _ _ _ => rfl
      infer_instance
    · next kind =>
      refine .peek (by rw [kind]; rfl) (fun next => ?_) (fun _ => rfl) fun _ _ _ => rfl
      infer_instance
    · infer_instance
    · infer_instance

instance : w.Blind (elementName reads) := by
  unfold elementName
  refine .on_token fun tok _ => ?_
  dsimp only
  split <;> infer_instance

instance (place : Nat) (m : Modifiers) (computed : Bool) (key : Expr) (ds : List Expr) :
    w.Blind (field reads place m computed key ds) := by
  unfold field
  dsimp only
  infer_instance

instance (start place : Nat) [NeZero start] (m : Modifiers) (computed : Bool) (key : Expr) (kind : FuncKind)
    (isAsync isGenerator : Bool) (ds : List Expr) :
    w.Blind (method reads start place m computed key kind isAsync isGenerator ds) := by
  unfold method
  dsimp only
  refine .choice (.step inferInstance fun _ => .choice (.step inferInstance fun _ => ?_) ?_)
    (.choice (.step inferInstance fun _ => ?_) ?_)
  all_goals
    refine .step inferInstance fun f => ?_
    split <;> infer_instance

instance (derived : Bool) (start : Nat) [NeZero start] (m : Modifiers) (ds : List Expr) :
    w.Blind (elementRest reads derived start m ds) := by
  unfold elementRest
  dsimp only
  refine .step inferInstance fun brace => .choice inferInstance (.untyped (.otherwise ?_))
  rw [pure_bind]
  refine .otherwise ?_
  infer_instance

instance elements_blind (derived : Bool) : ∀ n hasConstructor, w.Blind (elements reads derived n hasConstructor)
  | 0, _ => by
    unfold elements
    infer_instance
  | n + 1, hasConstructor => by
    have := elements_blind derived n
    unfold elements
    dsimp only
    infer_instance

instance (isExpr : Bool) (start : Nat) [NeZero start] (ds : List Expr) : w.Blind (classFrom reads isExpr start ds) := by
  unfold classFrom
  dsimp only
  infer_instance

end Twins
end ScriptHost.Script
