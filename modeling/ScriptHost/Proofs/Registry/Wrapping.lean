import ScriptHost.Proofs.Engine.Making
import ScriptHost.Proofs.Json.Strings
import ScriptHost.Proofs.Registry.Heading
import ScriptHost.Proofs.Script.Closing
/-!
Bodies that are bodies of functions on their own, in the wrapper.
-/
namespace ScriptHost.Registry

open ScriptHost.Script
open ScriptHost.Script.Parser

/-! ### Bodies on their own -/

/-- The function that a body is put into. -/
def bareFunction (body : String) : String := "function(require, module, exports) \x7b\n" ++ body ++ "\n\x7d"

/-- A function expression up to the end of the text. -/
def loneFunction (reads : Reads) : Parser Func := do
  goTo 0
  markArrowStart
  let f ← withBody (← reads (.func true false (← here)))
  unless ← atEnd do unexpected "the end of the text"
  return f

/-- Read a text that is a function expression and nothing else, as deep as a parenthesis around it would let it be. -/
def readFunction (text : Array Char) : Except Fault Func :=
  let start : Cursor :=
    { text, typed := false, tok := default, last := 0, notes := [], labels := [], mode := {}, arrowStart := 0 }
  match loneFunction (Parser.read (8 * text.size + 56)) start with
  | .error fault _ => .error fault
  | .ok f s =>
    match s.notes.getLast? with
    | some fault => .error fault
    | none => .ok f

/-- The text is a body of a function on its own, of this one: between the braces it leaves nothing open and closes
nothing that it did not open. -/
def IsBody (body : String) (f : Func) : Prop := readFunction (charactersOf (" " ++ bareFunction body ++ " ")) = .ok f

/-! ### The two texts -/

section
variable {body : String}

theorem toList_bareFunction : (bareFunction body).toList =
    "function(require, module, exports) \x7b\n".toList ++ body.toList ++ ['\n','\x7d'] := by
  unfold bareFunction
  rw [String.toList_append,String.toList_append]
  rfl

/-- A text between two characters. -/
def enclosed (a z : Char) (l : List Char) : Array Char := (a :: (l ++ [z])).toArray

variable {a z : Char} {l : List Char}

theorem size_enclosed : (enclosed a z l).size = l.length + 2 := by simp [enclosed]

theorem enclosed_first : (enclosed a z l)[0]? = some a := rfl

theorem enclosed_inside {i : Nat} (inside : i < l.length) : (enclosed a z l)[i + 1]? = l[i]? := by
  simp [enclosed,List.getElem?_append_left inside]

theorem enclosed_last : (enclosed a z l)[l.length + 1]? = some z := by simp [enclosed]

theorem length_bareFunction : (bareFunction body).toList.length = body.length + 39 := by
  rw [toList_bareFunction,List.length_append,List.length_append,String.length_toList]
  show 37 + body.length + 2 = _
  omega

theorem bareFunction_head {i : Nat} (inside : i < 37) :
    (bareFunction body).toList[i]? = "function(require, module, exports) \x7b\n".toList[i]? := by
  rw [toList_bareFunction,List.append_assoc,List.getElem?_append_left (by exact inside)]

theorem bareFunction_last {i : Nat} : (bareFunction body).toList[body.length + 37 + i]? = ['\n','\x7d'][i]? := by
  have front : ("function(require, module, exports) \x7b\n".toList ++ body.toList).length = body.length + 37 := by
    rw [List.length_append,String.length_toList]
    exact Nat.add_comm 37 _
  rw [toList_bareFunction,List.getElem?_append_right (by omega),front,Nat.add_sub_cancel_left]

/-- The function of a module between blanks and in its wrapper. -/
def wrapperTwins (body : String) : Twins where
  inner := enclosed ' ' ' ' (bareFunction body).toList
  outer := enclosed '(' ')' (bareFunction body).toList
  line := body.length + 38
  same i pos inside := by
    obtain ⟨i,rfl⟩ := Nat.exists_eq_add_of_lt pos
    have inside : i < (bareFunction body).toList.length := by
      rw [length_bareFunction]
      omega
    rw [Nat.zero_add,enclosed_inside inside,enclosed_inside inside]
  breaks := by
    rw [enclosed_inside (i := body.length + 37) (by rw [length_bareFunction]; omega)]
    exact bareFunction_last (i := 0)
  braced := by
    rw [enclosed_inside (i := body.length + 38) (by rw [length_bareFunction]; omega)]
    exact bareFunction_last (i := 1)
  innerEnd := by
    have last := enclosed_last (a := ' ') (z := ' ') (l := (bareFunction body).toList)
    rwa [length_bareFunction] at last
  innerSize := by rw [size_enclosed,length_bareFunction]
  outerEnd := by
    have last := enclosed_last (a := '(') (z := ')') (l := (bareFunction body).toList)
    rwa [length_bareFunction] at last
  outerSize := by rw [size_enclosed,length_bareFunction]

theorem enclosed_headed : Headed (enclosed a z (bareFunction body).toList) where
  head i pos inside := by
    obtain ⟨i,rfl⟩ := Nat.exists_eq_add_of_lt pos
    have inside : i < 37 := by
      have : wrapperHead.length = 38 := rfl
      omega
    have within : i < (bareFunction body).toList.length := by
      rw [length_bareFunction]
      omega
    rw [Nat.zero_add,enclosed_inside within,bareFunction_head inside]
    rfl

theorem charactersOf_blank : charactersOf (" " ++ bareFunction body ++ " ") = (wrapperTwins body).inner := by
  show charactersOf _ = enclosed ' ' ' ' (bareFunction body).toList
  unfold charactersOf enclosed
  rw [String.toList_append,String.toList_append]
  rfl

theorem charactersOf_wrapper : charactersOf (Module.wrap body) = (wrapperTwins body).outer := by
  show charactersOf _ = enclosed '(' ')' (bareFunction body).toList
  unfold charactersOf enclosed Module.wrap
  rw [String.toList_append,String.toList_append,toList_bareFunction]
  simp

end

/-! ### The function in the wrapper -/

section
variable {body : String} {f : Func}

/-- Where a reader of the text between blanks has the function. -/
def atFunction (body : String) : Cursor :=
  { text := (wrapperTwins body).inner, typed := false, tok := ⟨.word "function" false,1,9,false⟩, last := 0, notes := []
    labels := [], mode := {}, arrowStart := 1 }

theorem headed_inner : Headed (wrapperTwins body).inner := enclosed_headed

theorem headed_outer : Headed (wrapperTwins body).outer := enclosed_headed

theorem fits_atFunction : (wrapperTwins body).Fits (atFunction body) where
  text := rfl
  untyped := rfl
  begun := Nat.zero_lt_one
  ordered := show 1 ≤ 9 by decide
  behind := Nat.zero_le _
  stops _ _ := .inl (show 9 ≤ body.length + 38 + 1 by omega)
  ended := nofun
  late _ behind := absurd behind (Nat.not_lt.mpr (Nat.succ_le_succ (Nat.zero_le _)))

/-- How deep a function in the parenthesis of a wrapper may be nested. -/
def depth (body : String) : Nat := 8 * (wrapperTwins body).inner.size + 55

/-- A body on its own is read from its function on, with nothing behind it. -/
theorem IsBody.read (valid : IsBody body f) : ∃ s', function (Parser.read (depth body)) true false 1 (atFunction body) =
    .ok (some f) s' ∧ s'.notes = [] ∧ s'.tok.kind = .eof := by
  have first : Token.scan (wrapperTwins body).inner false false 0 = (⟨.word "function" false,1,9,false⟩,[]) :=
    headed_inner.blank_word (i := 0) (enclosed_first) (by decide)
  unfold IsBody readFunction at valid
  rw [charactersOf_blank] at valid
  dsimp only at valid
  split at valid
  · cases valid
  next g s run =>
  split at valid
  · cases valid
  next quiet =>
  cases valid
  unfold loneFunction at run
  rw [goTo_bind,markArrowStart_bind,here_bind] at run
  simp only [first,List.reverse_nil,List.nil_append] at run
  obtain ⟨o,s₁,read,rest⟩ := bind_ok_iff.mp run
  obtain ⟨g,s₂,found,last⟩ := bind_ok_iff.mp rest
  obtain ⟨ended,s₃,look,done⟩ := bind_ok_iff.mp last
  clear run rest last
  cases o with
  | none =>
    obtain ⟨fault,fails⟩ := Twins.failAt_run (α := Func) s₁.tok.start (.expected "\x7b" s₁.tok.kind.shown) s₁
    cases fails.symm.trans found
  | some h =>
    cases found
    cases ended with
    | false =>
      obtain ⟨_,s₄,fails,-⟩ := bind_ok_iff.mp done
      obtain ⟨fault,ends⟩ := Twins.failAt_run (α := Unit) s₃.tok.start (.unexpected s₃.tok.kind.shown "the end of the text") s₃
      cases ends.symm.trans fails
    | true =>
      obtain ⟨rfl,eof⟩ := eof_of_atEnd look
      cases done
      exact ⟨s,read,List.getLast?_eq_none_iff.mp quiet,eof⟩

/-- What is behind the word of a function does not depend on what is in front of it. -/
theorem function_last {reads : Reads} {isExpr isAsync : Bool} {start : Nat} {s : Cursor} (last : Nat)
    (word : Token.isWord s.tok "function" = true) :
    function reads isExpr isAsync start { s with last } = function reads isExpr isAsync start s := by
  unfold function
  rw [expectWord_here (s := { s with last }) word,expectWord_here word]
  rfl

theorem size_inner : (wrapperTwins body).inner.size = body.length + 41 := by
  rw [(wrapperTwins body).innerSize]
  rfl

theorem textBetween_enclosed {a z : Char} {l : List Char} :
    Token.textBetween (enclosed a z l) 1 (l.length + 1) = String.ofList l := by
  unfold Token.textBetween enclosed
  simp

/-- Where a reader of the wrapper has the function. -/
def atWrapped (body : String) : Cursor := { atFunction body with text := (wrapperTwins body).outer, last := 1 }

/-- In the wrapper, the function is read as it is on its own, up to the brace. -/
theorem IsBody.both (valid : IsBody body f) : ∃ s',
    function (Parser.read (depth body)) true false 1 (atFunction body) = .ok (some f) s' ∧
    function (Parser.read (depth body)) true false 1 (atWrapped body) = .ok (some f) ((wrapperTwins body).shut s') ∧
    s'.notes = [] ∧ s'.text = (wrapperTwins body).inner ∧ s'.typed = false ∧ s'.last = body.length + 40 := by
  obtain ⟨s',run,quiet,eof⟩ := valid.read
  have onward := Twins.Moves.onward (w := wrapperTwins body) (m := function (Parser.read (depth body)) true false 1)
    (atFunction body) fits_atFunction
  rw [run] at onward
  obtain ⟨last,there⟩ := (Twins.function_shuts (w := wrapperTwins body) (Parser.read (depth body)) true false 1).same
    (atFunction body) (some f) s' fits_atFunction run quiet (onward.fits.ended eof)
  rw [← function_last 1 rfl] at there
  exact ⟨s',run,there,quiet,onward.fits.text,onward.fits.untyped,last⟩

/-- What a body on its own is a body of: a function of no name that takes what a module does, with this text. -/
theorem IsBody.shape (valid : IsBody body f) : ∃ stmts strict, f =
    .mk none (moduleParameters.map Pattern.name) stmts { strict, text := bareFunction body } := by
  obtain ⟨s',run,-,-,inner,-,last⟩ := valid.both
  have text : Token.textBetween s'.text 1 s'.last = bareFunction body := by
    have length : body.length + 40 = (bareFunction body).toList.length + 1 := by rw [length_bareFunction]
    rw [inner,last,length]
    exact textBetween_enclosed.trans String.ofList_toList
  obtain ⟨stmts,strict,shape⟩ := function_head headed_inner
    (by show 38 ≤ (wrapperTwins body).inner.size; rw [size_inner]; omega) rfl rfl run
  exact ⟨stmts,strict,by rw [shape,text]⟩

/-- Where a reader of the wrapper begins. -/
def atParenthesis (body : String) : Cursor :=
  { atWrapped body with tok := ⟨.sign "(",0,1,false⟩, last := 0, arrowStart := 0 }

/-- A body on its own makes the wrapper a parenthesis with that function, and nothing is behind the parenthesis. -/
theorem IsBody.statement (valid : IsBody body f) : ∃ v, v.notes = [] ∧ v.tok.kind = .eof ∧ v.mode.strict = false ∧
    Parser.read (depth body + 9) (.stmt true) (atParenthesis body) = .ok (.expr (.paren (.func f))) v := by
  obtain ⟨s',-,run,quiet,-,untyped,-⟩ := valid.both
  have plain : f.info.kind = .plain := by
    obtain ⟨stmts,strict,rfl⟩ := valid.shape
    rfl
  generalize shut : (wrapperTwins body).shut s' = u at run
  have closes : Closes u := by
    rw [← shut]
    exact ⟨untyped,by show body.length + 40 ≤ (wrapperTwins body).outer.size; rw [(wrapperTwins body).size,size_inner]; omega,rfl,.inl rfl⟩
  have function : primary (Parser.read (depth body + 1)) (atWrapped body) = .ok (.func f) u := by
    unfold primary
    rw [current_bind,atArrowStart_bind]
    show (Parser.read (depth body + 1) (.func true false 1) >>= _) (atWrapped body) = _
    rw [bind_run (m := Parser.read (depth body + 1) (.func true false 1)) run]
    rfl
  have passed : Twins.past (atParenthesis body) 1 = { atWrapped body with arrowStart := 0 } := by
    have scanned : Token.scan (wrapperTwins body).outer false false 1 = (⟨.word "function" false,1,9,false⟩,[]) :=
      headed_outer.word (i := 1) (by decide) (by decide)
    unfold Twins.past
    show ({ atParenthesis body with
      last := 1
      tok := (Token.scan (wrapperTwins body).outer false false 1).1
      notes := (Token.scan (wrapperTwins body).outer false false 1).2.reverse ++ [] } : Cursor) = _
    rw [scanned]
    rfl
  have opens : Opens { atWrapped body with arrowStart := 0 } := ⟨rfl,rfl,.inr rfl⟩
  have operand : Parser.read (depth body + 4) .assign { atWrapped body with arrowStart := 0 } = .ok (.func f) u :=
    read_assign_operand (depth body + 1) opens closes (.func f plain) function
  have stop : u.tok.stop = u.text.size := by
    rw [← shut]
    show body.length + 41 = (wrapperTwins body).outer.size
    rw [(wrapperTwins body).size,size_inner]
  have last : Token.scan u.text u.mode.strict u.typed u.tok.stop = (⟨.eof,u.tok.stop,u.tok.stop,false⟩,[]) :=
    Token.scan_end (Nat.le_of_eq stop.symm)
  generalize after : ({ Twins.past u u.tok.stop with mode := {} } : Cursor) = v
  have eof : v.tok = ⟨.eof,u.tok.stop,u.tok.stop,false⟩ := by
    rw [← after]
    exact congrArg Prod.fst last
  have none : v.notes = [] := by
    rw [← after]
    show (Token.scan u.text u.mode.strict u.typed u.tok.stop).2.reverse ++ u.notes = []
    rw [last,← shut]
    exact quiet
  have room : 1 ≤ (wrapperTwins body).outer.size := Nat.lt_of_lt_of_eq (Nat.succ_pos _) (wrapperTwins body).outerSize.symm
  have paren : primary (Parser.read (depth body + 4)) (atParenthesis body) = .ok (.paren (.func f)) v := by
    unfold primary
    rw [current_bind,atArrowStart_bind]
    exact parenthesis_function (Parser.read (depth body + 4)) rfl rfl passed opens room operand
      (by rw [← shut]; rfl) after (by rw [eof])
  have ended : Closes v := by
    refine ⟨by rw [← after,← shut]; exact untyped,?_,by rw [eof],.inr (by rw [eof])⟩
    rw [eof,← after]
    exact Nat.le_of_eq stop
  refine ⟨v,none,by rw [eof],by rw [← after],?_⟩
  refine statement_parenthesis (Parser.read (depth body + 8)) (s := atParenthesis body) (u := v) rfl rfl ?_ rfl
    (by rw [← after]; rfl) (by rw [eof])
  exact expr_operand _ ended (read_assign_operand (depth body + 4) ⟨rfl,rfl,.inl rfl⟩ ended (.paren _) paren)

/-- A script is what is read to its end with nothing noted. -/
theorem read_of_whole {text : Array Char} {source : Source} {v : Cursor}
    (whole : whole (Parser.read (8 * text.size + 64)) false
      { text, typed := false, tok := default, last := 0, notes := [], labels := [], mode := {}, arrowStart := 0 } =
        .ok source v) (quiet : v.notes = []) : Source.read text false false = .ok source := by
  unfold Source.read
  dsimp only
  rw [whole]
  dsimp only
  rw [quiet]
  rfl

/-- A body on its own makes the wrapper a script of one statement: the function in a parenthesis. -/
theorem IsBody.script (valid : IsBody body f) : Source.read (charactersOf (Module.wrap body)) false false =
    .ok ⟨[.expr (.paren (.func f))],false,false,none⟩ := by
  obtain ⟨v,quiet,eof,sloppy,run⟩ := valid.statement
  rw [charactersOf_wrapper]
  have size : (wrapperTwins body).outer.size = body.length + 41 := (wrapperTwins body).size.trans size_inner
  have first : Token.scan (wrapperTwins body).outer false false 0 = (⟨.sign "(",0,1,false⟩,[]) :=
    Token.scan_solid enclosed_first (c := '(') (by decide) (Token.scanAt_lone enclosed_first (by decide))
  have plain : Token.interpreterEnd (wrapperTwins body).outer = 0 := by
    unfold Token.interpreterEnd
    rw [if_neg]
    intro starts
    cases enclosed_first.symm.trans (Token.startsAt_iff.mp starts 0 (by decide))
  have whole : whole (Parser.read (8 * (wrapperTwins body).outer.size + 64)) false
      { text := (wrapperTwins body).outer, typed := false, tok := default, last := 0, notes := [], labels := [], mode := {}
        arrowStart := 0 } = .ok ⟨[.expr (.paren (.func f))],false,false,none⟩ v := by
    have deep : 8 * (wrapperTwins body).outer.size + 64 = depth body + 9 := by
      rw [(wrapperTwins body).size]
      rfl
    unfold Parser.whole
    rw [get_bind]
    simp only [plain]
    rw [goTo_bind]
    simp only [first,List.reverse_nil,List.nil_append,Bool.false_eq_true,if_false]
    rw [bound_bind,deep]
    have alone : Parser.body (Parser.read (depth body + 9)) (.stmt true) false true ((wrapperTwins body).outer.size + 1 + 1)
        (atParenthesis body) = .ok [.expr (.paren (.func f))] v :=
      body_alone _ rfl (Nat.zero_le _) run eof
    refine (bind_run alone).trans ?_
    rw [mode_bind,sloppy]
    rfl
  exact read_of_whole whole quiet

end

/-! ### Texts of the engine -/

theorem toList_ofString (text : String) : (Text.ofString text).toList = text.toList.flatMap fun c =>
    if Text.isStandIn c then
      [Text.charOfUnit (0xd800 + (c.toNat - 0x10000) / 0x400),Text.charOfUnit (0xdc00 + (c.toNat - 0x10000) % 0x400)]
    else [c] := by
  unfold Text.ofString
  split
  · exact String.toList_ofList
  · next plain =>
    rw [Text.any_isStandIn,List.any_eq_true] at plain
    refine ((List.flatMap_congr fun c member => ?_).trans (List.flatMap_singleton' text.toList)).symm
    exact if_neg fun standIn => plain ⟨c,member,standIn⟩

/-- The wrapper is the same as characters and as the engine has it, but for the body. -/
theorem ofString_wrap (body : String) : Text.ofString (Module.wrap body) = Module.wrap (Text.ofString body) := by
  apply String.toList_inj.mp
  rw [toList_ofString]
  unfold Module.wrap
  simp only [String.toList_append,List.flatMap_append,toList_ofString]
  congr 1

/-! ### Modules -/

section
variable {r : Registry} {i : Nat} {f g : Func}

/-- A body that is a body of a function on its own, also as the engine has it, is accepted as a module, whatever the
transform is. What is compiled is one expression, that function in a parenthesis, and where it is evaluated the function
is made and nothing of it is run. -/
theorem body_kept_inside (uncompiled : (r.record i).program = none) (valid : IsBody (r.record i).body f)
    (engine : IsBody (Text.ofString (r.record i).body) g) :
    ∃ p, (compileModule Script.check r i).1 = .ok p ∧ p.source = Module.wrap (r.record i).body ∧
      Source.read (charactersOf p.source) false false = .ok ⟨[.expr (.paren (.func f))],false,false,none⟩ ∧
      (∃ stmts strict, f =
        .mk none (moduleParameters.map Pattern.name) stmts { strict, text := bareFunction (r.record i).body }) ∧
      Engine.OnlyMakes (Text.ofString p.source) g := by
  have accepted : Script.check (r.record i).key (Module.wrap (r.record i).body) = .ok () := by
    rw [check_pointsAt]
    unfold firstOffence
    rw [valid.script]
  have compiled : (compileModule Script.check r i).1 =
      .ok ⟨(r.record i).key,Module.wrap (r.record i).body,r.serial⟩ := by
    unfold compileModule
    simp only [uncompiled,accepted]
  have made : Engine.OnlyMakes (Text.ofString (Module.wrap (r.record i).body)) g := by
    obtain ⟨stmts,strict,rfl⟩ := engine.shape
    rw [ofString_wrap]
    exact Engine.onlyMakes_of_read rfl rfl rfl rfl engine.script
  exact ⟨_,compiled,rfl,valid.script,valid.shape,made⟩

end

/-- A registered module, of which a brace in a string, in a class of characters and in a comment closes nothing. -/
def closed : Registry := (Registry.new ⟨"/app"⟩).setModule
  (.named "a" "exports.open = /[\x7d]/.test('\x7d); (function () \x7b'); // \x7d")

theorem isBody_of_read (body : String)
    (read : (readFunction (charactersOf (" " ++ bareFunction body ++ " "))).toBool = true) : ∃ f, IsBody body f := by
  unfold IsBody
  cases found : readFunction (charactersOf (" " ++ bareFunction body ++ " ")) with
  | ok f => exact ⟨f,rfl⟩
  | error fault =>
    rw [found] at read
    cases read

theorem body_kept_inside_closed : ∃ f p, IsBody (closed.record 2).body f ∧ (compileModule Script.check closed 2).1 = .ok p ∧
    Source.read (charactersOf p.source) false false = .ok ⟨[.expr (.paren (.func f))],false,false,none⟩ ∧
    Engine.OnlyMakes (Text.ofString p.source) f := by
  obtain ⟨f,valid⟩ := isBody_of_read (closed.record 2).body (by decide +kernel)
  have same : Text.ofString (closed.record 2).body = (closed.record 2).body :=
    String.toList_inj.mp ((toList_ofString _).trans (by decide +kernel))
  obtain ⟨p,accepted,-,read,-,makes⟩ := body_kept_inside (r := closed) (i := 2) rfl valid (same.symm ▸ valid)
  exact ⟨f,p,valid,accepted,read,makes⟩

/-- A registered module that closes the function of its wrapper and opens another one. -/
def breaking : Registry := (Registry.new ⟨"/app"⟩).setModule
  (.named "a" "\x7d); globalThis.evil = 1; (function()\x7b")

/-- The object and the name that the middle one of three statements assigns to. -/
def assignedBetween? : Except Fault Source → Option (String × String)
  | .ok ⟨[.expr (.paren (.func _)),.expr (.assign "=" (.expr (.dot (.ident object) name .plain)) _),
      .expr (.paren (.func _))],false,false,none⟩ => some (object,name)
  | _ => none

theorem read_of_assignedBetween (read : Except Fault Source) (object name : String)
    (found : assignedBetween? read = some (object,name)) : ∃ first value last, read =
      .ok ⟨[.expr (.paren (.func first)),.expr (.assign "=" (.expr (.dot (.ident object) name .plain)) value),
        .expr (.paren (.func last))],false,false,none⟩ := by
  unfold assignedBetween? at found
  split at found
  · next first object name value last =>
    cases found
    exact ⟨first,value,last,rfl⟩
  · cases found

/-- It is accepted though it is no body of a function: what is compiled has a statement of its own between two functions. -/
theorem body_breaks_out :
    (∃ p, (compileModule Script.check breaking 2).1 = .ok p ∧ p.source = Module.wrap (breaking.record 2).body) ∧
    (∀ f, ¬ IsBody (breaking.record 2).body f) ∧
    ∃ first value last, Source.read (charactersOf (Module.wrap (breaking.record 2).body)) false false =
      .ok ⟨[.expr (.paren (.func first)),.expr (.assign "=" (.expr (.dot (.ident "globalThis") "evil" .plain)) value),
        .expr (.paren (.func last))],false,false,none⟩ := by
  obtain ⟨first,value,last,read⟩ := read_of_assignedBetween
    (Source.read (charactersOf (Module.wrap (breaking.record 2).body)) false false) "globalThis" "evil"
    (by decide +kernel)
  have accepted : Script.check (breaking.record 2).key (Module.wrap (breaking.record 2).body) = .ok () := by
    rw [check_pointsAt]
    unfold firstOffence
    rw [read]
  refine ⟨⟨⟨(breaking.record 2).key,Module.wrap (breaking.record 2).body,breaking.serial⟩,?_,rfl⟩,fun f valid => ?_,
    first,value,last,read⟩
  · unfold compileModule
    simp only [show (breaking.record 2).program = none from rfl,accepted]
  · cases valid.script.symm.trans read

end ScriptHost.Registry
