import ScriptHost.Proofs.Registry.Pointing
import ScriptHost.Proofs.Script.Words
/-!
The head of the wrapper, read. A text that begins as the wrapper does, its first character aside, has a function of no
name there, whose parameters are `require`, `module` and `exports` (`function_head`).
-/
namespace ScriptHost.Registry

open ScriptHost.Script

/-- A text that has the head of the wrapper behind its first character. -/
structure Headed (text : Array Char) : Prop where
  head : ∀ i, 0 < i → i < wrapperHead.length → text[i]? = wrapperHead.toList[i]?

section
variable {text : Array Char} {strict typed : Bool} {i : Nat} {c e : Char} {cs : List Char}

theorem Headed.there (headed : Headed text) (pos : 0 < i) (found : wrapperHead.toList[i]? = some c) : text[i]? = some c := by
  have inside := (List.getElem?_eq_some_iff.mp found).1
  rw [String.length_toList] at inside
  rw [headed.head i pos inside,found]

theorem Headed.sign (headed : Headed text) (pos : 0 < i) (found : wrapperHead.toList[i]? = some c)
    (lone : c ∈ Twins.loneSigns) : Token.scan text strict typed i = (⟨.sign c.toString,i,i + 1,false⟩,[]) :=
  Token.scan_solid (headed.there pos found) (Twins.loneSigns_solid c lone)
    (Token.scanAt_lone (headed.there pos found) lone)

/-- A word of the head stands here, and no letter behind it. -/
def hasWord (i : Nat) (cs : List Char) : Bool :=
  (List.range cs.length).all (fun k => wrapperHead.toList[i + k]? == cs[k]?) && cs.all Token.isLetter && cs ≠ [] &&
    match wrapperHead.toList[i + cs.length]? with
    | some e => !Text.isIdentPart e && e ≠ '\\'
    | none => false

theorem Headed.scanAt_word (strict typed : Bool) (headed : Headed text) (pos : 0 < i) (word : hasWord i cs = true) :
    Token.scanAt text strict typed i = ⟨.word (String.ofList cs) false,i + cs.length,[]⟩ ∧
      ∃ c, text[i]? = some c ∧ Twins.solid c = true := by
  simp only [hasWord,Bool.and_eq_true,List.all_eq_true,List.mem_range,beq_iff_eq,decide_eq_true_eq] at word
  obtain ⟨⟨⟨there,letters⟩,filled⟩,ends⟩ := word
  have there : ∀ k < cs.length, text[i + k]? = cs[k]? := fun k inside => by
    rw [headed.there (Nat.add_pos_left pos k) ((there k inside).trans (List.getElem?_eq_getElem inside)),
      List.getElem?_eq_getElem inside]
  split at ends
  · next e found =>
    simp only [Bool.and_eq_true,Bool.not_eq_true',decide_eq_true_eq] at ends
    refine ⟨Token.scanAt_word there letters filled (headed.there (Nat.add_pos_left pos _) found) ends.1 ends.2,?_⟩
    obtain ⟨c,rest,rfl⟩ := List.exists_cons_of_ne_nil filled
    have letter := letters c List.mem_cons_self
    simp only [Token.isLetter,Bool.and_eq_true] at letter
    exact ⟨c,there 0 (Nat.zero_lt_succ _),letter.2⟩
  · cases ends

theorem Headed.word (headed : Headed text) (pos : 0 < i) (word : hasWord i cs = true) :
    Token.scan text strict typed i = (⟨.word (String.ofList cs) false,i,i + cs.length,false⟩,[]) := by
  obtain ⟨scanned,c,found,firm⟩ := headed.scanAt_word strict typed pos word
  exact Token.scan_solid found firm scanned

theorem Headed.blank_word (headed : Headed text) (blank : text[i]? = some ' ') (word : hasWord (i + 1) cs = true) :
    Token.scan text strict typed i = (⟨.word (String.ofList cs) false,i + 1,i + 1 + cs.length,false⟩,[]) := by
  obtain ⟨scanned,c,found,firm⟩ := headed.scanAt_word strict typed (Nat.succ_pos i) word
  exact Token.scan_blank blank found firm scanned

end

/-! ### Parameters -/

/-- What the wrapper takes. -/
def moduleParameters : List String := ["require","module","exports"]

section
open ScriptHost.Script.Parser
variable {s : Cursor} {name : String}

theorem bindingName_parameter (kind : s.tok.kind = .word name false) (member : name ∈ moduleParameters) :
    bindingName s = .ok name (Twins.past s s.tok.stop) := by
  have free : ∀ name ∈ moduleParameters, keywords.contains name = false ∧ strictWords.contains name = false ∧
      name ∉ ["enum","await","yield","this","eval","arguments"] := by decide
  obtain ⟨keyword,word,apart⟩ := free name member
  simp only [List.mem_cons,List.not_mem_nil,or_false,not_or] at apart
  obtain ⟨enum,await,yield,this,eval,arguments⟩ := apart
  unfold bindingName
  rw [current_bind,kind]
  dsimp only
  rw [mode_bind]
  simp only [keyword,word,enum,await,yield,this,eval,arguments,Bool.false_and,Bool.and_false,decide_false,Bool.or_false,
    Bool.false_eq_true,if_false]
  rfl

/-- A parameter with no more than a name. -/
theorem parameter_name {k : Nat} {inConstructor : Bool} (untyped : s.typed = false) (inside : s.tok.start ≤ s.text.size)
    (kind : s.tok.kind = .word name false) (member : name ∈ moduleParameters)
    (plain : Token.isSign (Twins.past s s.tok.stop).tok "=" = false) :
    parameter (Parser.read (k + 1)) inConstructor s = .ok (some (.name name)) (Twins.past s s.tok.stop) := by
  have pattern : Parser.read (k + 1) .pattern s = .ok (.name name) (Twins.past s s.tok.stop) := by
    show bindingPattern (Parser.read k) s = _
    unfold bindingPattern
    rw [current_bind,kind]
    dsimp only
    rw [bind_run (bindingName_parameter kind member)]
    rfl
  have some : s.text.size + 2 - s.tok.start = s.text.size + 1 - s.tok.start + 1 := by omega
  have words : eatAccessWords (s.text.size + 2 - s.tok.start) s = .ok false s := by
    rw [some]
    unfold eatAccessWords
    rw [current_bind,kind]
    dsimp only
    rw [isTyped_bind,untyped]
    rfl
  have untyped' : (Twins.past s s.tok.stop).typed = false := untyped
  unfold parameter
  rw [here_bind,isTyped_bind,isWord_bind,untyped]
  simp only [Bool.false_and,Bool.false_eq_true,if_false]
  rw [bound_bind,bind_run words]
  simp only [Bool.false_and,Bool.false_eq_true,if_false]
  rw [bind_run pattern,isTyped_bind,untyped']
  simp only [Bool.false_eq_true,if_false]
  rw [pure_bind,bind_run (optionalAnnotation_untyped _ untyped'),eatSign_other plain]
  simp only [Bool.false_eq_true,if_false]
  rfl

/-- A parameter with no more than a name, and further ones behind a comma. -/
theorem parameters_comma {k n : Nat} {l : List Pattern} {s' : Cursor} (untyped : s.typed = false)
    (inside : s.tok.start ≤ s.text.size) (kind : s.tok.kind = .word name false) (member : name ∈ moduleParameters)
    (comma : (Twins.past s s.tok.stop).tok.kind = .sign ",")
    (rest : parameters (Parser.read (k + 1)) false n none
      (Twins.past (Twins.past s s.tok.stop) (Twins.past s s.tok.stop).tok.stop) = .ok l s') :
    parameters (Parser.read (k + 1)) false (n + 1) none s = .ok (.name name :: l) s' := by
  have noSign : ∀ text, Token.isSign s.tok text = false := fun text => by
    unfold Parser.Token.isSign
    rw [kind]
  have isComma : ∀ text, Token.isSign (Twins.past s s.tok.stop).tok text = decide ("," = text) := fun text => by
    unfold Parser.Token.isSign
    rw [comma]
  unfold parameters
  rw [isSign_bind,noSign]
  simp only [Bool.false_eq_true,if_false]
  rw [isTyped_bind,isSign_bind,untyped]
  simp only [Bool.false_and,Bool.false_eq_true,if_false]
  rw [here_bind,eatSign_other (noSign _)]
  simp only [Bool.false_eq_true,if_false]
  rw [bind_run (parameter_name untyped inside kind member (isComma _)),pure_bind,isSign_bind,isComma,
    if_neg (by decide),expectSign_here (isComma _),isSign_bind]
  simp only [reduceCtorEq,decide_false,Bool.false_and,Bool.false_eq_true,if_false]
  rw [bind_run rest]
  rfl

/-- The last parameter. -/
theorem parameters_last {k n : Nat} (untyped : s.typed = false) (inside : s.tok.start ≤ s.text.size)
    (kind : s.tok.kind = .word name false) (member : name ∈ moduleParameters)
    (closing : (Twins.past s s.tok.stop).tok.kind = .sign ")") :
    parameters (Parser.read (k + 1)) false (n + 2) none s = .ok [.name name] (Twins.past s s.tok.stop) := by
  have noSign : ∀ text, Token.isSign s.tok text = false := fun text => by
    unfold Parser.Token.isSign
    rw [kind]
  have isClosing : ∀ text, Token.isSign (Twins.past s s.tok.stop).tok text = decide (")" = text) := fun text => by
    unfold Parser.Token.isSign
    rw [closing]
  have none : parameters (Parser.read (k + 1)) false (n + 1) none (Twins.past s s.tok.stop) =
      .ok [] (Twins.past s s.tok.stop) := by
    unfold parameters
    rw [isSign_bind,isClosing]
    rfl
  unfold parameters
  rw [isSign_bind,noSign]
  simp only [Bool.false_eq_true,if_false]
  rw [isTyped_bind,isSign_bind,untyped]
  simp only [Bool.false_and,Bool.false_eq_true,if_false]
  rw [here_bind,eatSign_other (noSign _)]
  simp only [Bool.false_eq_true,if_false]
  rw [bind_run (parameter_name untyped inside kind member (isClosing _)),pure_bind,isSign_bind,isClosing,
    if_pos (by decide),bind_run none]
  rfl

end

/-! ### The head -/

section
open ScriptHost.Script.Parser
variable {s : Cursor}

theorem Headed.past_sign (headed : Headed s.text) {i : Nat} {c : Char} (pos : 0 < i) (found : wrapperHead.toList[i]? = some c)
    (lone : c ∈ Twins.loneSigns) : (Twins.past s i).tok = ⟨.sign c.toString,i,i + 1,false⟩ :=
  congrArg Prod.fst (headed.sign pos found lone)

theorem Headed.past_word (headed : Headed s.text) {i : Nat} {cs : List Char} (pos : 0 < i) (word : hasWord i cs = true) :
    (Twins.past s i).tok = ⟨.word (String.ofList cs) false,i,i + cs.length,false⟩ :=
  congrArg Prod.fst (headed.word pos word)

theorem Headed.past_blank_word (headed : Headed s.text) {i : Nat} {cs : List Char} (pos : 0 < i)
    (blank : wrapperHead.toList[i]? = some ' ') (word : hasWord (i + 1) cs = true) :
    (Twins.past s i).tok = ⟨.word (String.ofList cs) false,i + 1,i + 1 + cs.length,false⟩ :=
  congrArg Prod.fst (headed.blank_word (headed.there pos blank) word)

/-- The parameters of the wrapper, from the first one on. -/
theorem head_parameters {k n : Nat} (headed : Headed s.text) (room : wrapperHead.length ≤ s.text.size)
    (untyped : s.typed = false) (first : s.tok = ⟨.word "require" false,10,17,false⟩) :
    ∃ s', parameters (Parser.read (k + 1)) false (n + 4) none s = .ok (moduleParameters.map Pattern.name) s' ∧
      s'.text = s.text ∧ s'.typed = false ∧ s'.tok = ⟨.sign ")",34,35,false⟩ := by
  have room : 38 ≤ s.text.size := room
  have comma : (Twins.past s 17).tok = ⟨.sign ",",17,18,false⟩ :=
    headed.past_sign (i := 17) (c := ',') (by decide) (by decide) (by decide)
  have second : (Twins.past (Twins.past s 17) 18).tok = ⟨.word "module" false,19,25,false⟩ :=
    Headed.past_blank_word (s := Twins.past s 17) headed (i := 18) (by decide) (by decide) (by decide)
  generalize above : Twins.past (Twins.past s 17) 18 = u at second
  have text : u.text = s.text := by rw [← above]; rfl
  have untyped' : u.typed = false := by rw [← above]; exact untyped
  have comma' : (Twins.past u 25).tok = ⟨.sign ",",25,26,false⟩ :=
    Headed.past_sign (text ▸ headed) (i := 25) (c := ',') (by decide) (by decide) (by decide)
  have third : (Twins.past (Twins.past u 25) 26).tok = ⟨.word "exports" false,27,34,false⟩ :=
    Headed.past_blank_word (s := Twins.past u 25) (text ▸ headed) (i := 26) (by decide) (by decide) (by decide)
  generalize above' : Twins.past (Twins.past u 25) 26 = v at third
  have text' : v.text = s.text := by rw [← above',← text]; rfl
  have untyped'' : v.typed = false := by rw [← above']; exact untyped'
  have closing : (Twins.past v 34).tok = ⟨.sign ")",34,35,false⟩ :=
    Headed.past_sign (text' ▸ headed) (i := 34) (c := ')') (by decide) (by decide) (by decide)
  refine ⟨Twins.past v 34,?_,text',untyped'',closing⟩
  refine parameters_comma untyped (by rw [first]; dsimp only; omega) (by rw [first]) (by decide) (by rw [first,comma]) ?_
  rw [first,comma,above]
  refine parameters_comma untyped' (by rw [second,text]; dsimp only; omega) (by rw [second]) (by decide) (by rw [second,comma']) ?_
  rw [second,comma',above']
  have last := parameters_last (k := k) (n := n) untyped'' (by rw [third,text']; dsimp only; omega) (by rw [third]) (by decide)
    (by rw [third,closing])
  rwa [third] at last

/-- From its parameters on, the function of the wrapper takes what a module does. -/
theorem functionRest_head {k place : Nat} {s' : Cursor} {f : Func} (headed : Headed s.text)
    (room : wrapperHead.length ≤ s.text.size) (untyped : s.typed = false) (here : s.tok = ⟨.sign "(",9,10,false⟩)
    (run : functionRest (Parser.read (k + 1)) 1 place none .plain false false s = .ok (some f) s') :
    ∃ body strict, f = .mk none (moduleParameters.map Pattern.name) body
      { strict, text := Token.textBetween s'.text 1 s'.last } := by
  unfold functionRest at run
  rw [Twins.inMode_run] at run
  generalize change : { s with mode := s.mode.inside .plain false false } = u at run
  have text : u.text = s.text := by rw [← change]
  have untyped' : u.typed = false := by rw [← change]; exact untyped
  have here' : u.tok = ⟨.sign "(",9,10,false⟩ := by rw [← change]; exact here
  have room' : 38 ≤ u.text.size := text ▸ room
  have opens : Token.isSign u.tok "(" = true := by rw [here']; rfl
  have first : (Twins.past u 10).tok = ⟨.word "require" false,10,17,false⟩ :=
    Headed.past_word (text ▸ headed) (i := 10) (by decide) (by decide)
  have some : (Twins.past u 10).text.size + 2 - (Twins.past u 10).tok.start = u.text.size - 12 + 4 := by
    rw [first]
    show u.text.size + 2 - 10 = _
    omega
  have names : ∀ change : Mode → Mode, ∃ x, inMode change (parameters (Parser.read (k + 1)) false (u.text.size - 12 + 4) none)
      (Twins.past u 10) = .ok (moduleParameters.map Pattern.name) x ∧ x.typed = false ∧ x.tok = ⟨.sign ")",34,35,false⟩ := by
    intro change
    rw [Twins.inMode_run]
    obtain ⟨x,read,-,typed,closing⟩ := head_parameters (k := k) (n := u.text.size - 12)
      (s := { Twins.past u 10 with mode := change (Twins.past u 10).mode }) (text ▸ headed) room' untyped' first
    rw [read]
    exact ⟨_,rfl,typed,closing⟩
  split at run
  · next a v inner =>
    cases run
    simp only [reduceCtorEq,decide_false,Bool.or_false] at inner
    rw [bind_run (optionalTypeParameters_untyped _ untyped'),expectSign_here opens,here',bound_bind,some] at inner
    obtain ⟨x,read,typed,closing⟩ := names _
    rw [bind_run read,expectSign_here (by rw [closing]; rfl)] at inner
    have accessor : checkAccessor place .plain (moduleParameters.map Pattern.name) (Twins.past x x.tok.stop) =
        .ok () (Twins.past x x.tok.stop) := rfl
    have typed' : (Twins.past x x.tok.stop).typed = false := typed
    rw [bind_run accessor,bind_run (optionalReturnType_untyped _ typed'),isTyped_bind,isSign_bind,typed'] at inner
    simp only [Bool.false_and,Bool.false_eq_true,if_false] at inner
    obtain ⟨⟨body,strict⟩,y,-,inner⟩ := bind_ok_iff.mp inner
    cases inner
    exact ⟨body,strict,rfl⟩
  · cases run

/-- The function of the wrapper takes what a module does, whatever its body is. -/
theorem function_head {k : Nat} {s' : Cursor} {f : Func} (headed : Headed s.text)
    (room : wrapperHead.length ≤ s.text.size) (untyped : s.typed = false)
    (here : s.tok = ⟨.word "function" false,1,9,false⟩)
    (run : function (Parser.read (k + 1)) true false 1 s = .ok (some f) s') :
    ∃ body strict, f = .mk none (moduleParameters.map Pattern.name) body
      { strict, text := Token.textBetween s'.text 1 s'.last } := by
  have opens : (Twins.past s 9).tok = ⟨.sign "(",9,10,false⟩ :=
    headed.past_sign (i := 9) (c := '(') (by decide) (by decide) (by decide)
  have word : Token.isWord s.tok "function" = true := by rw [here]; rfl
  unfold function at run
  rw [expectWord_here word,here] at run
  have star : Token.isSign (Twins.past s 9).tok "*" = false := by rw [opens]; rfl
  rw [eatSign_other star,here_bind,opens] at run
  simp only [if_true] at run
  generalize above : Twins.past s 9 = u at opens run
  have nameless : ∀ change, inMode change optionalName u = .ok none u := fun change => by
    obtain ⟨text,typed,tok,last,notes,labels,mode,arrowStart⟩ := u
    cases opens
    rfl
  rw [bind_run (nameless _)] at run
  have text : u.text = s.text := by rw [← above]; rfl
  exact functionRest_head (text ▸ headed) (text ▸ room) (by rw [← above]; exact untyped) opens run

end

end ScriptHost.Registry
