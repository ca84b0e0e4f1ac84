import ScriptHost.Proofs.Engine.Rejections
import ScriptHost.Proofs.Engine.Writing
/-!
What is handed out as JSON. Functions, symbols and whole numbers of any size are never written, not even where they say
themselves what stands for them (`unwritten?`). Any other value is what the engine writes of it: nothing, or the tree
whose text it is, if that tree fits (`exports_what_is_written`).
-/
namespace ScriptHost.Engine
open Json (Doc)
variable {α : Type} {w last : World} {answers : List Answer}

/-- What is handed out for a value that is not written: the digits of a whole number, and nothing otherwise. -/
def unwritten? (w : World) : Value → Option Json
  | .undefined | .absent | .sym _ => some .null
  | .big n => some (.str (toString n))
  | .obj id => if (w.obj id).isCallable then some .null else none
  | _ => none

/-- What is handed out by what was written. -/
def exported : Value → Except Failure Json
  | .str text =>
    match asText text with
    | .ok text => readExport text
    | .error e => .error e.failure
  | _ => .ok .null

/-! ### Digits -/

theorem wellFormed_of_plain {s : String} (plain : s.toList.all (!Text.isStandIn ·) = true) : Text.wellFormed? s = .ok s :=
  (Text.wellFormed_iff s s).mpr (.of_plain (by simpa using plain))

theorem asText_of_plain {s : String} (plain : s.toList.all (!Text.isStandIn ·) = true) : asText s = .ok s := by
  unfold asText
  rw [wellFormed_of_plain plain]

theorem plain_digit {c : Char} (digit : c.isDigit = true) : (!Text.isStandIn c) = true := by
  simp only [Char.isDigit,Bool.and_eq_true,decide_eq_true_eq,ge_iff_le] at digit
  have small : c.toNat ≤ 57 := UInt32.le_iff_toNat_le.mp digit.2
  have below : ¬0x10d800 ≤ c.toNat := by omega
  simp only [Text.isStandIn,below,decide_false,Bool.false_and,Bool.not_false]

theorem plain_repr (n : Nat) : n.repr.toList.all (!Text.isStandIn ·) = true := by
  rw [Nat.toList_repr]
  exact List.all_eq_true.mpr fun c member => plain_digit (Json.Reader.digits_toDigits n c member)

/-- Digits are characters. -/
theorem asText_digits (n : Int) : asText (toString n) = .ok (toString n) := by
  refine asText_of_plain ?_
  cases n with
  | ofNat n => exact plain_repr n
  | negSucc n =>
    show ("-" ++ (n+1).repr).toList.all (!Text.isStandIn ·) = true
    rw [String.toList_append,List.all_append,plain_repr]
    rfl

/-! ### What is written -/

theorem Tree.Ends.outcome {m : M α} {r : Except Thrown α} (ends : (m w).Ends answers r last) :
    (Engine.outcome m w).Ends answers (.ok r) last :=
  Tree.ends_settle.mpr ⟨answers,[],r,last,(List.append_nil _).symm,ends,.ok⟩

theorem isCallable_obj (id : Nat) (w : World) : isCallable (.obj id) w = .ok (w.obj id).isCallable w := rfl

theorem exportJson_unwritten {v : Value} {json : Json} (known : unwritten? w v = some json) :
    exportJson v w = .ok (.ok json) w := by
  cases v with
  | undefined | absent | sym id =>
    cases known
    rfl
  | big n =>
    cases known
    have text : coerceText (.big n) w = .ok (asText (toString n)) w := rfl
    rw [asText_digits] at text
    have shown : displayText (.big n) w = .ok (.ok (toString n)) w := M.bind_of_ok text
    exact M.bind_of_ok shown
  | obj id =>
    obtain ⟨callable,rfl⟩ : (w.obj id).isCallable = true ∧ .null = json := by simpa [unwritten?] using known
    refine (M.bind_of_ok (isCallable_obj id w)).trans ?_
    rw [callable]
    rfl
  | _ => cases known

/-- What is handed out by what was written, or by what was thrown instead. -/
def handOut : Except Thrown Value → M (Except Failure Json)
  | .ok r => return exported r
  | .error t => do return .error (← failureOf (← caught t))

theorem handOut_eq : (fun r : Except Thrown Value => (match r with
    | .ok (.str text) =>
      match asText text with
      | .ok text => return readExport text
      | .error e => return .error e.failure
    | .ok _ => return .ok .null
    | .error t => do return .error (← failureOf (← caught t)) : M (Except Failure Json))) = handOut := by
  funext r
  rcases r with t | v
  · rfl
  · cases v with
    | str text =>
      simp only [handOut,exported]
      cases asText text <;> rfl
    | _ => rfl

theorem exportJson_written {v : Value} (written : unwritten? w v = none) :
    exportJson v w = (outcome (Builtin.stringify v .undefined .undefined) >>= handOut) w := by
  cases v with
  | undefined | absent | sym id | big n => cases written
  | obj id =>
    have plain : (w.obj id).isCallable = false := by simpa [unwritten?] using written
    refine (M.bind_of_ok (isCallable_obj id w)).trans ?_
    rw [plain,← handOut_eq]
    rfl
  | _ =>
    rw [← handOut_eq]
    rfl

theorem exported_write {d : Doc} (fits : d.Fits 127) : exported (.str (d.write Builtin.quoted)) = .ok d.json := by
  have whole : asText (d.write Builtin.quoted) = .ok (d.write Doc.plainly) := by
    unfold asText
    rw [(Text.wellFormed_iff _ _).mpr (Doc.pairs_write d 127 fits)]
  simp only [exported,whole,readExport,Doc.parse_write fits]

/-- With the answers with which something is written of a value, that is what is handed out. -/
theorem ends_exportJson {v r : Value} (written : unwritten? w v = none)
    (ends : (Builtin.stringify v .undefined .undefined w).Ends answers (.ok r) last) :
    (exportJson v w).Ends answers (.ok (exported r)) last := by
  rw [exportJson_written written]
  have done : (handOut (.ok r) last).Ends [] (.ok (exported r)) last := .ok
  have whole := ends.outcome.andThen done
  rwa [List.append_nil] at whole

/-- A value that is never written is nothing or digits. Of any other value the engine writes nothing, and then nothing is
    handed out, or it writes the text of a tree, and then it is the value of that tree, if it fits. -/
theorem exports_what_is_written (v : Value) (w : World) :
    (∀ json, unwritten? w v = some json → exportJson v w = .ok (.ok json) w) ∧
    (unwritten? w v = none → ∀ answers r last, (Builtin.stringify v .undefined .undefined w).Ends answers (.ok r) last →
      r = .undefined ∧ (exportJson v w).Ends answers (.ok (.ok .null)) last ∨
      ∃ text, r = .str text ∧ (∃ d : Doc, text = d.write Builtin.quoted) ∧
        ∀ d : Doc, text = d.write Builtin.quoted → d.Fits 127 → (exportJson v w).Ends answers (.ok (.ok d.json)) last) := by
  refine ⟨fun json => exportJson_unwritten,fun written answers r last ends => ?_⟩
  have out := ends_exportJson written ends
  rcases Builtin.gives_stringify v w answers r last ends with rfl | ⟨d,rfl⟩
  · exact .inl ⟨rfl,out⟩
  · refine .inr ⟨_,rfl,⟨d,rfl⟩,fun e same fits => ?_⟩
    rw [same,exported_write fits] at out
    exact out

/-- An engine with a function that says itself what stands for it and for whole numbers of any size, and with an object
    inside another. -/
def speaking : World :=
  let say := Table.insert default (.text "toJSON") (.data (.obj 39) .full)
  let inner := Table.insert default (.text "c") (.data (.bool true) .full)
  let outer := Table.insert (Table.insert default (.text "a") (.data (.obj 41) .full)) (.text "b") (.data (.str "x") .full)
  { (default : World) with
    ticks := pollInterval
    heap := Array.replicate 39 { proto := .null, props := say } ++
      #[{ proto := .null, props := say, kind := .native (.boolean .new) #[] false }, { proto := .null, props := outer },
        { proto := .null, props := inner }] }

/-- The text that a computation comes to with these replies to its questions. -/
def textWith : List Reply → Tree Value → Option String
  | [], .ok (.str s) _ => some s
  | r :: rest, .ask _ w next => textWith rest (next r w)
  | _, _ => none

theorem ends_of_textWith {replies : List Reply} {t : Tree Value} {s : String} (comes : textWith replies t = some s) :
    ∃ answers last, t.Ends answers (.ok (.str s)) last := by
  induction replies generalizing t with
  | nil =>
    cases t with
    | ok v w =>
      cases v with
      | str r =>
        obtain rfl : r = s := Option.some.inj comes
        exact ⟨[],w,.ok⟩
      | _ => exact absurd comes nofun
    | _ => exact absurd comes nofun
  | cons r rest ih =>
    cases t with
    | ask q w next =>
      obtain ⟨answers,last,ends⟩ := ih comes
      exact ⟨_,last,.ask ends⟩
    | _ => exact absurd comes nofun

/-- What is written of the objects. -/
def document : Doc := .obj [("a",.obj [("c",.bool true)]),("b",.str "x")]

/-- An object is handed out with what is inside it. -/
theorem exports_nested : ∃ answers last,
    (Builtin.stringify (.obj 40) .undefined .undefined speaking).Ends answers
      (.ok (.str (document.write Builtin.quoted))) last ∧
    (exportJson (.obj 40) speaking).Ends answers (.ok (.ok (.obj [("a",.obj [("c",.bool true)]),("b",.str "x")]))) last := by
  have written : textWith [] (Builtin.stringify (.obj 40) .undefined .undefined speaking) =
      some (document.write Builtin.quoted) := by decide +kernel
  have whole : ∀ s ∈ ["a","b","c","x"], Text.wellFormed? s = .ok s := by
    have letters : ["a","b","c","x"].all (·.toList.all (!Text.isStandIn ·)) = true := by decide
    exact fun s member => wellFormed_of_plain (List.all_eq_true.mp letters s member)
  have fits : document.Fits 127 := by
    simp [document,Doc.Fits,Doc.FitMembers,whole]
  have json : document.json = .obj [("a",.obj [("c",.bool true)]),("b",.str "x")] := by
    simp [document,Doc.json,Doc.jsonMembers,Doc.characters,whole]
    rfl
  obtain ⟨answers,last,ends⟩ := ends_of_textWith written
  refine ⟨answers,last,ends,?_⟩
  rcases (exports_what_is_written (.obj 40) speaking).2 rfl answers _ last ends with ⟨same,-⟩ | ⟨text,same,-,exports⟩
  · cases same
  · cases same
    rw [← json]
    exact exports document rfl fits

/-- Where a surrogate has no partner the text that is written is refused. What a function says stands for it is written,
    and nothing is handed out for it; what a whole number is said to be is written, and its digits are handed out. -/
theorem written_and_not_exported :
    (∃ answers last, (Builtin.stringify (.str (Text.ofUnits [0xd800])) .undefined .undefined speaking).Ends answers
        (.ok (.str "\"\\ud800\"")) last ∧
      (exportJson (.str (Text.ofUnits [0xd800])) speaking).Ends answers (.ok (.error (.internal
        "invalid JSON from interpreter: unexpected end of hex escape at line 1 column 8"))) last) ∧
    (∃ answers last, (Builtin.stringify (.obj 39) .undefined .undefined speaking).Ends answers (.ok (.str "true")) last ∧
      exportJson (.obj 39) speaking = .ok (.ok .null) speaking) ∧
    ∃ answers last, (Builtin.stringify (.big 5) .undefined .undefined speaking).Ends answers (.ok (.str "true")) last ∧
      exportJson (.big 5) speaking = .ok (.ok (.str "5")) speaking := by
  have lone : textWith [] (Builtin.stringify (.str (Text.ofUnits [0xd800])) .undefined .undefined speaking) =
      some "\"\\ud800\"" := by decide +kernel
  have said : textWith [.ok (.bool true)] (Builtin.stringify (.obj 39) .undefined .undefined speaking) = some "true" := by
    decide +kernel
  have counted : textWith [.ok (.bool true)] (Builtin.stringify (.big 5) .undefined .undefined speaking) = some "true" := by
    decide +kernel
  refine ⟨?_,?_,?_⟩
  · obtain ⟨answers,last,ends⟩ := ends_of_textWith lone
    have out := ends_exportJson rfl ends
    have refused : exported (.str "\"\\ud800\"") = .error (.internal
        "invalid JSON from interpreter: unexpected end of hex escape at line 1 column 8") := by
      have plain : asText "\"\\ud800\"" = .ok "\"\\ud800\"" := asText_of_plain (by decide)
      have read : Json.parse "\"\\ud800\"" = .error ⟨.cutEscape,some (1,8)⟩ := by rfl
      simp only [exported,plain,readExport,read]
      rfl
    exact ⟨answers,last,ends,refused ▸ out⟩
  · obtain ⟨answers,last,ends⟩ := ends_of_textWith said
    exact ⟨answers,last,ends,exportJson_unwritten rfl⟩
  · obtain ⟨answers,last,ends⟩ := ends_of_textWith counted
    exact ⟨answers,last,ends,exportJson_unwritten rfl⟩

end ScriptHost.Engine
