import Mathlib.Data.List.TakeDrop
import Mathlib.Data.List.TakeWhile
import ScriptHost.Engine.Builtin.Text
import ScriptHost.Proofs.Engine.Aborting
import ScriptHost.Proofs.Engine.Bookkeeping
/-!
What a rejection is taken for. An error that the engine has made is told by its name and its message. Any other value is
judged by its text, which is the one that `String` makes of it: a text that reads like that of an error is one, any other
text is told as it is, and a text that is none of characters, or that could not be had, is a failure of the engine
(`Judged`). A symbol has such a text, but the conversion is not asked for it, and so it is a failure as well
(`Classified`).
-/
namespace ScriptHost.Engine
variable {α β : Type} {w last : World} {answers : List Answer} {v : Value}

/-! ### Texts of errors -/

/-- The text begins with a word that ends in `Error` or `Exception`, and a colon follows. -/
def ErrorLike (text : String) : Prop :=
  ∃ word rest, text.toList = word ++ ':' :: rest ∧ (∀ c ∈ word, Text.isWordChar c = true) ∧
    ("Error".toList <:+ word ∨ "Exception".toList <:+ word)

theorem readsLikeError_iff (text : String) : readsLikeError text = true ↔ ErrorLike text := by
  unfold readsLikeError ErrorLike
  rw [List.span_eq_takeWhile_dropWhile]
  simp only [Bool.and_eq_true,Bool.or_eq_true,List.isSuffixOf_iff_suffix,decide_eq_true_eq]
  constructor
  · rintro ⟨colon,ending⟩
    obtain ⟨rest,same⟩ := List.head?_eq_some_iff.mp colon
    refine ⟨_,rest,?_,fun c => List.mem_takeWhile_imp,ending⟩
    rw [← same,List.takeWhile_append_dropWhile]
  · rintro ⟨word,rest,same,letters,ending⟩
    have colon : Text.isWordChar ':' = false := by decide
    have none : List.takeWhile Text.isWordChar (':' :: rest) = [] := by simp [colon]
    have all : List.dropWhile Text.isWordChar (':' :: rest) = ':' :: rest := by simp [colon]
    rw [same,List.takeWhile_append_of_pos letters,List.dropWhile_append_of_pos letters,none,all,List.append_nil]
    exact ⟨rfl,ending⟩

/-! ### Texts of values -/

/-- What `String` makes of a value. -/
def stringOf (v : Value) : M Value :=
  Builtin.string .new { callee := .undefined, this := .undefined, args := #[v], newTarget := .undefined, kept := #[] }

/-- Unless it is a symbol, a value is converted to a text. -/
theorem stringOf_eq (v : Value) (other : ∀ id, v ≠ .sym id) : stringOf v = toText v >>= fun s => pure (.str s) := by
  cases v with
  | sym id => exact absurd rfl (other id)
  | _ => rfl

/-- The name of the kind of a value is the one that `typeof` has for it, but for null. -/
def KindName (w : World) (v : Value) (kind : String) : Prop :=
  (v = .null ∧ kind = "null") ∨ v ≠ .null ∧ typeOf v w = .ok kind w

theorem kindName_ends (v : Value) (w : World) : ∃ kind, kindName v w = .ok kind w ∧ KindName w v kind := by
  cases v with
  | null => exact ⟨_,rfl,.inl ⟨rfl,rfl⟩⟩
  | _ => exact ⟨_,rfl,.inr ⟨nofun,rfl⟩⟩

/-! ### Conversions -/

/-- What has come of the text of a value. -/
def converted : Except Thrown String → Converted String
  | .ok s => asText s
  | .error t => .error (.thrown t)

/-- A text is gone on with, or that there is none. -/
theorem ends_coerceText {f : Converted String → M β} {r : Except Thrown β}
    (ends : ((coerceText v >>= f) w).Ends answers r last) :
    ∃ first rest s back, answers = first ++ rest ∧ (toText v w).Ends first s back ∧ (f (converted s) back).Ends rest r last := by
  unfold coerceText at ends
  rw [M.bind_assoc] at ends
  obtain ⟨first,rest,s,back,rfl,before,after⟩ := ends_outcome ends
  cases s <;> exact ⟨first,rest,_,back,rfl,before,after⟩

/-- A step that throws nothing is gone on from. -/
theorem Yields.ends {m : M α} {f : α → M β} {Q : α → Prop} {r : Except Thrown β} (yields : Yields m Q)
    (ends : ((m >>= f) w).Ends answers r last) :
    ∃ first rest a back, answers = first ++ rest ∧ (m w).Ends first (.ok a) back ∧ (f a back).Ends rest r last := by
  rw [M.bind_apply] at ends
  rcases Tree.ends_bind.mp ends with gone | ⟨t,-,thrown⟩
  · exact gone
  · obtain ⟨_,impossible,-⟩ := yields _ _ _ _ thrown
    cases impossible

section
variable {m : M α} {f : α → M β} {first rest : List Answer} {back : World}

theorem Tree.Ends.andThen {a : α} {r : Except Thrown β} (before : (m w).Ends first (.ok a) back)
    (after : (f a back).Ends rest r last) : ((m >>= f) w).Ends (first ++ rest) r last := by
  rw [M.bind_apply]
  exact ends_bind.mpr (.inl ⟨first,rest,a,back,rfl,before,after⟩)

theorem Tree.Ends.map {g : α → β} {s : Except Thrown α} (ends : (m w).Ends answers s last) :
    ((m >>= fun a => pure (g a)) w).Ends answers (s.map g) last := by
  rw [M.bind_apply]
  cases s with
  | ok a => exact ends_bind.mpr (.inl ⟨answers,[],a,last,(List.append_nil _).symm,ends,.ok⟩)
  | error t => exact ends_bind.mpr (.inr ⟨t,rfl,ends⟩)

theorem Tree.Ends.thrownOut {t : Thrown} (thrown : (m w).Ends answers (.error t) last) :
    ((m >>= f) w).Ends answers (.error t) last := by
  rw [M.bind_apply]
  exact ends_bind.mpr (.inr ⟨t,rfl,thrown⟩)

end

/-! ### What is read off an error -/

/-- A property as a text. -/
def propertyText (id : Nat) (name : String) : M String := do toText (← getId id (.text name))

/-- A property as a text, unless it is undefined or null. -/
def givenText (id : Nat) (name : String) : M (Option String) := do
  let v ← getId id (.text name)
  if v.isNothing then return none else return some (← toText v)

theorem ends_optionalText {id : Nat} {name : String} {r : Except Thrown (Option String)}
    (ends : (optionalText id name w).Ends answers r last) :
    ∃ s, (propertyText id name w).Ends answers s last ∧ r = .ok (converted s).toOption := by
  obtain ⟨first,rest,s,back,rfl,before,after⟩ := ends_outcome ends
  cases s with
  | error t =>
    cases after
    rw [List.append_nil]
    exact ⟨.error t,before.thrownOut,rfl⟩
  | ok v =>
    obtain ⟨second,none,s,middle,rfl,text,done⟩ := ends_coerceText after
    refine ⟨s,before.andThen ?_,?_⟩ <;> cases found : converted s <;> rw [found] at done <;> cases done
    · simpa using text
    · simpa using text
    · rfl
    · rfl

/-- The name of an error: what its property says, if it says anything. -/
def nameIn (s : Except Thrown String) : String :=
  match converted s with
  | .ok name => if name.isEmpty then "Error" else name
  | .error _ => "Error"

/-- The message of an error: what its property says, if it is given. -/
def messageIn (s : Except Thrown (Option String)) : String :=
  match s with
  | .ok (some s) => (asText s).toOption.getD ""
  | _ => ""

theorem messageIn_map (s : Except Thrown String) : messageIn (s.map some) = (converted s).toOption.getD "" := by
  cases s <;> rfl

theorem ends_textIfAny {id : Nat} {name : String} {r : Except Thrown String}
    (ends : (textIfAny id name w).Ends answers r last) :
    ∃ s, (givenText id name w).Ends answers s last ∧ r = .ok (messageIn s) := by
  obtain ⟨first,rest,s,back,rfl,before,after⟩ := ends_outcome ends
  cases s with
  | error t =>
    cases after
    rw [List.append_nil]
    exact ⟨.error t,before.thrownOut,rfl⟩
  | ok v =>
    have given : ∀ {s answers last}, ((if v.isNothing then pure none else return some (← toText v) : M (Option String))
        back).Ends answers s last → (givenText id name w).Ends (first ++ answers) s last := fun ends => before.andThen ends
    by_cases nothing : v.isNothing = true
    · simp only [nothing,if_true] at after given
      cases after
      exact ⟨.ok none,given .ok,rfl⟩
    · simp only [nothing,Bool.false_eq_true,if_false] at after given
      obtain ⟨second,none,s,middle,rfl,text,done⟩ := ends_coerceText after
      have text := text.map (g := some)
      refine ⟨s.map some,given ?_,?_⟩ <;> cases found : converted s <;> rw [found] at done <;> cases done
      · rwa [List.append_nil]
      · rwa [List.append_nil]
      · rw [messageIn_map,found]; rfl
      · rw [messageIn_map,found]; rfl

/-- A native error is told by its name and its message. -/
theorem ends_failureOf {id : Nat} {r : Except Thrown Failure} (error : (w.obj id).kind = .error)
    (ends : (failureOf (.obj id) w).Ends answers r last) :
    ∃ first second third name message stack middle after, answers = first ++ (second ++ third) ∧
      (propertyText id "name" w).Ends first name middle ∧ (givenText id "message" middle).Ends second message after ∧
      r = .ok (.script (nameIn name) (messageIn message) stack) := by
  have known : isError (.obj id) w = .ok true w := by
    refine (M.bind_of_ok (objectOf_eq id w)).trans ?_
    rw [error]
    rfl
  unfold failureOf at ends
  rw [M.bind_of_ok known] at ends
  obtain ⟨first,rest,name,middle,rfl,named,ends⟩ := (yields_optionalText id "name").ends ends
  obtain ⟨second,third,message,after,rfl,given,ends⟩ := (yields_textIfAny id "message").ends ends
  obtain ⟨third,none,stack,back,rfl,-,ends⟩ := (yields_textIfAny id "stack").ends ends
  obtain ⟨s,reads,same⟩ := ends_optionalText named
  cases same
  obtain ⟨s',reads',same⟩ := ends_textIfAny given
  cases same
  cases ends
  refine ⟨first,second,_,s,s',!stack.isEmpty,middle,after,rfl,reads,reads',?_⟩
  unfold nameIn
  cases converted s <;> rfl

/-! ### Classification -/

/-- What a value is taken for that is no error of the engine, by what has come of `String`. -/
inductive Judged (w : World) (v : Value) : Except Thrown Value → Failure → Prop where
  | rejected {s text : String} (whole : Text.wellFormed? s = .ok text) (like : ErrorLike text) :
    Judged w v (.ok (.str s)) (.rejected text)
  | other {s text kind : String} (whole : Text.wellFormed? s = .ok text) (unlike : ¬ErrorLike text)
      (named : KindName w v kind) : Judged w v (.ok (.str s)) (.nonErrorRejection text kind)
  /-- The text is none of characters: it has a surrogate without a partner. -/
  | broken {s : String} {place : Nat} (broken : Text.wellFormed? s = .error place) :
    Judged w v (.ok (.str s)) (.engine (brokenText place))
  | thrown {t : Thrown} : Judged w v (.error t) (.engine thrownText)

/-- What a rejection with a value is taken for. -/
inductive Classified (w : World) (v : Value) (answers : List Answer) (last : World) : Failure → Prop where
  /-- It is an error that the engine has made. -/
  | error {id : Nat} {first second third : List Answer} {name : Except Thrown String}
      {message : Except Thrown (Option String)} {middle after : World} (stack : Bool) (same : v = .obj id)
      (error : (w.obj id).kind = .error) (split : answers = first ++ (second ++ third))
      (named : (propertyText id "name" w).Ends first name middle)
      (told : (givenText id "message" middle).Ends second message after) :
    Classified w v answers last (.script (nameIn name) (messageIn message) stack)
  | judged {s : Except Thrown Value} {f : Failure} (plain : ∀ id, v = .obj id → (w.obj id).kind ≠ .error)
      (other : ∀ id, v ≠ .sym id) (ends : (stringOf v w).Ends answers s last) (judged : Judged w v s f) :
    Classified w v answers last f
  /-- `String` has a text for it, but nobody has asked for that. -/
  | symbol {id : Nat} (same : v = .sym id) : Classified w v answers last (.engine thrownText)

theorem isError_ends (v : Value) (w : World) : ∃ b, isError v w = .ok b w ∧
    (b = true → ∃ id, v = .obj id ∧ (w.obj id).kind = .error) ∧ (b = false → ∀ id, v = .obj id → (w.obj id).kind ≠ .error) := by
  cases v with
  | obj id =>
    refine ⟨_,rfl,?_,?_⟩ <;> cases kind : (w.obj id).kind <;> simp [kind]
  | _ => exact ⟨false,rfl,nofun,nofun⟩

/-- What a text is taken for, or that there is none. -/
theorem judged_of_text {s : Except Thrown String} {kind : String} {rest : List Answer} {back : World}
    {r : Except Thrown Failure} (named : KindName w v kind)
    (ends : ((match converted s with
      | .ok text => return if readsLikeError text then .rejected text else .nonErrorRejection text kind
      | .error e => return e.failure : M Failure) back).Ends rest r last) :
    rest = [] ∧ last = back ∧ ∃ f, r = .ok f ∧ Judged w v (s.map .str) f := by
  cases s with
  | error t =>
    cases ends
    exact ⟨rfl,rfl,_,rfl,.thrown⟩
  | ok s =>
    unfold converted asText at ends
    cases whole : Text.wellFormed? s with
    | error place =>
      simp only [whole] at ends
      cases ends
      exact ⟨rfl,rfl,_,rfl,.broken whole⟩
    | ok text =>
      simp only [whole] at ends
      cases ends
      refine ⟨rfl,rfl,_,rfl,?_⟩
      split
      · next like => exact .rejected whole ((readsLikeError_iff text).mp like)
      · next unlike => exact .other whole (fun like => unlike ((readsLikeError_iff text).mpr like)) named

/-- Whatever value a promise is rejected with, it is taken for something. -/
theorem ends_classifyRejection {r : Except Thrown Failure} (ends : (classifyRejection v w).Ends answers r last) :
    ∃ f, r = .ok f ∧ Classified w v answers last f := by
  obtain ⟨b,known,error,plain⟩ := isError_ends v w
  unfold classifyRejection at ends
  rw [M.bind_of_ok known] at ends
  cases b with
  | true =>
    obtain ⟨id,rfl,kind⟩ := error rfl
    obtain ⟨_,_,_,_,_,stack,_,_,split,named,given,rfl⟩ := ends_failureOf kind ends
    exact ⟨_,rfl,.error stack rfl kind split named given⟩
  | false =>
    obtain ⟨kind,named,name⟩ := kindName_ends v w
    simp only [Bool.false_eq_true,if_false] at ends
    rw [M.bind_of_ok named] at ends
    unfold displayText at ends
    rw [M.bind_assoc] at ends
    obtain ⟨first,rest,s,back,rfl,text,ends⟩ := ends_coerceText ends
    have judged : rest = [] ∧ last = back ∧ ∃ f, r = .ok f ∧ Judged w v (s.map .str) f := by
      refine judged_of_text name ?_
      cases found : converted s <;> rw [found] at ends <;> exact ends
    obtain ⟨rfl,rfl,f,rfl,judged⟩ := judged
    refine ⟨f,rfl,?_⟩
    by_cases symbol : ∃ id, v = .sym id
    · -- Nothing makes a text of a symbol but `String` itself.
      obtain ⟨id,rfl⟩ := symbol
      cases text
      cases judged
      exact .symbol rfl
    · have other : ∀ id, v ≠ .sym id := fun id same => symbol ⟨id,same⟩
      refine .judged (plain rfl) other ?_ judged
      rw [stringOf_eq v other,List.append_nil]
      exact text.map

end ScriptHost.Engine
