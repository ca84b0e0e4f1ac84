import ScriptHost.Proofs.Engine.Keeping
/-!
What the computations of an evaluation do to the names that they keep things under. A program may do anything,
and so may the scripts that run while a value is handed on and looked at; what the host itself does in between is
exactly this: the value of a program is given to its name, it is taken from there, and a state object is given to
the other name, or the outcome is a failure.
-/
namespace ScriptHost.Engine
variable {α β : Type} {w last back : World} {name valueName stateName : String} {names : List String}
  {answers : List Answer}

namespace World

/-- What is under these names of the global object was left alone. -/
def Spares (w last : World) (names : List String) : Prop := ∀ name ∈ names, w.Leaves last name

theorem Spares.refl (w : World) (names : List String) : w.Spares w names := fun name _ => .refl w name

theorem Spares.trans (first : w.Spares back names) (rest : back.Spares last names) : w.Spares last names :=
  fun name member => (first name member).trans (rest name member)

/-- The global object takes properties under these names and gives them up again. -/
def KeepsAll (w : World) (names : List String) : Prop := ∀ name ∈ names, w.Keeps name

namespace KeepsAll

theorem spared (keeps : w.KeepsAll names) (spares : w.Spares last names) : last.KeepsAll names :=
  fun name member => (spares name member).keeps (keeps name member)

theorem given (keeps : w.KeepsAll names) (own : name ∈ names) (v : Value) : (w.given name v).KeepsAll names :=
  fun other member => (keeps name own).given v (keeps other member)

theorem without (keeps : w.KeepsAll names) (own : name ∈ names) : (w.without name).KeepsAll names :=
  fun other member => (keeps name own).without (keeps other member)

end KeepsAll

end World

/-! ### Computations one after another -/

/-- With the first ones of these answers the computation leaves the names alone. -/
def Discreet (m : M α) (w : World) (answers : List Answer) (names : List String) : Prop :=
  ∀ first rest r back, answers = first ++ rest → (m w).Ends first r back → w.Spares back names

theorem ends_andThen {m : M (Except Failure α)} {f : α → M (Except Failure β)} {r : Except Thrown (Except Failure β)}
    (ends : ((andThen m f) w).Ends answers r last) :
    (∃ first rest a back, answers = first ++ rest ∧ (m w).Ends first (.ok (.ok a)) back ∧ (f a back).Ends rest r last) ∨
      (∃ e, r = .ok (.error e) ∧ (m w).Ends answers (.ok (.error e)) last) ∨
      ∃ t, r = .error t ∧ (m w).Ends answers (.error t) last := by
  unfold andThen at ends
  rw [M.bind_apply] at ends
  rcases Tree.ends_bind.mp ends with ⟨first,rest,s,back,rfl,before,after⟩ | ⟨t,rfl,thrown⟩
  · cases s with
    | ok a => exact .inl ⟨first,rest,a,back,rfl,before,after⟩
    | error e =>
      cases after
      exact .inr (.inl ⟨e,rfl,by simpa using before⟩)
  · exact .inr (.inr ⟨t,rfl,thrown⟩)

/-- What a step throws is a failure. -/
theorem ends_plainly {m : M α} {r : Except Thrown (Except Failure α)} (ends : (plainly (sure m) w).Ends answers r last) :
    (∃ a, r = .ok (.ok a) ∧ (m w).Ends answers (.ok a) last) ∨
      ∃ e t, r = .ok (.error e) ∧ (m w).Ends answers (.error t) last := by
  obtain ⟨first,rest,s,back,rfl,before,after⟩ := ends_outcome ends
  unfold sure at before
  rw [M.bind_apply] at before
  rcases Tree.ends_bind.mp before with ⟨start,none,a,middle,rfl,before,pure_⟩ | ⟨t,rfl,thrown⟩
  · cases pure_
    cases after
    exact .inl ⟨a,rfl,by simpa using before⟩
  · cases after
    exact .inr ⟨_,t,rfl,by simpa using thrown⟩

theorem outcome_of_ok {m : M α} {a : α} (ok : m w = .ok a back) : outcome m w = .ok (.ok a) back := by
  unfold outcome
  rw [ok]
  rfl

theorem plainly_of_ok {m : M α} {a : α} (ok : m w = .ok a back) : plainly (sure m) w = .ok (.ok a) back := by
  have ok : sure m w = .ok (.ok a) back := M.bind_of_ok ok
  exact M.bind_of_ok (outcome_of_ok ok)

/-! ### What the host does to names -/

/-- A kept value is taken away. -/
theorem takeKept_eq (keeps : w.Keeps name) : ∃ v, takeKept name w = .ok (.ok v) (w.without name) := by
  refine ⟨?value,plainly_of_ok (a := ?value) ?_⟩
  rotate_left
  · rw [M.bind_of_ok (getGlobal_eq keeps),M.bind_of_ok (removeGlobal_eq keeps)]
    rfl

/-- An object that is kept is found. -/
theorem found_of_kept {id : Nat} (keeps : w.Keeps name) (kept : w.kept? name = some (.data (.obj id) .full)) :
    plainly (do asObject (← getGlobal name)) w = .ok (.ok id) w := by
  have found : (do asObject (← getGlobal name) : M (Converted Nat)) w = .ok (.ok id) w := by
    rw [M.bind_of_ok (getGlobal_eq keeps)]
    simp only [kept]
    rfl
  exact M.bind_of_ok (outcome_of_ok found)

theorem dropGlobal_eq (keeps : w.Keeps name) : dropGlobal name w = .ok () (w.without name) := by
  have ok := outcome_of_ok (removeGlobal_eq keeps)
  show M.bind (outcome (removeGlobal name)) _ w = _
  exact M.bind_of_ok ok

/-- Everything that was kept is taken away. -/
theorem dropKept_eq {valueName? : Option String} (keeps : w.Keeps stateName) (value : ∀ name, valueName? = some name → (w.without stateName).Keeps name) :
    dropKept stateName valueName? w = .ok () (match valueName? with
      | some name => (w.without stateName).without name
      | none => w.without stateName) := by
  unfold dropKept
  rw [M.bind_of_ok (dropGlobal_eq keeps)]
  cases valueName? with
  | none => rfl
  | some name => exact dropGlobal_eq (value name rfl)

/-- The value of a program is given to its name. -/
theorem ends_evaluateInto {p : Program} {r : Except Thrown (Except Failure Unit)} (keeps : w.KeepsAll names)
    (own : name ∈ names) (discreet : Discreet (evaluate p) w answers names)
    (ends : (evaluateInto name p w).Ends answers r last) :
    (∃ back v, w.Spares back names ∧ last = back.given name v ∧ r = .ok (.ok ())) ∨
      w.Spares last names ∧ r ≠ .ok (.ok ()) := by
  rcases ends_andThen ends with ⟨first,rest,v,back,rfl,before,after⟩ | ⟨e,rfl,before⟩ | ⟨t,rfl,before⟩
  · have spares := discreet first rest _ back rfl before
    have keeps := (keeps.spared spares) name own
    rcases setGlobal_eq keeps v with set | ⟨t,o,set⟩
    · rw [plainly_of_ok set] at after
      cases after
      exact .inl ⟨back,v,spares,rfl,rfl⟩
    · rcases ends_plainly after with ⟨a,rfl,thrown⟩ | ⟨e,t,rfl,thrown⟩ <;> rw [set] at thrown <;> cases thrown
      exact .inr ⟨spares.trans fun other _ => World.leaves_alloc keeps.inside o other,nofun⟩
  · exact .inr ⟨discreet answers [] _ last (by simp) before,nofun⟩
  · exact .inr ⟨discreet answers [] _ last (by simp) before,nofun⟩

/-- What comes to a value came to one before that and went on with it. -/
theorem ends_bind_ok {m : M α} {f : α → M β} {b : β} (ends : ((m >>= f) w).Ends answers (.ok b) last) :
    ∃ first rest a back, answers = first ++ rest ∧ (m w).Ends first (.ok a) back ∧ (f a back).Ends rest (.ok b) last := by
  rw [M.bind_apply] at ends
  rcases Tree.ends_bind.mp ends with value | ⟨t,same,-⟩
  · exact value
  · cases same

/-- What comes first does not matter to the value. -/
theorem ends_then {m : M α} {f : M β} {b : β} (ends : ((do let _ ← m; f) w).Ends answers (.ok b) last) :
    ∃ rest back, (f back).Ends rest (.ok b) last := by
  obtain ⟨-,rest,-,back,-,-,after⟩ := ends_bind_ok ends
  exact ⟨rest,back,after⟩

/-- A state object is an object. -/
theorem ends_blankState {v s : Value} (ends : (blankState v w).Ends answers (.ok s) last) : ∃ id, s = .obj id := by
  unfold blankState at ends
  obtain ⟨first,rest,state,back,rfl,made,after⟩ := ends_bind_ok ends
  obtain ⟨id,rfl⟩ : ∃ id, state = .obj id := by
    unfold newObject allocate at made
    split at made
    · cases made
    · cases made
      exact ⟨_,rfl⟩
  obtain ⟨_,_,after⟩ := ends_then after
  obtain ⟨_,_,after⟩ := ends_then after
  obtain ⟨_,_,after⟩ := ends_then after
  obtain ⟨_,_,after⟩ := ends_then after
  obtain ⟨_,_,after⟩ := ends_then after
  cases after
  exact ⟨id,rfl⟩

theorem Discreet.start {m : M α} {first rest : List Answer} (discreet : Discreet m w (first ++ rest) names) :
    Discreet m w first names :=
  fun start others r back same => discreet start (others ++ rest) r back (by simp [same])

/-- A state object is made and given to its name, or nothing comes of it. -/
theorem ends_makeState {v : Value} {r : Except Thrown Value} (keeps : w.KeepsAll names) (own : stateName ∈ names)
    (discreet : Discreet (blankState v) w answers names)
    (ends : ((do
      let state ← blankState v
      setGlobal stateName state
      return state : M Value) w).Ends answers r last) :
    (∃ first rest id middle, answers = first ++ rest ∧ (blankState v w).Ends first (.ok (.obj id)) middle ∧
      setGlobal stateName (.obj id) middle = .ok () (middle.given stateName (.obj id))) ∨
      w.Spares last names ∧ ∃ t, r = .error t := by
  rw [M.bind_apply] at ends
  rcases Tree.ends_bind.mp ends with ⟨first,rest,state,middle,rfl,made,set⟩ | ⟨t,rfl,thrown⟩
  · have spares := discreet first rest _ middle rfl made
    have keeps := (keeps.spared spares) stateName own
    obtain ⟨id,rfl⟩ := ends_blankState made
    rcases setGlobal_eq keeps (.obj id) with given | ⟨t,o,refused⟩
    · exact .inl ⟨first,rest,id,middle,rfl,made,given⟩
    · rw [M.bind_apply,refused] at set
      cases set
      exact .inr ⟨spares.trans fun other _ => World.leaves_alloc keeps.inside o other,t,rfl⟩
  · exact .inr ⟨discreet answers [] _ last (by simp) thrown,t,rfl⟩

theorem andThen_of_ok {m : M (Except Failure α)} {a : α} (f : α → M (Except Failure β)) (ok : m w = .ok (.ok a) back) :
    (andThen m f) w = f a back :=
  M.bind_of_ok ok

/-- What runs while a value is handed on leaves the names alone: the making of the state object, and everything
    after that was given to its name. -/
structure HandsOn (valueName stateName : String) (w : World) (answers : List Answer) (last : World)
    (names : List String) : Prop where
  making : ∀ v back, takeKept valueName w = .ok (.ok v) back → Discreet (blankState v) back answers names
  rest : ∀ v back first rest state middle after, takeKept valueName w = .ok (.ok v) back →
    answers = first ++ rest → (blankState v back).Ends first (.ok state) middle →
    setGlobal stateName state middle = .ok () after → after.Spares last names

/-- A kept value makes place for a state object, or nothing comes of it. -/
theorem ends_follow {r : Except Thrown (Except Failure Unit)} {v : Value} (keeps : w.KeepsAll names)
    (value : valueName ∈ names) (state : stateName ∈ names)
    (taken : takeKept valueName w = .ok (.ok v) (w.without valueName))
    (discreet : Discreet (blankState v) (w.without valueName) answers names)
    (ends : (follow valueName stateName w).Ends answers r last) :
    (∃ first rest id middle, answers = first ++ rest ∧
      (blankState v (w.without valueName)).Ends first (.ok (.obj id)) middle ∧
      setGlobal stateName (.obj id) middle = .ok () (middle.given stateName (.obj id))) ∨
      (w.without valueName).Spares last names ∧ ∃ e, r = .ok (.error e) := by
  have keeps := keeps.without value
  unfold follow at ends
  rw [andThen_of_ok _ taken] at ends
  rcases ends_andThen ends with ⟨first,rest,s,back,rfl,made,-⟩ | ⟨e,rfl,failed⟩ | ⟨t,rfl,thrown⟩
  · rcases ends_plainly made with ⟨a,-,made⟩ | ⟨e,t,same,-⟩
    · rcases ends_makeState keeps state discreet.start made with ⟨start,others,id,middle,rfl,facts⟩ | ⟨-,t,same⟩
      · exact .inl ⟨start,others ++ rest,id,middle,by simp,facts⟩
      · cases same
    · cases same
  · rcases ends_plainly failed with ⟨a,same,-⟩ | ⟨e,t,-,thrown⟩
    · cases same
    · rcases ends_makeState keeps state discreet thrown with made | ⟨spares,-⟩
      · exact .inl made
      · exact .inr ⟨spares,_,rfl⟩
  · rcases ends_plainly thrown with ⟨a,same,-⟩ | ⟨e,t,same,-⟩ <;> cases same

/-- A kept value makes place for a state object, or the outcome is a failure. -/
theorem ends_followAt {r : Except Thrown (Option (Except Failure Json))} (keeps : w.KeepsAll names)
    (value : valueName ∈ names) (state : stateName ∈ names) (handsOn : HandsOn valueName stateName w answers last names)
    (ends : (followAt valueName stateName w).Ends answers r last) :
    (∃ middle id, (w.without valueName).Spares middle names ∧ (middle.given stateName (.obj id)).Spares last names) ∨
      (w.without valueName).Spares last names ∧ ∃ e, r = .ok (some (.error e)) := by
  obtain ⟨v,taken⟩ := takeKept_eq (keeps valueName value)
  have discreet := handsOn.making v _ taken
  have handed : ∀ {first rest : List Answer} {id : Nat} {middle : World}, answers = first ++ rest →
      (blankState v (w.without valueName)).Ends first (.ok (.obj id)) middle →
      setGlobal stateName (.obj id) middle = .ok () (middle.given stateName (.obj id)) →
      ∃ middle id, (w.without valueName).Spares middle names ∧ (middle.given stateName (.obj id)).Spares last names :=
    fun same made given => ⟨_,_,discreet _ _ _ _ same made,handsOn.rest v _ _ _ _ _ _ taken same made given⟩
  unfold followAt at ends
  rw [M.bind_apply] at ends
  rcases Tree.ends_bind.mp ends with ⟨first,rest,s,back,rfl,followed,after⟩ | ⟨t,rfl,thrown⟩
  · rcases ends_follow keeps value state taken discreet.start followed with
      ⟨start,others,id,middle,rfl,made,given⟩ | ⟨spares,e,same⟩
    · exact .inl (handed (List.append_assoc ..) made given)
    · cases same
      cases after
      exact .inr ⟨spares,e,rfl⟩
  · rcases ends_follow keeps value state taken discreet thrown with ⟨start,others,id,middle,same,made,given⟩ | ⟨-,e,same⟩
    · exact .inl (handed same made given)
    · cases same

end ScriptHost.Engine
