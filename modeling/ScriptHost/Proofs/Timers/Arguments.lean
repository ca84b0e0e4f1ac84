import ScriptHost.Proofs.Engine.Aborting
import ScriptHost.Proofs.Timers.Calls
/-!
Arguments of the functions that scripts call for their timers. A delay and a handle are made numbers first, and for that
scripts may be asked, which can do anything with timers. What the conversion does by itself between these questions leaves
timers alone (`Still`), so that a call is a conversion and then a timer that is set (`ends_scheduling`) or cleared
(`ends_clearing`), if anything comes of it.
-/
namespace ScriptHost.Engine
variable {α β : Type} {w back last : World} {answers : List Answer}

/-- There are further objects at most, and timers are as they were. -/
structure World.Rests (w last : World) : Prop where
  ext : w.Extends last
  timers : last.outside.timers = w.outside.timers

namespace World

theorem Rests.refl (w : World) : w.Rests w := ⟨.refl w,rfl⟩

theorem Rests.trans (first : w.Rests back) (rest : back.Rests last) : w.Rests last :=
  ⟨first.ext.trans rest.ext,rest.timers.trans first.timers⟩

theorem Rests.leaves {t : Nat} (rests : w.Rests last) (tends : w.Tends t) : w.LeavesTimers last :=
  tends.leaves_of_extends rests.ext (Nat.le_of_eq (congrArg Timers.nextId rests.timers.symm))
    (congrArg Timers.active rests.timers)

/-- Which timers wait was left as it was: the active ones, and those that the table has. -/
structure SameTimers (w last : World) : Prop where
  active : last.outside.timers.active = w.outside.timers.active
  table : ∀ t, w.kept? timerTable = some (.data (.obj t) .full) →
    last.kept? timerTable = some (.data (.obj t) .full) ∧ last.obj t = w.obj t

theorem LeavesTimers.same (leaves : w.LeavesTimers last) : w.SameTimers last :=
  ⟨leaves.active,fun t kept => ⟨leaves.table.kept.trans kept,leaves.objects t t kept .table⟩⟩

theorem SameTimers.trans (first : w.SameTimers back) (rest : back.SameTimers last) : w.SameTimers last := by
  refine ⟨rest.active.trans first.active,fun t kept => ?_⟩
  obtain ⟨kept,same⟩ := first.table t kept
  obtain ⟨kept,same'⟩ := rest.table t kept
  exact ⟨kept,same'.trans same⟩

/-- The world as it was handed over with the last one of some answers. -/
def resumed (w : World) : List Answer → World
  | [] => w
  | (_,back) :: answers => back.resumed answers

theorem resumed_mem (w : World) (first rest : List Answer) :
    w.resumed first ∈ w :: (first ++ rest).map Prod.snd := by
  induction first generalizing w with
  | nil => exact List.mem_cons_self
  | cons answer first ih => exact List.mem_cons_of_mem _ (ih answer.2)

end World

/-- From one answer to the next question the computation leaves timers alone. -/
def Tree.Still (w : World) : Tree α → Prop
  | .ok _ last | .thrown _ last => w.Rests last
  | .ask _ last next => w.Rests last ∧ ∀ reply back, (next reply back).Still back

namespace Tree.Still

theorem after {t : Tree α} (still : t.Still back) (rests : w.Rests back) : t.Still w := by
  cases t with
  | ok | thrown => exact rests.trans still
  | ask q last next => exact ⟨rests.trans still.1,still.2⟩

theorem bind {t : Tree α} {f : α → World → Tree β} (still : t.Still w) (rest : ∀ a back, (f a back).Still back) :
    (t.bind f).Still w := by
  induction t generalizing w with
  | ok a last => exact (rest a last).after still
  | thrown e last => exact still
  | ask q last next ih => exact ⟨still.1,fun reply back => ih reply back (still.2 reply back)⟩

theorem settle {t : Tree α} {f : Except Thrown α → World → Tree β} (still : t.Still w)
    (rest : ∀ s back, (f s back).Still back) : (t.settle f).Still w := by
  induction t generalizing w with
  | ok a last | thrown e last => exact (rest _ last).after still
  | ask q last next ih => exact ⟨still.1,fun reply back => ih reply back (still.2 reply back)⟩

theorem rests {t : Tree α} {r : Except Thrown α} (still : t.Still w) (ends : t.Ends answers r last) :
    (w.resumed answers).Rests last := by
  induction ends generalizing w with
  | ok | thrown => exact still
  | ask rest ih => exact ih (still.2 _ _)

end Tree.Still

/-- Wherever it starts, the computation leaves timers alone between its questions. -/
def Still (m : M α) : Prop := ∀ w, (m w).Still w

section
variable {m : M α} {f : α → M β}

theorem still_pure (a : α) : Still (pure a) := fun w => .refl w

theorem still_look (f : World → α) : Still (look f) := fun w => .refl w

theorem still_throwNew (kind : ErrorKind) (text : String) : Still (throwNew kind text : M α) :=
  fun w => ⟨w.extends_alloc _,rfl⟩

theorem still_call (f this : Value) (args : Array Value) : Still (call f this args) := fun w => by
  refine ⟨.refl w,fun reply back => ?_⟩
  cases reply <;> exact .refl back

theorem Still.bind (still : Still m) (rest : ∀ a, Still (f a)) : Still (m >>= f) := fun w => by
  rw [M.bind_apply]
  exact (still w).bind fun a back => rest a back

theorem Still.outcome (still : Still m) : Still (outcome m) := fun w => (still w).settle fun _ back => .refl back

end

/-! ### Conversions -/

theorem still_isCallable (v : Value) : Still (isCallable v) := by
  cases v with
  | obj id => exact (still_look _).bind fun _ => still_pure _
  | _ => exact still_pure _

theorem still_proxyParts (id : Nat) : Still (proxyParts id) := by
  refine (still_look _).bind fun o => ?_
  split
  · exact still_pure _
  · exact still_throwNew _ _

theorem still_agree (target : Nat) (k : Key) (name : String) (agrees : Slot → Bool) : Still (agree target k name agrees) := by
  refine (still_look _).bind fun own => ?_
  split
  · exact still_pure _
  · exact still_throwNew _ _

theorem still_getOn (n id : Nat) (k : Key) (receiver : Value) : Still (getOn n id k receiver) := by
  induction n generalizing id k receiver with
  | zero => exact still_pure _
  | succ n ih =>
    unfold getOn
    refine (still_look _).bind fun found => ?_
    split
    · exact still_pure _
    · exact still_pure _
    · exact still_pure _
    · exact still_call _ _ _
    · split
      · exact still_pure _
      · refine (still_proxyParts _).bind fun parts => (ih _ _ _).bind fun trap => ?_
        split
        · exact ih _ _ _
        · exact (still_call _ _ _).bind fun _ => (still_agree _ _ _ _).bind fun _ => still_pure _

theorem still_getOf (v : Value) (k : Key) : Still (getOf v k) := by
  unfold getOf
  split
  · exact still_getOn _ _ _ _
  · split
    · split
      · exact still_pure _
      · exact still_getOn _ _ _ _
    · exact still_pure _
    · exact still_getOn _ _ _ _
  · split
    · exact still_getOn _ _ _ _
    · exact still_throwNew _ _

theorem still_methodOf (v : Value) (k : Key) : Still (methodOf v k) := by
  refine (still_getOf v k).bind fun f => ?_
  split
  · exact still_pure _
  · refine (still_isCallable f).bind fun callable => ?_
    split
    · exact still_pure _
    · exact still_throwNew _ _

theorem still_ordinaryPrimitive (v : Value) (names : List String) : Still (ordinaryPrimitive v names) := by
  induction names with
  | nil => exact still_throwNew _ _
  | cons name rest ih =>
    refine (still_getOf v _).bind fun f => (still_isCallable f).bind fun callable => ?_
    split
    · refine (still_call _ _ _).bind fun r => ?_
      split
      · exact still_pure _
      · exact ih
    · exact ih

theorem still_toPrimitive (v : Value) (hint : Hint) : Still (toPrimitive v hint) := by
  cases v with
  | obj id =>
    refine (still_methodOf _ _).bind fun f => ?_
    split
    · refine (still_call _ _ _).bind fun r => ?_
      split
      · exact still_pure _
      · exact still_throwNew _ _
    · exact still_ordinaryPrimitive _ _
  | _ => exact still_pure _

theorem still_toNumber (v : Value) : Still (toNumber v) := by
  have primitive : ∀ v, Still (primitiveNumber v) := fun v => by
    cases v with
    | big | sym | obj => exact still_throwNew _ _
    | _ => exact still_pure _
  cases v with
  | num x => exact still_pure _
  | _ => exact (still_toPrimitive _ _).bind primitive

theorem still_needArguments (args : Array Value) (n : Nat) : Still (needArguments args n) := by
  unfold needArguments
  split
  · exact still_throwNew _ _
  · exact still_pure _

theorem still_delayOf (v : Option Value) : Still (delayOf v) := by
  cases v with
  | none => exact still_pure _
  | some v => exact (still_toNumber v).bind fun _ => still_pure _

theorem still_handleOf (v : Option Value) : Still (handleOf v) := by
  cases v with
  | none => exact still_pure _
  | some v =>
    unfold handleOf
    dsimp only
    split
    · exact still_pure _
    · refine (still_toNumber v).outcome.bind fun r => ?_
      split <;> exact still_pure _

/-! ### Calls -/

section
variable {args : Array Value} {r : Except Thrown Value}

/-- A conversion is thrown out of, or gone on from. -/
theorem Still.ends {m : M α} {f : α → M β} {r : Except Thrown β} (still : Still m)
    (ends : ((m >>= f) w).Ends answers r last) :
    (∃ e, r = .error e ∧ (m w).Ends answers (.error e) last ∧ (w.resumed answers).Rests last) ∨
      ∃ first rest a middle, answers = first ++ rest ∧ (m w).Ends first (.ok a) middle ∧
        (w.resumed first).Rests middle ∧ (f a middle).Ends rest r last := by
  rw [M.bind_apply] at ends
  rcases Tree.ends_bind.mp ends with ⟨first,rest,a,middle,rfl,converted,after⟩ | ⟨e,rfl,thrown⟩
  · exact .inr ⟨first,rest,a,middle,rfl,converted,(still w).rests converted,after⟩
  · exact .inl ⟨e,rfl,thrown,(still w).rests thrown⟩

theorem Alone.silent {m : M α} {P : α → World → Prop} {Q : World → Prop} {r : Except Thrown α} (alone : Alone m w P Q)
    (ends : (m w).Ends answers r last) : answers = [] := by
  unfold Alone at alone
  cases step : m w with
  | ok | thrown =>
    rw [step] at ends
    cases ends
    rfl
  | ask q back next =>
    rw [step] at alone
    exact alone.elim

/-- The handle of a timer that is set is returned. -/
theorem ends_setTimer {f v : Value} {delay : Span} {repeating : Bool}
    (ends : (setTimer f delay args repeating w).Ends answers (.ok v) last) : v = .ofNat w.outside.timers.nextId := by
  unfold setTimer at ends
  obtain ⟨first,rest,callable,back,rfl,asked,ends⟩ := ends_bind_ok ends
  have same : back = w := by
    cases f <;> cases asked <;> rfl
  subst same
  cases callable with
  | false =>
    simp only [Bool.false_eq_true,if_false] at ends
    obtain ⟨_,_,_,_,-,-,ends⟩ := ends_bind_ok ends
    obtain ⟨_,_,_,_,-,thrown,-⟩ := ends_bind_ok ends
    cases thrown
  | true =>
    simp only [if_true] at ends
    obtain ⟨_,_,id,_,_,taken,ends⟩ := ends_bind_ok ends
    cases taken
    iterate 8 obtain ⟨_,_,_,_,-,-,ends⟩ := ends_bind_ok ends
    cases ends
    rfl

/-- The function sets a timer, and whether one that repeats. -/
def HostFn.sets : HostFn → Option Bool
  | .setTimeout | .setImmediate => some false
  | .setInterval => some true
  | _ => none

theorem Still.ends_setTimer {m : M α} {delay : α → Span} {f : Value} {repeating : Bool} (still : Still m)
    (tends : ∀ back ∈ w :: answers.map Prod.snd, ∃ t, back.Tends t)
    (ends : ((m >>= fun a => setTimer f (delay a) args repeating) w).Ends answers r last) :
    (∃ middle delay args, (w.resumed answers).Rests middle ∧ (setTimer f delay args repeating middle).Ends [] r last) ∨
      (∃ e, r = .error e) ∧ (w.resumed answers).Rests last := by
  rcases still.ends ends with ⟨e,rfl,-,rests⟩ | ⟨first,rest,a,middle,rfl,-,rests,ends⟩
  · exact .inr ⟨⟨e,rfl⟩,rests⟩
  · obtain ⟨t,tends⟩ := tends _ (w.resumed_mem first rest)
    obtain rfl : rest = [] := (setTimer_alone (tends.left (rests.leaves tends)) f _ args repeating).silent ends
    rw [List.append_nil]
    exact .inl ⟨middle,_,_,rests,ends⟩

/-- A call that sets a timer has set it after the last answer, or it has thrown something and left timers alone. -/
theorem ends_scheduling {f : HostFn} {repeating : Bool} (sets : f.sets = some repeating)
    (tends : ∀ back ∈ w :: answers.map Prod.snd, ∃ t, back.Tends t)
    (ends : (hostFunction f args w).Ends answers r last) :
    (∃ middle delay more, (w.resumed answers).Rests middle ∧
        (setTimer (argAt args 0) delay more repeating middle).Ends [] r last) ∨
      (∃ e, r = .error e) ∧ (w.resumed answers).Rests last := by
  have converts : Still (needArguments args 1 >>= fun _ => delayOf args[1]?) :=
    (still_needArguments args 1).bind fun _ => still_delayOf _
  cases f with
  | setTimeout =>
    cases sets
    rw [show hostFunction .setTimeout args = (needArguments args 1 >>= fun _ => delayOf args[1]?) >>= _ from
      (M.bind_assoc _ _ _).symm] at ends
    exact converts.ends_setTimer tends ends
  | setInterval =>
    cases sets
    rw [show hostFunction .setInterval args = (needArguments args 1 >>= fun _ => delayOf args[1]?) >>= _ from
      (M.bind_assoc _ _ _).symm] at ends
    exact converts.ends_setTimer tends ends
  | setImmediate =>
    cases sets
    exact (still_needArguments args 1).ends_setTimer tends ends
  | _ => cases sets

/-- A call that clears a handle throws nothing unless clearing does, and it clears the handle that its argument is after
    the last answer, if the argument is one. -/
theorem ends_clearing (tends : ∀ back ∈ w :: answers.map Prod.snd, ∃ t, back.Tends t)
    (ends : (hostFunction .clearTimer args w).Ends answers r last) :
    r = .ok .undefined ∧ ∃ handle first middle, (handleOf args[0]? w).Ends first (.ok handle) middle ∧
      (w.resumed answers).Rests middle ∧
      match handle with
      | some id => (clearTimer id middle).Ends [] (.ok ()) last
      | none => last = middle := by
  unfold hostFunction at ends
  rcases (still_handleOf args[0]?).ends ends with ⟨e,rfl,thrown,-⟩ | ⟨first,rest,handle,middle,rfl,converted,rests,ends⟩
  · obtain ⟨_,impossible,-⟩ := yields_handleOf _ _ _ _ _ thrown
    cases impossible
  · cases handle with
    | none =>
      cases ends
      rw [List.append_nil]
      exact ⟨rfl,none,first,_,converted,rests,rfl⟩
    | some id =>
      obtain ⟨t,tends⟩ := tends _ (w.resumed_mem first rest)
      have alone := clearTimer_alone (tends.left (rests.leaves tends)) id
      have ends : ((clearTimer id >>= fun _ => pure .undefined : M Value) middle).Ends rest r last := ends
      rw [M.bind_apply] at ends
      rcases Tree.ends_bind.mp ends with ⟨start,none,⟨⟩,back,rfl,cleared,returned⟩ | ⟨e,-,thrown⟩
      · cases returned
        obtain rfl := alone.silent cleared
        rw [List.append_nil,List.append_nil]
        exact ⟨rfl,some id,first,middle,converted,rests,cleared⟩
      · rcases alone.ends thrown with ⟨_,impossible,-⟩ | ⟨-,impossible⟩
        · cases impossible
        · exact impossible.elim

end

end ScriptHost.Engine
