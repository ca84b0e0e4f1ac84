import ScriptHost.Host.Step
import ScriptHost.Proofs.Engine.Answers
/-!
What becomes of an aborted script. The mark that an abort leaves is looked at where a program or a step that
follows its value has thrown something, and nowhere else: a result that is written as JSON, a rejection that is
told apart, an argument of the console and the handle of a timer may all run scripts, and an abort of these is
taken for something else that was thrown, or for nothing at all.
-/
namespace ScriptHost.Engine
variable {α β : Type}

/-- A failure that is not an interruption. -/
def Ordinary (e : Failure) : Prop := ∀ reason, e ≠ .interrupted reason

/-- An outcome that is not an interruption. -/
def Uninterrupted (r : Except Failure α) : Prop := ∀ e, r = .error e → Ordinary e

theorem uninterrupted_ok (a : α) : Uninterrupted (.ok a) := by
  intro e same
  cases same

theorem uninterrupted_error {e : Failure} (ordinary : Ordinary e) : Uninterrupted (.error e : Except Failure α) := by
  intro f same
  cases same
  exact ordinary

/-! ### Failures of things that were thrown -/

theorem yields_coerceText (v : Value) : Yields (coerceText v) fun _ => True := by
  refine (yields_outcome (toText v)).then fun r => ?_
  cases r with
  | ok s => exact yields_pure trivial
  | error t => exact yields_pure trivial

theorem yields_isError (v : Value) : Yields (isError v) fun _ => True := by
  cases v with
  | obj id => exact (yields_look _ fun _ => trivial).then fun o => yields_pure trivial
  | _ => exact yields_pure trivial

theorem yields_optionalText (id : Nat) (name : String) : Yields (optionalText id name) fun _ => True := by
  refine (yields_outcome _).then fun r => ?_
  cases r with
  | ok v =>
    refine (yields_coerceText v).then fun s => ?_
    cases s with
    | ok s => exact yields_pure trivial
    | error e => exact yields_pure trivial
  | error t => exact yields_pure trivial

theorem yields_textIfAny (id : Nat) (name : String) : Yields (textIfAny id name) fun _ => True := by
  refine (yields_outcome _).then fun r => ?_
  cases r with
  | ok v =>
    show Yields (if v.isNothing then pure "" else _) _
    split
    · exact yields_pure trivial
    · refine (yields_coerceText v).then fun s => ?_
      cases s with
      | ok s => exact yields_pure trivial
      | error e => exact yields_pure trivial
  | error t => exact yields_pure trivial

/-- A conversion that throws nothing is gone on with by what has come of it. -/
theorem yields_converted {m : M (Converted α)} {f : Converted α → M β} {P : β → Prop} (any : Yields m fun _ => True)
    (ok : ∀ a, Yields (f (.ok a)) P) (thrown : ∀ t, Yields (f (.error (.thrown t))) P)
    (wrong : ∀ text, Yields (f (.error (.wrong text))) P) : Yields (m >>= f) P := by
  refine any.then fun r => ?_
  rcases r with (t | text) | a
  · exact thrown t
  · exact wrong text
  · exact ok a

theorem yields_failureOf (v : Value) : Yields (failureOf v) Ordinary := by
  refine (yields_isError v).then fun known => ?_
  have text := yields_coerceText v
  cases v with
  | obj id =>
    cases known with
    | true =>
      refine (yields_optionalText id "name").then fun name => ?_
      refine (yields_textIfAny id "message").then fun text => ?_
      exact (yields_textIfAny id "stack").then fun stack => yields_pure nofun
    | false => refine yields_converted text ?_ ?_ ?_ <;> exact fun _ => yields_pure nofun
  | _ => refine yields_converted text ?_ ?_ ?_ <;> exact fun _ => yields_pure nofun

/-- The mark of an abort stays when the abort is made a value. -/
theorem caught_ends (t : Thrown) (w : World) : ∃ v back, caught t w = .ok v back ∧ back.outside = w.outside := by
  cases t with
  | value v | leave v => exact ⟨v,w,rfl,rfl⟩
  | abort => exact ⟨_,_,rfl,rfl⟩

theorem yields_caught (t : Thrown) : Yields (caught t) fun _ => True := by
  intro w answers r last ends
  obtain ⟨v,back,same,-⟩ := caught_ends t w
  rw [same] at ends
  cases ends
  exact ⟨v,rfl,trivial⟩

/-- A conversion whose failure is not looked at is never interrupted. -/
theorem ordinary_failure (e : ConversionFailure) : Ordinary e.failure := by
  cases e <;> exact nofun

/-- Something thrown is an interruption just if the mark of an abort is set. -/
theorem ends_convertThrown {t : Thrown} {w last : World} {answers : List Answer} {r : Except Thrown Failure}
    (ends : (convertThrown t w).Ends answers r last) : ∃ e, r = .ok e ∧
      ∀ reason, e = .interrupted reason ↔ w.outside.interrupt.takeFired.1 = some reason := by
  obtain ⟨v,back,same,outside⟩ := caught_ends t w
  rw [← outside]
  obtain ⟨left,taken⟩ : ∃ left, takeFired back = .ok back.outside.interrupt.takeFired.1 left := ⟨_,rfl⟩
  unfold convertThrown at ends
  rw [M.bind_of_ok same,M.bind_of_ok taken] at ends
  cases mark : back.outside.interrupt.takeFired.1 with
  | some reason =>
    rw [mark] at ends
    cases ends
    refine ⟨_,rfl,fun other => ?_⟩
    simp
  | none =>
    rw [mark] at ends
    obtain ⟨e,same,ordinary⟩ := yields_failureOf v _ _ _ _ ends
    exact ⟨e,same,fun reason => ⟨fun equal => absurd equal (ordinary reason),nofun⟩⟩

/-! ### Steps of programs -/

/-- A step has thrown something. -/
def Threw (s : Except Thrown (Converted α)) : Prop := ∃ t, s = .error t ∨ s = .ok (.error (.thrown t))

theorem yields_plainly (m : M (Converted α)) : Yields (plainly m) Uninterrupted := by
  refine (yields_outcome m).then fun r => ?_
  rcases r with t | e | a
  · exact yields_pure (uninterrupted_error (ordinary_failure _))
  · exact yields_pure (uninterrupted_error (ordinary_failure e))
  · exact yields_pure (uninterrupted_ok a)

/-- A step that is looked at is interrupted just if it threw something and the mark of an abort was set then. -/
theorem ends_lookingAt {m : M (Converted α)} {w last : World} {answers : List Answer}
    {r : Except Thrown (Except Failure α)} (ends : (lookingAt m w).Ends answers r last) :
    ∃ first rest s back, answers = first ++ rest ∧ (m w).Ends first s back ∧ ∃ result, r = .ok result ∧
      ∀ reason, result = .error (.interrupted reason) ↔
        Threw s ∧ back.outside.interrupt.takeFired.1 = some reason := by
  obtain ⟨first,rest,s,back,split,before,after⟩ := ends_outcome ends
  refine ⟨first,rest,s,back,split,before,?_⟩
  -- What was thrown is converted, and a failure that is not about something thrown is one of the engine.
  have threw : ∀ t, ((do return .error (← convertThrown t) : M (Except Failure α)) back).Ends rest r last → Threw s →
      ∃ result, r = .ok result ∧ ∀ reason, result = .error (.interrupted reason) ↔
        Threw s ∧ back.outside.interrupt.takeFired.1 = some reason := by
    intro t after threw
    rw [M.bind_apply] at after
    rcases Tree.ends_bind.mp after with ⟨first,rest,e,middle,-,converted,after⟩ | ⟨e,-,thrown⟩
    · obtain ⟨f,same,interrupted⟩ := ends_convertThrown converted
      cases same
      cases after
      refine ⟨_,rfl,fun reason => ?_⟩
      simp [interrupted reason,threw]
    · obtain ⟨f,same,-⟩ := ends_convertThrown thrown
      cases same
  rcases s with t | (t | text) | a
  · exact threw t after ⟨t,.inl rfl⟩
  · exact threw t after ⟨t,.inr rfl⟩
  · cases after
    exact ⟨_,rfl,fun reason => by simp [Threw]⟩
  · cases after
    exact ⟨_,rfl,fun reason => by simp [Threw]⟩

theorem ends_sure {m : M α} {w back : World} {answers : List Answer} {s : Except Thrown (Converted α)}
    (ends : (sure m w).Ends answers s back) :
    ∃ s', (m w).Ends answers s' back ∧ (Threw s ↔ ∃ t, s' = .error t) := by
  unfold sure at ends
  rw [M.bind_apply] at ends
  rcases Tree.ends_bind.mp ends with ⟨first,rest,a,middle,rfl,before,after⟩ | ⟨e,rfl,thrown⟩
  · cases after
    exact ⟨.ok a,by simpa using before,by simp [Threw]⟩
  · exact ⟨.error e,thrown,by simp [Threw]⟩

theorem Yields.andThen {m : M (Except Failure α)} {f : α → M (Except Failure β)} {P : Except Failure β → Prop}
    (first : Yields m Uninterrupted) (rest : ∀ a, Yields (f a) P) (errors : ∀ e, Ordinary e → P (.error e)) :
    Yields (Engine.andThen m f) P := by
  refine Yields.bind first fun r ordinary => ?_
  cases r with
  | ok a => exact rest a
  | error e => exact yields_pure (errors e (ordinary e rfl))

/-! ### Results and rejections -/

theorem yields_displayText (v : Value) : Yields (displayText v) Uninterrupted := by
  refine (yields_coerceText v).then fun r => ?_
  cases r with
  | ok s => exact yields_pure (uninterrupted_ok s)
  | error e => exact yields_pure (uninterrupted_error (ordinary_failure e))

theorem yields_isCallable (v : Value) : Yields (isCallable v) fun _ => True := by
  cases v with
  | obj id => exact (yields_look _ fun _ => trivial).then fun o => yields_pure trivial
  | _ => exact yields_pure trivial

theorem yields_kindName (v : Value) : Yields (kindName v) fun _ => True := by
  cases v with
  | obj id => exact (yields_look _ fun _ => trivial).then fun o => yields_pure trivial
  | _ => exact yields_pure trivial

theorem uninterrupted_readExport (text : String) : Uninterrupted (readExport text) := by
  unfold readExport
  split
  · exact uninterrupted_ok _
  · exact uninterrupted_error nofun

/-- A result that a script writes as JSON is never interrupted. -/
theorem yields_exportJson (v : Value) : Yields (exportJson v) Uninterrupted := by
  have nothing : Yields (pure (.ok .null) : M (Except Failure Json)) Uninterrupted := yields_pure (uninterrupted_ok _)
  cases v with
  | undefined | sym id | absent => exact nothing
  | big n =>
    refine (yields_displayText _).bind fun r ordinary => ?_
    cases r with
    | ok s => exact yields_pure (uninterrupted_ok _)
    | error e => exact yields_pure (uninterrupted_error (ordinary e rfl))
  | _ =>
    refine (yields_isCallable _).then fun callable => ?_
    cases callable with
    | true => exact nothing
    | false =>
      refine (yields_outcome _).then fun r => ?_
      rcases r with t | v
      · refine (yields_caught t).then fun v => ?_
        exact (yields_failureOf v).bind fun e ordinary => yields_pure (uninterrupted_error ordinary)
      · cases v with
        | str text =>
          dsimp only
          cases asText text with
          | ok text => exact yields_pure (uninterrupted_readExport text)
          | error e => exact yields_pure (uninterrupted_error (ordinary_failure e))
        | _ => exact nothing

/-- A rejection is never told to be an interruption. -/
theorem yields_classifyRejection (v : Value) : Yields (classifyRejection v) Ordinary := by
  refine (yields_isError v).then fun known => ?_
  cases known with
  | true => exact yields_failureOf v
  | false =>
    refine (yields_kindName v).then fun kind => ?_
    refine (yields_displayText v).bind fun r ordinary => ?_
    cases r with
    | error e => exact yields_pure (ordinary e rfl)
    | ok text =>
      refine yields_pure fun reason => ?_
      split <;> exact nofun

/-- Neither a look at a state object nor what it says is an interruption. -/
def Undisturbed (r : Except Failure (Option (Except Failure Json))) : Prop :=
  Uninterrupted r ∧ ∀ o, r = .ok (some o) → Uninterrupted o

theorem undisturbed_error {e : Failure} (ordinary : Ordinary e) : Undisturbed (.error e) := by
  refine ⟨uninterrupted_error ordinary,fun o same => ?_⟩
  cases same

theorem undisturbed_none : Undisturbed (.ok none) := by
  refine ⟨uninterrupted_ok _,fun o same => ?_⟩
  cases same

theorem undisturbed_some {o : Except Failure Json} (ordinary : Uninterrupted o) : Undisturbed (.ok (some o)) := by
  refine ⟨uninterrupted_ok _,fun o' same => ?_⟩
  cases same
  exact ordinary

theorem yields_lookAt (stateName : String) : Yields (lookAt stateName) Undisturbed := by
  have errors : ∀ e, Ordinary e → Undisturbed (.error e) := fun e => undisturbed_error
  refine (yields_plainly _).andThen (fun state => ?_) errors
  refine (yields_plainly _).andThen (fun done => ?_) errors
  cases done with
  | false => exact yields_pure undisturbed_none
  | true =>
    refine (yields_plainly _).andThen (fun rejected => ?_) errors
    cases rejected with
    | true =>
      refine (yields_plainly _).andThen (fun e => ?_) errors
      exact (yields_classifyRejection e).bind fun f ordinary => yields_pure (undisturbed_some (uninterrupted_error ordinary))
    | false =>
      refine (yields_plainly _).andThen (fun v => ?_) errors
      exact (yields_exportJson v).bind fun o ordinary => yields_pure (undisturbed_some ordinary)

/-- What a state object says is no interruption, and neither is a failure to look at it. -/
theorem yields_outcomeAt (stateName : String) : Yields (outcomeAt stateName) fun r => ∀ o, r = some o → Uninterrupted o := by
  refine (yields_lookAt stateName).bind fun r undisturbed => ?_
  cases r with
  | ok o => exact yields_pure fun s same => undisturbed.2 s (congrArg Except.ok same)
  | error e =>
    refine yields_pure fun o same => ?_
    cases same
    exact uninterrupted_error (undisturbed.1 e rfl)

/-! ### The console and timers -/

theorem yields_consoleText (v : Value) : Yields (consoleText v) fun _ => True := by
  refine (yields_isCallable v).then fun callable => ?_
  split
  case isTrue plain =>
    refine (yields_outcome _).then fun r => ?_
    split
    all_goals
      refine Yields.then (yields_pure trivial) fun json => ?_
      cases json with
      | some text => exact yields_pure trivial
      | none => refine yields_converted (yields_coerceText v) ?_ ?_ ?_ <;> exact fun _ => yields_pure trivial
  case isFalse other => refine yields_converted (yields_coerceText v) ?_ ?_ ?_ <;> exact fun _ => yields_pure trivial

theorem yields_mapM {f : α → M β} (each : ∀ a, Yields (f a) fun _ => True) (l : List α) :
    Yields (l.mapM f) fun _ => True := by
  have loop : ∀ l done, Yields (List.mapM.loop f l done) fun _ => True := by
    intro l
    induction l with
    | nil => exact fun done => yields_pure trivial
    | cons a rest ih => exact fun done => (each a).then fun b => ih (b :: done)
  exact loop l []

/-- A line of the console is written, whatever becomes of its parts. -/
theorem yields_writeLine (method : ConsoleMethod) (args : Array Value) :
    Yields (writeLine method args) (· = .undefined) := by
  refine (yields_mapM yields_consoleText _).then fun parts => ?_
  exact (yields_update (fun w => ((),_)) fun _ => trivial).then fun done => yields_pure rfl

/-- A handle is looked for, whatever becomes of the script that is asked for it. -/
theorem yields_handleOf (v : Option Value) : Yields (handleOf v) fun _ => True := by
  cases v with
  | none => exact yields_pure trivial
  | some v =>
    show Yields (if v.isNothing then pure none else _) _
    split
    · exact yields_pure trivial
    · refine (yields_outcome (toNumber v)).then fun r => ?_
      cases r with
      | ok x => exact yields_pure trivial
      | error t => exact yields_pure trivial

/-! ### Where an abort is reported -/

/-- A script that asks whether it may go on is aborted just if that was requested, and then the mark is set with
    the reason of the request in the world that it goes on in. -/
theorem asking_marks {τ : Type} (h : Host τ) (m : Machine) (next : Bool → World → Current (Work τ))
    (hooks : Option (List (Work τ))) :
    let i := h.scheduler.interruptOf m.world.outside.generation
    ∃ h' : Host τ, h.stepActivity m ⟨.asking next,hooks⟩ = h'.compute m hooks (next !i.requested) ∧
      (i.requested = true → (h'.lend m.world).outside.interrupt.takeFired.1 = some (i.reason.getD "interrupted")) := by
  intro i
  refine ⟨_,rfl,fun requested => ?_⟩
  have found : h.scheduler.interrupts[m.world.outside.generation]? = some i := by
    cases known : h.scheduler.interrupts[m.world.outside.generation]? with
    | none =>
      have empty : i = {} := by simp [i,Scheduler.interruptOf,known]
      rw [empty] at requested
      cases requested
    | some j => simp [i,Scheduler.interruptOf,known]
  simp [Host.lend,Host.outside,Scheduler.interruptOf,Scheduler.changeInterrupt,Array.getElem?_modify,found,
    Interrupt.takeFired,requested]

/-- What an operation is told of an abort, by a machine on which so many calls may be under way at once. -/
structure Reporting (limit : Nat) : Prop where
  /-- A script is aborted just if that was requested, and then the mark is set with the reason of the request. -/
  mark : ∀ {τ : Type} (h : Host τ) (m : Machine) next hooks,
    let i := h.scheduler.interruptOf m.world.outside.generation
    ∃ h' : Host τ, h.stepActivity m ⟨.asking next,hooks⟩ = h'.compute m hooks (next !i.requested) ∧
      (i.requested = true → (h'.lend m.world).outside.interrupt.takeFired.1 = some (i.reason.getD "interrupted"))
  /-- A program, or a step that hands its value on, is interrupted just if it threw something while the mark of
      an abort was set, and then for the reason that was requested. -/
  step : ∀ {α : Type} (m : M (Converted α)) w parked r last, Comes limit (.outer (lookingAt m w)) parked r last →
    ∃ answers s back result, (m w).Ends answers s back ∧ r = .ok result ∧
      ∀ reason, result = .error (.interrupted reason) ↔ Threw s ∧ back.outside.interrupt.takeFired.1 = some reason
  program : ∀ name (p : Program) w parked r last, Comes limit (.outer (evaluateInto name p w)) parked r last →
    ∃ answers s back result, (Builtin.runText (Text.ofString p.source) false w).Ends answers s back ∧ r = .ok result ∧
      ∀ reason, result = .error (.interrupted reason) ↔
        (∃ t, s = .error t) ∧ back.outside.interrupt.takeFired.1 = some reason
  /-- An outcome is never interrupted, whatever the scripts come to that are run to read it. -/
  outcome : ∀ stateName w parked r last, Comes limit (.outer (outcomeAt stateName w)) parked r last →
    ∃ result, r = .ok result ∧ ∀ o, result = some o → Uninterrupted o
  /-- The console and timers go on as if nothing had happened. -/
  console : ∀ method args w parked r last, Comes limit (.outer (writeLine method args w)) parked r last →
    r = .ok .undefined
  handle : ∀ v w parked r last, Comes limit (.outer (handleOf v w)) parked r last → ∃ id, r = .ok id

theorem Yields.comes {m : M α} {P : α → Prop} {limit : Nat} {w last : World} {parked : Parked} {r : Except Thrown α}
    (yields : Yields m P) (comes : Comes limit (.outer (m w)) parked r last) : ∃ a, r = .ok a ∧ P a := by
  obtain ⟨answers,ends⟩ := comes.ends
  exact yields w answers r last ends

theorem reporting (limit : Nat) : Reporting limit := by
  constructor
  case mark => exact asking_marks
  case step =>
    intro α m w parked r last comes
    obtain ⟨answers,ends⟩ := comes.ends
    obtain ⟨first,rest,s,back,-,before,result,same,law⟩ := ends_lookingAt ends
    exact ⟨first,s,back,result,before,same,law⟩
  case program =>
    intro name p w parked r last comes
    obtain ⟨answers,ends⟩ := comes.ends
    unfold evaluateInto andThen at ends
    rw [M.bind_apply] at ends
    rcases Tree.ends_bind.mp ends with ⟨first,rest,outcome,middle,-,before,after⟩ | ⟨e,-,thrown⟩
    · obtain ⟨start,-,s,back,-,ran,result,same,law⟩ := ends_lookingAt before
      cases same
      obtain ⟨s',ran,threw⟩ := ends_sure ran
      cases outcome with
      | ok v =>
        obtain ⟨result,same,ordinary⟩ := yields_plainly _ _ _ _ _ after
        refine ⟨start,s',back,result,ran,same,fun reason => ⟨fun equal => ?_,fun fired => ?_⟩⟩
        · exact absurd rfl (ordinary _ equal reason)
        · cases (law reason).mpr ⟨threw.mpr fired.1,fired.2⟩
      | error e =>
        cases after
        refine ⟨start,s',back,_,ran,rfl,fun reason => ?_⟩
        rw [← threw,← law reason]
        simp
    · obtain ⟨-,-,-,-,-,-,result,same,-⟩ := ends_lookingAt thrown
      cases same
  case outcome => exact fun stateName w parked r last comes => (yields_outcomeAt stateName).comes comes
  case console =>
    intro method args w parked r last comes
    obtain ⟨v,same,rfl⟩ := (yields_writeLine method args).comes comes
    exact same
  case handle =>
    intro v w parked r last comes
    obtain ⟨id,same,-⟩ := (yields_handleOf v).comes comes
    exact ⟨id,same⟩

/-! ### An abort that is not reported -/

/-- A run goes on after a pause with an abort, in the world with the mark of it. -/
def Run.abort (limit fuel : Nat) (mark : World → World) : Run α → Run α
  | .asks w parked next => runFor limit fuel (next false (mark w)) parked
  | .ended r last left => .ended r last left

theorem Comes.aborted {limit first later : Nat} {mark : World → World} {c : Current α} {parked left : Parked}
    {r : Except Thrown α} {last : World}
    (run : (runFor limit first c parked).abort limit later mark = .ended r last left) : Comes limit c parked r last := by
  cases start : runFor limit first c parked with
  | ended s w back =>
    rw [start] at run
    cases run
    exact .ended start
  | asks w back next =>
    rw [start] at run
    have rest : runFor limit later (next false (mark w)) back = .ended r last left := run
    exact .asks false (mark w) start (.ended rest)

/-- The text of a failure of the engine that a step ended with, and the mark of an abort that is left. -/
def Run.engineTold : Run (Except Failure α) → Option (String × Option String)
  | .ended (.ok (.error (.engine text))) last _ => some (text,last.outside.interrupt.takeFired.1)
  | _ => none

theorem Run.ended_of_told {run : Run (Except Failure α)} {text : String} {mark : Option String}
    (told : run.engineTold = some (text,mark)) :
    ∃ last left, run = .ended (.ok (.error (.engine text))) last left ∧ last.outside.interrupt.takeFired.1 = mark := by
  unfold Run.engineTold at told
  split at told
  · next text last left =>
    cases told
    exact ⟨last,left,rfl,rfl⟩
  · cases told

/-- A world with an object that has a getter for its `toString`. The next call is one that asks whether it may go on. -/
def guarded : World := { (default : World) with
  heap := #[{ proto := .null, props := Table.insert {} (.text "toString") (.accessor (.obj 1) .undefined .full) },
            { proto := .null, kind := .native (.host .modules) #[] false }] }

/-- The world after an abort that was requested for a reason. -/
def World.abortedFor (reason : String) (w : World) : World :=
  { w with outside.interrupt := { fired := true, reason := some reason } }

/-- A program throws an object whose text cannot be read because its getter is aborted: the failure is one of the
    engine, and the mark of the abort is still set. -/
theorem abort_reported_as_engine : ∃ last,
    Comes 10 (.outer (lookingAt (raise (.value (.obj 0)) : M (Converted Unit)) guarded)) ∅
      (.ok (.error (.engine "failed to stringify exception: Exception generated by QuickJS"))) last ∧
    last.outside.interrupt.takeFired.1 = some "enough" := by
  have told : ((runFor 10 20 (.outer (lookingAt (raise (.value (.obj 0)) : M (Converted Unit)) guarded)) ∅).abort 10 20
      (World.abortedFor "enough")).engineTold =
      some ("failed to stringify exception: Exception generated by QuickJS",some "enough") := by decide +kernel
  obtain ⟨last,left,run,mark⟩ := Run.ended_of_told told
  exact ⟨last,.aborted run,mark⟩

end ScriptHost.Engine
