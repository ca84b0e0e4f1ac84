import ScriptHost.Proofs.Evaluation.Course
import ScriptHost.Proofs.Evaluation.Following
/-!
Where errands stand. A job is a tree whose branches are functions, so one cannot see where it stands by looking
at it. But there are only a few places that an errand comes to, from its first computation to the announcement of
what it has offered, and which one comes next is known from what it has computed or found on the desk (`Standing.Goes`).
-/
namespace ScriptHost
open Engine (World Answer Thrown)
variable {τ : Type}

/-- Errands of a follower come in this order. -/
def Errand.rank : Errand → Nat
  | .script => 0
  | .follow _ => 1
  | .look => 2
  | .clean _ => 3

/-- The envelope of an errand. -/
def Plan.envelope (c : Plan) (n : Nat) (x : Errand) : Envelope (Work τ) := ⟨n,c.generation,.job (x.job c)⟩

/-! ### Evaluations -/

namespace Evaluation

/-- What becomes of an evaluation as time goes by: an outcome that was offered is kept, and if the script has had a
    value since then it is kept under this name. -/
structure Later (valueName : String) (e e' : Evaluation) : Prop where
  generation : e'.generation = e.generation
  script : ∀ r, e.script.slot = some r → e'.script.slot = some r
  value : ∀ v, e'.script.slot = some (.ok v) → e.script.slot = some (.ok v) ∨ v = valueName
  honest : e.script.Honest → e'.script.Honest
  outcome : e.outcome.Stays e'.outcome

variable {valueName : String} {e : Evaluation}

theorem Later.refl (valueName : String) (e : Evaluation) : e.Later valueName e :=
  ⟨rfl,fun _ => id,fun _ => .inl,id,.refl _⟩

theorem later_cancelScript : e.Later valueName { e with script := e.script.cancel } :=
  ⟨rfl,fun _ => id,fun _ => .inl,fun honest => honest.cancel,.refl _⟩

theorem later_announceScript (full : e.script.slot.isSome = true) :
    e.Later valueName { e with script := e.script.announce } :=
  ⟨rfl,fun _ => id,fun _ => .inl,fun _ => (Completion.kept_announce full : e.script.announce.Kept False).honest,.refl _⟩

theorem later_outcome {c : Completion Json} (stays : e.outcome.Stays c) : e.Later valueName { e with outcome := c } :=
  ⟨rfl,fun _ => id,fun _ => .inl,id,stays⟩

/-- What came of the script is offered. -/
theorem later_offerScript {r : Except Failure String} (own : ∀ v, r = .ok v → v = valueName) :
    e.Later valueName { e with script := (e.script.offer r).2 } := by
  cases empty : e.script.slot with
  | some s =>
    have same : (e.script.offer r).2 = e.script := by simp [Completion.offer,empty]
    rw [same]
    exact .refl valueName e
  | none =>
    have taken : (e.script.offer r).2.slot = some r := by simp [Completion.offer,empty]
    refine ⟨rfl,fun s full => ?_,fun v value => .inr (own v ?_),fun honest => (honest.offer rfl).1.honest,.refl _⟩
    · cases empty.symm.trans full
    · exact Option.some.inj (taken.symm.trans value)

/-- The watcher of the script goes on. -/
theorem later_watchScript {c : Completion String} {signal : Signal} (next : c ∈ e.script.watchNext signal) :
    e.Later valueName { e with script := c } := by
  have kept := Completion.slot_watchNext next
  refine ⟨rfl,fun r full => ?_,fun v value => ?_,fun honest => (honest.watch next).1.honest,.refl _⟩
  · rcases kept with same | ⟨empty,-⟩
    · exact same.trans full
    · cases empty.symm.trans full
  · rcases kept with same | ⟨-,failed⟩
    · exact .inl (same.symm.trans value)
    · cases failed.symm.trans value

theorem later_watchOutcome {c : Completion Json} {signal : Signal} (next : c ∈ e.outcome.watchNext signal) :
    e.Later valueName { e with outcome := c } :=
  later_outcome (Completion.stays_watch next)

end Evaluation

/-! ### Places -/

/-- Where an errand stands. -/
inductive Standing where
  /-- Before its first computation. -/
  | fresh (x : Errand)
  /-- The program has come to its end, and what came of it is to be offered. -/
  | offersScript (r : Except Failure Unit)
  | announcesScript
  /-- Nobody waits for the value of the program any more, and it is to be kept no longer. -/
  | drops
  /-- An outcome is to be offered. -/
  | offers (x : Errand) (r : Except Failure Json)
  | announces (x : Errand)
  | ended (x : Errand)

namespace Standing

/-- The errand that stands there. -/
def errand : Standing → Errand
  | .fresh x | .offers x _ | .announces x | .ended x => x
  | .offersScript _ | .announcesScript | .drops => .script

def isFresh : Standing → Bool
  | .fresh _ => true
  | _ => false

def isOver : Standing → Bool
  | .ended _ => true
  | _ => false

/-- What is left to do. -/
def rest (c : Plan) : Standing → Work τ
  | .fresh x => x.job c
  | .offersScript r => Evaluation.offeringScript c.number c.valueName r
  | .announcesScript => .put (·.announceScript c.number) .done
  | .drops => .compute (Engine.dropGlobal c.valueName) fun () => .done
  | .offers _ r => Evaluation.offering c.number (some r)
  | .announces _ => .put (·.announceOutcome c.number) .done
  | .ended _ => .done

def doing (c : Plan) (s : Standing) : Doing τ := ⟨s.errand,s.rest c,!s.isFresh⟩

/-- Where a look at the outcome leads. -/
def told (x : Errand) : Option (Except Failure Json) → Standing
  | some r => .offers x r
  | none => .ended x

/-- Where a computation leads. -/
def landed {α : Type} (x : Errand) (next : α → Standing) : Except Thrown α → Standing
  | .ok a => next a
  | .error _ => .ended x

/-- Where the offer of what came of the script leads. -/
def offered (taken : Bool) (r : Except Failure Unit) : Standing :=
  match taken, r with
  | true, _ => .announcesScript
  | false, .ok () => .drops
  | false, .error _ => .ended .script

variable {c : Plan} {w last : World} {desk desk' : Desk τ} {t : Turn τ} {s s' : Standing}

theorem isOver_of_rest {r : Except Failure Unit} (ended : (s.rest c : Work τ) = .ended r) : s.isOver = true := by
  cases s with
  | ended x => rfl
  | fresh x => cases x <;> cases ended
  | _ => cases ended

/-- An errand takes a step, from a world and a desk to others. -/
inductive Goes (c : Plan) (w : World) (desk : Desk τ) : Turn τ → Standing → Standing → World → Desk τ → Prop where
  | evaluate {answers : List Answer} {r : Except Thrown (Except Failure Unit)} {k : Except Thrown (Work τ)} {last : World}
      (ends : (Engine.evaluateInto c.valueName c.program w).Ends answers r last) :
    Goes c w desk (.compute answers k last) (.fresh .script) (landed .script .offersScript r) last desk
  | follow {v : String} {answers : List Answer} {r : Except Thrown (Option (Except Failure Json))}
      {k : Except Thrown (Work τ)} {last : World} (ends : (Engine.followAt v c.stateName w).Ends answers r last) :
    Goes c w desk (.compute answers k last) (.fresh (.follow v)) (landed (.follow v) (told (.follow v)) r) last desk
  | look {answers : List Answer} {r : Except Thrown (Option (Except Failure Json))} {k : Except Thrown (Work τ)}
      {last : World} (ends : (Engine.outcomeAt c.stateName w).Ends answers r last) :
    Goes c w desk (.compute answers k last) (.fresh .look) (landed .look (told .look) r) last desk
  | clean {value : Option String} {answers : List Answer} {r : Except Thrown Unit} {k : Except Thrown (Work τ)}
      {last : World} (ends : (Engine.dropKept c.stateName value w).Ends answers r last) :
    Goes c w desk (.compute answers k last) (.fresh (.clean value)) (.ended (.clean value)) last desk
  | drop {answers : List Answer} {r : Except Thrown Unit} {k : Except Thrown (Work τ)} {last : World}
      (ends : (Engine.dropGlobal c.valueName w).Ends answers r last) :
    Goes c w desk (.compute answers k last) .drops (.ended .script) last desk
  | offerScript (r : Except Failure Unit) :
    Goes c w desk .share (.offersScript r) (offered (desk.offerScript c.number (r.map fun () => c.valueName)).1 r) w
      (desk.offerScript c.number (r.map fun () => c.valueName)).2
  | announceScript : Goes c w desk .share .announcesScript (.ended .script) w (desk.announceScript c.number)
  | offer (x : Errand) (r : Except Failure Json) :
    Goes c w desk .share (.offers x r) (if (desk.offerOutcome c.number r).1 then .announces x else .ended x) w
      (desk.offerOutcome c.number r).2
  | announce (x : Errand) : Goes c w desk .share (.announces x) (.ended x) w (desk.announceOutcome c.number)

theorem errand_landed {α : Type} {x : Errand} {next : α → Standing} (same : ∀ a, (next a).errand = x)
    (r : Except Thrown α) : (landed x next r).errand = x := by
  cases r with
  | ok a => exact same a
  | error t => rfl

theorem isFresh_landed {α : Type} {x : Errand} {next : α → Standing} (old : ∀ a, (next a).isFresh = false)
    (r : Except Thrown α) : (landed x next r).isFresh = false := by
  cases r with
  | ok a => exact old a
  | error t => rfl

theorem errand_told (x : Errand) (r : Option (Except Failure Json)) : (told x r).errand = x := by
  cases r <;> rfl

theorem isFresh_told (x : Errand) (r : Option (Except Failure Json)) : (told x r).isFresh = false := by
  cases r <;> rfl

/-- What came of the script is offered: it is the outcome now, or there has been one before. -/
theorem offerScript_slot {r : Except Failure Unit} {e e' : Evaluation} (found : desk.evaluations[c.number]? = some e)
    (found' : (desk.offerScript c.number (r.map fun () => c.valueName)).2.evaluations[c.number]? = some e') :
    (desk.offerScript c.number (r.map fun () => c.valueName)).1 = true ∧ e.script.slot = none ∧
        e'.script.slot = some (r.map fun () => c.valueName) ∨
      (desk.offerScript c.number (r.map fun () => c.valueName)).1 = false ∧ e.script.slot.isSome = true := by
  have same : e' = { e with script := (e.script.offer (r.map fun () => c.valueName)).2 } := by
    have here := (Desk.puts_change found fun e' =>
      { e' with script := ((desk.evaluation c.number).script.offer (r.map fun () => c.valueName)).2 }).here
    rw [Desk.evaluation_eq found] at here
    simp only [Desk.offerScript,Desk.evaluation_eq found] at found'
    exact Option.some.inj (found'.symm.trans here)
  simp only [same,Desk.offerScript,Desk.evaluation_eq found]
  cases empty : e.script.slot with
  | none => simp [Completion.offer,empty]
  | some s => simp [Completion.offer,empty]

/-- Once an outcome was offered there is one. -/
theorem offerOutcome_slot {r : Except Failure Json} {e e' : Evaluation} (found : desk.evaluations[c.number]? = some e)
    (found' : (desk.offerOutcome c.number r).2.evaluations[c.number]? = some e') : e'.outcome.slot.isSome = true := by
  have here := (Desk.puts_change found fun e' => { e' with outcome := ((desk.evaluation c.number).outcome.offer r).2 }).here
  simp only [Desk.offerOutcome] at found'
  rw [Option.some.inj (found'.symm.trans here),Desk.evaluation_eq found]
  cases empty : e.outcome.slot with
  | none => simp [Completion.offer,empty]
  | some s => simp [Completion.offer,empty]

namespace Goes

theorem errand (goes : Goes c w desk t s s' last desk') : s'.errand = s.errand := by
  cases goes with
  | evaluate ends => exact errand_landed (x := .script) (fun _ => rfl) _
  | follow ends | look ends => exact errand_landed (errand_told _) _
  | clean ends | drop ends | announceScript | announce x => rfl
  | offerScript r =>
    unfold offered
    split <;> rfl
  | offer x r => split <;> rfl

theorem isFresh (goes : Goes c w desk t s s' last desk') : s'.isFresh = false := by
  cases goes with
  | evaluate ends => exact isFresh_landed (fun _ => rfl) _
  | follow ends | look ends => exact isFresh_landed (isFresh_told _) _
  | clean ends | drop ends | announceScript | announce x => rfl
  | offerScript r =>
    unfold offered
    split <;> rfl
  | offer x r => split <;> rfl

/-- What came of the script is announced only if it was taken. -/
theorem taken {e e' : Evaluation} (goes : Goes c w desk t s s' last desk') (found : desk.evaluations[c.number]? = some e)
    (found' : desk'.evaluations[c.number]? = some e') (announces : s' = .announcesScript) :
    e'.script.slot.isSome = true := by
  cases goes with
  | @evaluate answers r => cases r <;> cases announces
  | @follow v answers r | @look answers r =>
    cases r with
    | ok r => cases r <;> cases announces
    | error t => cases announces
  | clean ends | drop ends | announceScript | announce x => cases announces
  | offerScript r =>
    rcases offerScript_slot found found' with ⟨-,-,full⟩ | ⟨refused,-⟩
    · rw [full]
      rfl
    · rw [refused] at announces
      cases r <;> cases announces
  | offer x r =>
    split at announces <;> cases announces

theorem started (goes : Goes c w desk .share s s' last desk') : s.isFresh = false := by
  cases goes <;> rfl

/-- What an errand does to its evaluation. -/
theorem later {e : Evaluation} (goes : Goes c w desk t s s' last desk') (found : desk.evaluations[c.number]? = some e)
    (taken : s = .announcesScript → e.script.slot.isSome = true) :
    ∃ e', desk'.evaluations[c.number]? = some e' ∧ e.Later c.valueName e' := by
  have changed : ∀ f : Evaluation → Evaluation, (desk.change c.number f).evaluations[c.number]? = some (f e) :=
    fun f => (Desk.puts_change found f).here
  cases goes with
  | evaluate ends | follow ends | look ends | clean ends | drop ends => exact ⟨e,found,.refl _ e⟩
  | offerScript r =>
    refine ⟨_,changed _,?_⟩
    rw [Desk.evaluation_eq found]
    refine Evaluation.later_offerScript fun v same => ?_
    cases r <;> cases same
    rfl
  | announceScript => exact ⟨_,changed _,Evaluation.later_announceScript (taken rfl)⟩
  | offer x r =>
    refine ⟨_,changed _,?_⟩
    rw [Desk.evaluation_eq found]
    exact Evaluation.later_outcome (Completion.stays_offer _ r)
  | announce x => exact ⟨_,changed _,Evaluation.later_outcome (Completion.stays_announce _)⟩

end Goes

/-! ### One step after another -/

/-- A job goes on with the value of its computation. -/
theorem ends_compute {σ α : Type} {m : Engine.M α} {next : α → Job σ} {answers : List Answer} {r : Except Thrown (Job σ)}
    (ends : ((m w).bind fun a w => .ok (next a) w).Ends answers r last) :
    ∃ k, (m w).Ends answers k last ∧ r = k.map next := by
  rcases Engine.Tree.ends_bind.mp ends with ⟨first,rest,a,back,rfl,before,after⟩ | ⟨t,rfl,thrown⟩
  · cases after
    exact ⟨.ok a,by simpa using before,rfl⟩
  · exact ⟨.error t,thrown,rfl⟩

theorem ends_compute_ok {σ α : Type} {m : Engine.M α} {next : α → Job σ} {answers : List Answer} {a : α}
    (ends : (m w).Ends answers (.ok a) last) :
    ((m w).bind fun a w => .ok (next a) w).Ends answers (.ok (next a)) last :=
  Engine.Tree.ends_bind.mpr (.inl ⟨answers,[],a,last,(List.append_nil _).symm,ends,.ok⟩)

theorem rest_landed {α : Type} {x : Errand} {next : α → Standing} {job : α → Work τ} (same : ∀ a, job a = (next a).rest c)
    (r : Except Thrown α) : ((r.map job).toOption.getD .done) = (landed x next r).rest c := by
  cases r with
  | ok a => exact same a
  | error t => rfl

theorem rest_told (x : Errand) (r : Option (Except Failure Json)) :
    Evaluation.offering c.number r = ((told x r).rest c : Work τ) := by
  cases r <;> rfl

/-- An errand that computes goes on as it does. -/
theorem goes_of_engine (desk : Desk τ) {m : World → Engine.Tree (Work τ)} {answers : List Answer} {r : Except Thrown (Work τ)}
    (engine : s.rest c = .engine m) (ends : (m w).Ends answers r last) :
    ∃ s', Goes c w desk (.compute answers r last) s s' last desk ∧ r.toOption.getD .done = s'.rest c := by
  cases s with
  | fresh x =>
    cases x with
    | script =>
      cases engine
      obtain ⟨k,computed,rfl⟩ := ends_compute ends
      have same : ∀ r, Evaluation.offeringScript c.number c.valueName r = ((offersScript r).rest c : Work τ) := fun _ => rfl
      exact ⟨_,.evaluate computed,rest_landed same k⟩
    | follow v =>
      cases engine
      obtain ⟨k,computed,rfl⟩ := ends_compute ends
      exact ⟨_,.follow computed,rest_landed (rest_told _) k⟩
    | look =>
      cases engine
      obtain ⟨k,computed,rfl⟩ := ends_compute ends
      exact ⟨_,.look computed,rest_landed (rest_told _) k⟩
    | clean value =>
      cases engine
      obtain ⟨k,computed,rfl⟩ := ends_compute ends
      refine ⟨_,.clean computed,?_⟩
      cases k <;> rfl
  | drops =>
    cases engine
    obtain ⟨k,computed,rfl⟩ := ends_compute ends
    refine ⟨_,.drop computed,?_⟩
    cases k <;> rfl
  | _ => cases engine

/-- An errand that looks at the desk goes on as it does. -/
theorem goes_of_share (w : World) (desk : Desk τ) {f : Desk τ → Desk τ × Work τ} (share : s.rest c = .share f) :
    ∃ s', Goes c w desk .share s s' w (f desk).1 ∧ (f desk).2 = s'.rest c := by
  cases s with
  | fresh x => cases x <;> cases share
  | offersScript r =>
    cases share
    refine ⟨_,.offerScript r,?_⟩
    have same : ∀ taken : Bool, (match taken, r with
        | true, _ => .put (·.announceScript c.number) .done
        | false, .ok () => .compute (Engine.dropGlobal c.valueName) fun () => .done
        | false, .error _ => .done : Work τ) = (offered taken r).rest c := by
      intro taken
      cases taken <;> cases r <;> rfl
    exact same _
  | announcesScript =>
    cases share
    exact ⟨_,.announceScript,rfl⟩
  | offers x r =>
    cases share
    refine ⟨_,.offer x r,?_⟩
    cases taken : (desk.offerOutcome c.number r).1 <;> simp [taken,rest]
  | announces x =>
    cases share
    exact ⟨_,.announce x,rfl⟩
  | _ => cases share

end Standing

end ScriptHost
