import ScriptHost.Proofs.Evaluation.Errands
/-!
What an evaluation keeps in the global object, and that in the end it keeps nothing. The value of the program stays
under its name until it makes place for the state object, or until it is dropped by whoever finds that nobody waits
for it; the state object stays until the follower has it taken away. All this is so among scripts and other jobs that
leave the two names alone: what they may do to the names nobody could make up for.
-/
namespace ScriptHost
open Engine (World Answer Thrown)
variable {τ : Type}

/-- The names that an evaluation keeps things under. -/
def Plan.names (c : Plan) : List String := [c.valueName,c.stateName]

theorem Plan.valueName_mem (c : Plan) : c.valueName ∈ c.names := List.mem_cons_self

theorem Plan.stateName_mem (c : Plan) : c.stateName ∈ c.names := List.mem_cons_of_mem _ List.mem_cons_self

/-- What scripts do while an errand computes leaves the names alone. -/
def Errand.Tactful (c : Plan) (w : World) (answers : List Answer) (last : World) : Errand → Prop
  | .script => Engine.Discreet (Engine.evaluate c.program) w answers c.names
  | .follow v => Engine.HandsOn v c.stateName w answers last c.names
  | .look => w.Spares last c.names
  | .clean _ => True

/-- Nobody but the host does anything to the names. -/
def Course.Tactful (c : Plan) (p : Course τ) : Turn τ → Prop
  | .compute answers _ last =>
    ∀ n d, p.running? c = some (n,d) → d.started = false → d.errand.Tactful c p.world answers last
  | .elsewhere world _ => p.world.Spares world c.names
  | _ => True

namespace Course

/-- Errands of this kind have computed something. -/
def Computed (k : Nat → Option Standing) (x : Errand) : Prop := ∃ n s, k n = some s ∧ s.errand = x ∧ s.isFresh = false

/-- An errand is about to see to the value that was kept for it, as nobody else knows of it yet. -/
def Minds (k : Nat → Option Standing) : Prop := ∃ n, k n = some (.offersScript (.ok ())) ∨ k n = some .drops

/-- What is in the global object, and why. -/
structure Neat (c : Plan) (p : Course τ) (k : Nat → Option Standing) (e : Evaluation) : Prop where
  apart : c.valueName ≠ c.stateName
  keeps : p.world.KeepsAll c.names
  value : p.world.kept? c.valueName ≠ none → Minds k ∨
    (∃ v, e.script.slot = some (.ok v)) ∧ ¬Computed k (.follow c.valueName) ∧ ¬Computed k (.clean (some c.valueName))
  state : p.world.kept? c.stateName ≠ none → (∃ v, Computed k (.follow v)) ∧ ∀ value, ¬Computed k (.clean value)
  /-- Once the value was handed on there is a state object, or the outcome is known. -/
  present : ∀ v, Computed k (.follow v) → (∃ id, p.world.kept? c.stateName = some (.data (.obj id) .full)) ∨
    e.outcome.slot.isSome = true ∨ (∃ n v failure, k n = some (.offers (.follow v) (.error failure))) ∨
    ∃ value, Computed k (.clean value)

section
variable {k : Nat → Option Standing} {n : Nat} {s s' : Standing} {x y : Errand}

theorem Computed.handed (computed : Computed k x) : Handed k x := by
  obtain ⟨n,s,stands,same,-⟩ := computed
  exact ⟨n,s,stands,same⟩

theorem computed_go (stands : k n = some s) (same : s'.errand = s.errand) (started : s'.isFresh = false) :
    Computed (Function.update k n (some s')) y ↔ Computed k y ∨ y = s.errand := by
  constructor
  · rintro ⟨m,u,stands',rfl,old⟩
    by_cases own : m = n
    · subst own
      cases (Function.update_self m _ k).symm.trans stands'
      exact .inr same
    · exact .inl ⟨m,u,(Function.update_of_ne own _ _).symm.trans stands',rfl,old⟩
  · rintro (⟨m,u,stands',rfl,old⟩ | rfl)
    · by_cases own : m = n
      · subst own
        cases stands.symm.trans stands'
        exact ⟨m,s',Function.update_self m _ k,same,started⟩
      · exact ⟨m,u,(Function.update_of_ne own _ _).trans stands',rfl,old⟩
    · exact ⟨n,s',Function.update_self n _ k,same,started⟩

/-- An errand that goes on has computed something before, or does so now. -/
theorem computed_again (stands : k n = some s) (same : s'.errand = s.errand) (started : s'.isFresh = false)
    (old : s.isFresh = false) : Computed (Function.update k n (some s')) y ↔ Computed k y := by
  refine (computed_go stands same started).trans (or_iff_left_of_imp ?_)
  rintro rfl
  exact ⟨n,s,stands,rfl,old⟩

theorem computed_new (free : k n = none) : Computed (Function.update k n (some (.fresh x))) y ↔ Computed k y := by
  constructor
  · rintro ⟨m,u,stands,same,old⟩
    by_cases own : m = n
    · subst own
      cases (Function.update_self m _ k).symm.trans stands
      cases old
    · exact ⟨m,u,(Function.update_of_ne own _ _).symm.trans stands,same,old⟩
  · rintro ⟨m,u,stands,same,old⟩
    have other : m ≠ n := by
      rintro rfl
      cases free.symm.trans stands
    exact ⟨m,u,(Function.update_of_ne other _ _).trans stands,same,old⟩

/-- What stands elsewhere stays there. -/
theorem stands_go {u : Standing} {v : Option Standing} {m : Nat} (stands : k m = some u) (other : k n ≠ some u) :
    Function.update k n v m = some u := by
  have apart : m ≠ n := by
    rintro rfl
    exact other stands
  exact (Function.update_of_ne apart _ _).trans stands

theorem Minds.go {v : Option Standing} (minds : Minds k) (other : k n ≠ some (.offersScript (.ok ())))
    (other' : k n ≠ some .drops) : Minds (Function.update k n v) := by
  obtain ⟨m,stands | stands⟩ := minds
  · exact ⟨m,.inl (stands_go stands other)⟩
  · exact ⟨m,.inr (stands_go stands other')⟩

end

section
variable {c : Plan} {first : Work τ} {capacity : Nat} {p q : Course τ} {k k' : Nat → Option Standing}
  {e e' : Evaluation} {t : Turn τ} {n : Nat} {s s' : Standing}

/-- The names are left alone, and errands go on that have nothing to do with what is kept. -/
theorem Neat.spared (neat : Neat c p k e) (spares : p.world.Spares q.world c.names) (later : e.Later c.valueName e')
    (minds : Minds k → Minds k' ∨ (∃ v, e'.script.slot = some (.ok v)) ∧ e.script.slot = none)
    (follows : ∀ v, Computed k' (.follow v) ↔ Computed k (.follow v))
    (cleans : ∀ value, Computed k' (.clean value) ↔ Computed k (.clean value))
    (known : ∀ n v failure, k n = some (.offers (.follow v) (.error failure)) →
      k' n = some (.offers (.follow v) (.error failure)) ∨ e'.outcome.slot.isSome = true)
    (founded : ∀ x, Handed k x → x.Founded e (Handed k)) : Neat c q k' e' := by
  have kept : ∀ name ∈ c.names, q.world.kept? name = p.world.kept? name := fun name member => (spares name member).kept
  refine ⟨neat.apart,neat.keeps.spared spares,fun some => ?_,fun some => ?_,fun v computed => ?_⟩
  · rw [kept _ c.valueName_mem] at some
    rw [follows,cleans]
    rcases neat.value some with before | ⟨⟨v,full⟩,free⟩
    · rcases minds before with before | ⟨full,empty⟩
      · exact .inl before
      · refine .inr ⟨full,fun computed => ?_,fun computed => ?_⟩
        · cases empty.symm.trans (founded _ computed.handed)
        · obtain ⟨r,full,-⟩ := founded _ computed.handed
          cases empty.symm.trans full
    · exact .inr ⟨⟨v,later.script _ full⟩,free⟩
  · rw [kept _ c.stateName_mem] at some
    simp only [follows,cleans]
    exact neat.state some
  · rw [kept _ c.stateName_mem]
    simp only [cleans]
    rcases neat.present v ((follows v).mp computed) with object | full | ⟨n,v,failure,stands⟩ | cleaned
    · exact .inl object
    · exact .inr (.inl (later.outcome.isSome full))
    · rcases known n v failure stands with stands | full
      · exact .inr (.inr (.inl ⟨n,v,failure,stands⟩))
      · exact .inr (.inl full)
    · exact .inr (.inr (.inr cleaned))

/-- Nothing happens to the engine or to errands. -/
theorem Neat.still (neat : Neat c p k e) (spares : p.world.Spares q.world c.names) (later : e.Later c.valueName e')
    (founded : ∀ x, Handed k x → x.Founded e (Handed k)) : Neat c q k e' :=
  neat.spared spares later .inl (fun _ => .rfl) (fun _ => .rfl) (fun _ _ _ => .inl) founded

/-- An errand that is not to see to the value goes on, and nothing happens to the names. -/
theorem Neat.goes_on (neat : Neat c p k e) (sound : Sound c first capacity p k e)
    (spares : p.world.Spares q.world c.names) (stands : k n = some s) (same : s'.errand = s.errand)
    (started : s'.isFresh = false) (minds : Minds k → Minds (Function.update k n (some s')) ∨
      (∃ v, e'.script.slot = some (.ok v)) ∧ e.script.slot = none) (later : e.Later c.valueName e')
    (other : s.isFresh = false ∨ s.errand = .script ∨ s.errand = .look)
    (known : ∀ v failure, s = .offers (.follow v) (.error failure) → e'.outcome.slot.isSome = true) :
    Neat c q (Function.update k n (some s')) e' := by
  have computed : ∀ y, y ≠ .script → y ≠ .look → (Computed (Function.update k n (some s')) y ↔ Computed k y) := by
    intro y script look
    rcases other with old | own | own
    · exact computed_again stands same started old
    · exact (computed_go stands same started).trans (or_iff_left (own ▸ script))
    · exact (computed_go stands same started).trans (or_iff_left (own ▸ look))
  refine neat.spared spares later minds (fun v => computed _ nofun nofun) (fun value => computed _ nofun nofun)
    (fun m v failure stands' => ?_) sound.informed.founded
  by_cases own : m = n
  · subst own
    cases stands.symm.trans stands'
    exact .inr (known v failure rfl)
  · exact .inl ((Function.update_of_ne own _ _).trans stands')

/-- The value of the program is kept. -/
theorem Neat.given (neat : Neat c p k e) (minds : Minds k) {w : World} (v : Engine.Value)
    (same : q.world = w.given c.valueName v) (spared : p.world = w) : Neat c q k e := by
  subst spared
  have keeps := neat.keeps c.valueName c.valueName_mem
  have other : q.world.kept? c.stateName = p.world.kept? c.stateName := by
    rw [same,keeps.kept_given v,if_neg neat.apart.symm]
  refine ⟨neat.apart,same ▸ neat.keeps.given c.valueName_mem v,fun _ => .inl minds,?_,?_⟩
  · rw [other]
    exact neat.state
  · rw [other]
    exact neat.present

/-- An errand takes a step, and everyone leaves the names alone. -/
theorem Neat.errand {last : World} {desk : Desk τ} (neat : Neat c p k e) (sound : Sound c first capacity p k e)
    (runs : (p.system.workers c.generation).running? = some n) (stands : k n = some s)
    (goes : s.Goes c p.world p.desk t s' last desk) (found : desk.evaluations[c.number]? = some e')
    (later : e.Later c.valueName e') (tact : p.Tactful c t) :
    Neat c ({ p with world := last, desk }.goOn n (s'.doing c)) (Function.update k n (some s')) e' := by
  have same := goes.errand
  have started := goes.isFresh
  have running : p.running? c = some (n,s.doing c) := by simp [running?,runs,sound.based.errands,stands]
  have keepsValue := neat.keeps c.valueName c.valueName_mem
  have keepsState := neat.keeps c.stateName c.stateName_mem
  have elsewhere : ∀ {u}, s ≠ u → k n ≠ some u := fun other same => other (Option.some.inj (stands.symm.trans same))
  have goesOn : ∀ {u}, s ≠ .offersScript (.ok ()) → s ≠ .drops → Minds k → Minds (Function.update k n u) :=
    fun offers drops minds => minds.go (elsewhere offers) (elsewhere drops)
  cases goes with
  | @evaluate answers r _ last ends =>
    rcases Engine.ends_evaluateInto neat.keeps c.valueName_mem (tact n _ running rfl) ends with
      ⟨back,v,spares,rfl,rfl⟩ | ⟨spares,failed⟩
    · have minds : Minds (Function.update k n (some (.offersScript (.ok ())))) := ⟨n,.inl (Function.update_self ..)⟩
      have before : Neat c { p with world := back } (Function.update k n (some (.offersScript (.ok ())))) e' :=
        neat.goes_on sound spares stands same started (fun _ => .inl minds) later (.inr (.inl rfl)) (by simp)
      exact before.given minds v rfl rfl
    · exact neat.goes_on sound spares stands same started (fun minds => .inl (goesOn (by simp) (by simp) minds)) later
        (.inr (.inl rfl)) (by simp)
  | @look answers r _ last ends =>
    exact neat.goes_on sound (tact n _ running rfl) stands same started (fun minds => .inl (goesOn (by simp) (by simp) minds)) later
      (.inr (.inr rfl)) (by simp)
  | offerScript r =>
    refine neat.goes_on sound (.refl _ _) stands same started (fun minds => ?_) later (.inl rfl) (by simp)
    rcases Standing.offerScript_slot sound.based.found found with ⟨taken,empty,full⟩ | ⟨refused,-⟩
    · cases r with
      | ok a => exact .inr ⟨⟨_,full⟩,empty⟩
      | error failure => exact .inl (goesOn (by simp) (by simp) minds)
    · cases r with
      | ok a =>
        refine .inl ⟨n,.inr ?_⟩
        rw [refused]
        exact Function.update_self ..
      | error failure => exact .inl (goesOn (by simp) (by simp) minds)
  | announceScript | announce x =>
    exact neat.goes_on sound (.refl _ _) stands same started (fun minds => .inl (goesOn (by simp) (by simp) minds)) later
      (.inl rfl) (by simp)
  | offer x r =>
    exact neat.goes_on sound (.refl _ _) stands same started (fun minds => .inl (goesOn (by simp) (by simp) minds)) later
      (.inl rfl) fun _ _ _ => Standing.offerOutcome_slot sound.based.found found
  | @drop answers r _ last ends =>
    rw [Engine.dropGlobal_eq keepsValue] at ends
    cases ends
    have computed : ∀ y, Computed (Function.update k n (some (.ended .script))) y ↔ Computed k y := fun y =>
      computed_again stands same started rfl
    have other : (p.world.without c.valueName).kept? c.stateName = p.world.kept? c.stateName := by
      rw [keepsValue.kept_without,if_neg neat.apart.symm]
    refine ⟨neat.apart,neat.keeps.without c.valueName_mem,fun some => absurd ?_ some,fun some => ?_,fun v computed' => ?_⟩
    · exact (keepsValue.kept_without _).trans (if_pos rfl)
    · simp only [computed]
      exact neat.state (other ▸ some)
    · simp only [computed] at computed' ⊢
      rcases neat.present v computed' with object | full | ⟨m,v,failure,stands'⟩ | cleaned
      · exact .inl (other ▸ object)
      · exact .inr (.inl (later.outcome.isSome full))
      · exact .inr (.inr (.inl ⟨m,v,failure,stands_go stands' (elsewhere (by simp))⟩))
      · exact .inr (.inr (.inr cleaned))
  | @follow v answers r _ last ends =>
    have computed : ∀ y, Computed (Function.update k n (some (Standing.landed (.follow v) (Standing.told (.follow v)) r))) y ↔
        Computed k y ∨ y = .follow v := fun y => computed_go stands same started
    -- The value is the one that was kept for this run, and whoever is to take everything away comes later.
    have own : v = c.valueName := sound.informed.value v (sound.informed.founded _ ⟨n,_,stands,rfl⟩)
    have uncleaned : ∀ value, ¬Computed k (.clean value) := by
      rintro value ⟨m,u,stands',clean,old⟩
      have fresh := sound.fresh_of_later runs stands (by rintro ⟨⟩) stands' (by rw [clean]; exact Nat.le.step .refl)
      cases old.symm.trans fresh
    subst own
    have handsOn : Engine.HandsOn c.valueName c.stateName p.world answers last c.names := tact n _ running rfl
    have gone : (p.world.without c.valueName).kept? c.valueName = none := (keepsValue.kept_without _).trans (if_pos rfl)
    have kept : (p.world.without c.valueName).kept? c.stateName = p.world.kept? c.stateName := by
      rw [keepsValue.kept_without,if_neg neat.apart.symm]
    have keeps := neat.keeps.without c.valueName_mem
    rcases Engine.ends_followAt neat.keeps c.valueName_mem c.stateName_mem handsOn ends with
      ⟨middle,id,before,after⟩ | ⟨spares,failure,rfl⟩
    · have keepsMiddle := (keeps.spared before) c.stateName c.stateName_mem
      have object : last.kept? c.stateName = some (.data (.obj id) .full) := by
        rw [(after _ c.stateName_mem).kept,keepsMiddle.kept_given,if_pos rfl]
      have taken : last.kept? c.valueName = none := by
        rw [(after _ c.valueName_mem).kept,keepsMiddle.kept_given,if_neg neat.apart,(before _ c.valueName_mem).kept,gone]
      refine ⟨neat.apart,((keeps.spared before).given c.stateName_mem _).spared after,fun some => absurd taken some,
        fun some => ⟨⟨_,(computed _).mpr (.inr rfl)⟩,fun value cleaned => ?_⟩,fun v _ => .inl ⟨id,object⟩⟩
      exact uncleaned value (((computed _).mp cleaned).resolve_right (by simp))
    · have taken : last.kept? c.valueName = none := (spares _ c.valueName_mem).kept.trans gone
      refine ⟨neat.apart,keeps.spared spares,fun some => absurd taken some,
        fun some => ⟨⟨_,(computed _).mpr (.inr rfl)⟩,fun value cleaned => ?_⟩,
        fun v _ => .inr (.inr (.inl ⟨n,_,failure,Function.update_self ..⟩))⟩
      exact uncleaned value (((computed _).mp cleaned).resolve_right (by simp))
  | @clean value answers r _ last ends =>
    have computed : ∀ y, Computed (Function.update k n (some (.ended (.clean value)))) y ↔ Computed k y ∨ y = .clean value :=
      fun y => computed_go stands same started
    have cleaned : Computed (Function.update k n (some (.ended (.clean value)))) (.clean value) :=
      (computed _).mpr (.inr rfl)
    obtain ⟨r,full,told⟩ := sound.informed.founded _ ⟨n,_,stands,rfl⟩
    have keeps := neat.keeps.without c.stateName_mem
    have gone : (p.world.without c.stateName).kept? c.stateName = none := (keepsState.kept_without _).trans (if_pos rfl)
    cases value with
    | none =>
      have keptValue : (p.world.without c.stateName).kept? c.valueName = p.world.kept? c.valueName := by
        rw [keepsState.kept_without,if_neg neat.apart]
      rw [Engine.dropKept_eq keepsState fun name same => by cases same] at ends
      cases ends
      refine ⟨neat.apart,keeps,fun some => .inl ?_,fun some => absurd gone some,fun v _ => .inr (.inr (.inr ⟨_,cleaned⟩))⟩
      rcases neat.value (keptValue ▸ some) with minds | ⟨⟨v,full'⟩,-⟩
      · exact goesOn (by simp) (by simp) minds
      · cases full.symm.trans full'
        cases told
    | some v =>
      have own : v = c.valueName := by
        cases r with
        | ok u =>
          cases told
          exact sound.informed.value v full
        | error failure => cases told
      subst own
      have keepsValue := keeps c.valueName c.valueName_mem
      rw [Engine.dropKept_eq keepsState fun name same => by cases same; exact keepsValue] at ends
      cases ends
      have goneToo : ((p.world.without c.stateName).without c.valueName).kept? c.stateName = none := by
        rw [keepsValue.kept_without,if_neg neat.apart.symm,gone]
      refine ⟨neat.apart,keeps.without c.valueName_mem,fun some => absurd ?_ some,fun some => absurd goneToo some,
        fun v _ => .inr (.inr (.inr ⟨_,cleaned⟩))⟩
      exact (keepsValue.kept_without _).trans (if_pos rfl)

theorem Neat.step (neat : Neat c p k e) (sound : Sound c first capacity p k e) (step : Step c first p k e t q k' e')
    (tact : p.Tactful c t) : Neat c q k' e' := by
  have founded := sound.informed.founded
  cases step with
  | others apart taken ends => exact neat.still (.refl _ _) (.refl _ e) founded
  | errand runs stands goes found later => exact neat.errand sound runs stands goes found later tact
  | still found later outside quiet knows =>
    rcases outside with rfl | rfl
    · exact neat.still (.refl _ _) later founded
    · exact neat.still tact later founded
  | @handIn t f q x σ follows before after goes taken =>
    have free := next_free sound.based sound.queued
    have other : ∀ {u}, k p.system.scheduler.serial ≠ some u := fun same => nomatch free.symm.trans same
    exact neat.spared (.refl _ _) (.refl _ e) (fun minds => .inl (minds.go other other)) (fun _ => computed_new free)
      (fun _ => computed_new free) (fun n v failure stands => .inl (stands_go stands other)) founded
  | sends follows before after step goes taken calls => exact neat.still (.refl _ _) (.refl _ e) founded
  | returns follows before after goes taken => exact neat.still (.refl _ _) (.refl _ e) founded

/-- Where the errands of a course stand, if everyone leaves the names alone. -/
theorem exists_neat {backoff : Backoff} (reached : Reachable c first backoff capacity (Tactful c) p) :
    ∃ k e, Sound c first capacity p k e ∧ Neat c p k e := by
  induction reached with
  | @handIn j l σ υ who desk world signal audited free apart taken made names keeps value state =>
    refine ⟨_,_,sound_handIn audited free apart taken made,names,?_,fun some => absurd value some,
      fun some => absurd state some,?_⟩
    · exact keeps
    · rintro v ⟨n,s,stands,-,old⟩
      by_cases own : n = σ.scheduler.serial
      · subst own
        rw [Function.update_self] at stands
        cases stands
        cases old
      · rw [Function.update_of_ne own] at stands
        cases stands
  | @act p q t reached possible tact taken ih =>
    obtain ⟨k,e,sound,neat⟩ := ih
    obtain ⟨k',e',step⟩ := step_of_act sound.based possible taken
    exact ⟨k',e',sound.step step,neat.step sound step tact⟩

/-- Once the follower is gone and no errand is underway any more, nothing is kept. -/
theorem nothing_kept_of_gone {backoff : Backoff} (reached : Reachable c first backoff capacity (Tactful c) p)
    (live : p.system.scheduler.isOver c.generation = false)
    (undrained : ∀ h n d, p.errands n = some d → (.drained h,c.envelope n d.errand) ∉ p.journal.left)
    (gone : p.follower = some .gone) (idle : ∀ n d, p.errands n = some d → p.system.isUnderway n = false) :
    p.world.kept? c.valueName = none ∧ p.world.kept? c.stateName = none := by
  obtain ⟨k,e,sound,neat⟩ := exists_neat reached
  have errand : ∀ {n s}, k n = some s → p.errands n = some (s.doing c) := by
    intro n s stands
    rw [sound.based.errands,stands]
    rfl
  have quiet : p.follower.bind Poller.submission? = none := by rw [gone]; rfl
  have ended : ∀ {n s}, k n = some s → s.isFresh = false → s.isOver = true := fun stands old =>
    sound.over_of_started stands old (idle _ _ (errand stands))
  -- The follower has had everything taken away, or there was nothing to take away.
  have cleaned : ∀ value, Handed k (.clean value) → Computed k (.clean value) := by
    rintro value ⟨n,s,stands,clean⟩
    have done := sound.over_of_idle live quiet stands (by rw [clean]; nofun) (idle _ _ (errand stands)) fun h =>
      undrained h n _ (errand stands)
    refine ⟨n,s,stands,clean,?_⟩
    cases s <;> first | rfl | cases done
  have knows := sound.informed.knows
  rw [gone] at knows
  obtain ⟨r,full,known⟩ := knows
  constructor
  · by_contra some
    rcases neat.value some with ⟨n,stands | stands⟩ | ⟨⟨v,full'⟩,-,free⟩
    · cases ended stands rfl
    · cases ended stands rfl
    · cases full.symm.trans full'
      rcases known with clean | none
      · have own : v = c.valueName := sound.informed.value v full
        subst own
        exact free (cleaned _ clean)
      · cases none
  · by_contra some
    obtain ⟨⟨v,computed⟩,free⟩ := neat.state some
    have follows : e.script.slot = Option.some (.ok v) := sound.informed.founded _ computed.handed
    cases full.symm.trans follows
    rcases known with clean | none
    · exact free _ (cleaned _ clean)
    · cases none

/-! ### A value that never settles -/

theorem tactful_of_allows (p : Course τ) (t : Turn τ) (allowed : p.allows c t = true) : Tactful c p t := by
  cases t with
  | compute answers r last | elsewhere world desk => cases allowed
  | _ => trivial

theorem tactful_of_isAt {x : Errand} {answers : List Answer} {r : Except Thrown (Work τ)} {last : World}
    (here : p.isAt c x = true) (tact : x.Tactful c p.world answers last) : Tactful c p (.compute answers r last) := by
  intro n d running fresh
  have same : d.errand = x := by
    rw [isAt,running] at here
    simpa [fresh] using here
  exact same ▸ tact

end

namespace Unsettled

/-- An evaluation of a program whose value is handed on to a promise that never settles. -/
def plan : Plan where
  number := 0
  generation := 1
  program := ⟨"<eval>","",0⟩
  valueName := "value"
  stateName := "state"
  thread := 2

/-- An engine in which there is nothing but the function that hands values on. -/
def engine : World :=
  let global : Engine.Obj := { proto := .null, props := Engine.Table.insert default (.text Engine.handlerName) (.data (.obj 39) .full) }
  let hand : Engine.Obj := { proto := .null, kind := .native (.boolean .new) #[] false }
  { (default : World) with
    heap := ((Array.replicate Engine.Intrinsic.global.id { proto := .null }).push global).push hand }

/-- The value of the program is kept. -/
def valued : World := engine.given "value" .undefined

/-- The value was taken away, and there is an object of its own for it. -/
def made : World :=
  match Engine.blankState .undefined (valued.without "value") with
  | .ok _ w => w
  | _ => valued

/-- The state object is kept. -/
def stateful : World := made.given "state" (.obj 40)

/-- Somebody has seen to it that what is in the global object stays there. -/
def sealed : World :=
  stateful.setObj Engine.Intrinsic.global.id
    (·.put (.text "state") (.data (.obj 40) { Engine.Rights.full with configurable := false }))

/-- Everything was taken away. -/
def tidied : World := (stateful.without "state").without "value"

/-- What is left in the end if the state object cannot be taken away. -/
def remaining : World :=
  match Engine.dropKept "state" (some "value") sealed with
  | .ok _ w => w
  | _ => sealed

def backoff : Backoff := .ofSettings {}

/-- A generation is opened, and its first job is done. -/
def opening : List (Action (Work Unit)) :=
  List.flatten [[.start (.thread 0)],List.replicate 8 (.go (.thread 0) (.ok ()) 0),[.return (.thread 0),.takeHandle],
    List.replicate 6 (.work 1 0),[.finish 1 false,.work 1 0,.settle 1]]

/-- A call of a thread goes on. -/
def calls (t n : Nat) : List (Turn Unit) := List.replicate n (.system (.go (.thread t) (.ok ()) 0))

/-- The worker comes to the next job. -/
def worker : List (Turn Unit) := List.replicate 6 (.system (.work 1 0))

/-- The follower goes on. -/
def polls (n : Nat) : List (Turn Unit) := List.replicate n (.poll 0)

/-- The running job comes to its end. -/
def jobDone : List (Turn Unit) := [.system (.finish 1 false),.system (.work 1 0),.system (.settle 1)]

/-- The program is about to be run. -/
def evaluates : Option (Course Unit) :=
  (enter plan .done 2 opening (.thread 1) { evaluations := #[.submitted 1 ⟨false⟩], own := () } engine).bind
    (Course.run plan .done backoff · (calls 1 3 ++ .system (.return (.thread 1)) :: worker))

/-- The value is about to be handed on. -/
def handsOn : Option (Course Unit) :=
  evaluates.bind (·.leg plan .done backoff [] (.ok (Evaluation.offeringScript 0 "value" (.ok ()))) valued
    (List.flatten [[.share,.share],jobDone,[.follow],polls 5,worker]))

/-- Nothing is known of the promise yet, and the follower is about to have another look. -/
def looks : Option (Course Unit) :=
  handsOn.bind (·.leg plan .done backoff [(.ok .undefined,stateful),(.ok .undefined,stateful)] (.ok .done) stateful
    (List.flatten [jobDone,polls 2,[.late],polls 4,worker]))

/-- The evaluation was canceled, and everything is about to be taken away. -/
def cleans : Option (Course Unit) :=
  looks.bind (·.leg plan .done backoff [] (.ok .done) stateful
    (List.flatten [jobDone,[.cancel,.watchOutcome 0,.watchOutcome 0],polls 7,worker]))

/-- The scheduler is stopped instead, before the follower has seen an outcome. -/
def stopped : Option (Course Unit) :=
  looks.bind (·.leg plan .done backoff [] (.ok .done) stateful
    (List.flatten [jobDone,[.system (.stop 3)],calls 3 3,List.replicate 8 (.system (.work 1 0)),polls 8]))

/-- No stop has dropped anything. -/
def isUndrained (p : Course Unit) : Bool :=
  p.journal.left.all fun (exit,_) => match exit with
    | .drained _ => false
    | _ => true

/-- The evaluation is resolved, the follower is gone, nothing is underway, and nothing was dropped. -/
def isDone (p : Course Unit) : Bool :=
  (p.desk.evaluation 0).outcome.ready && p.follower.any Poller.isGone && p.system.isIdle && isUndrained p

/-- The program of nothing has no value, and changes nothing. -/
theorem evaluate_engine : Engine.evaluate plan.program engine = .ok (.ok .undefined) engine := by
  have plain : "".any Text.isStandIn = false := by simp [String.any]
  have empty : Text.ofString "" = "" := by simp [Text.ofString,plain]
  have read : Script.Source.read "".toList.toArray false false = .ok ⟨[],false,false,none⟩ := by rfl
  have fine : Script.Early.offence ⟨[],false,false,none⟩ = none := by rfl
  have ran : Engine.runSource ⟨[],false,false,none⟩ false engine = .ok .undefined engine := by rfl
  unfold Engine.evaluate Engine.lookingAt Engine.sure Engine.Builtin.runText
  simp only [plan,empty,read,fine]
  simp only [Engine.M.bind_apply,Engine.outcome,ran]
  rfl

theorem evaluateInto_engine : Engine.evaluateInto "value" plan.program engine = .ok (.ok ()) valued := by
  have given : Engine.setGlobal "value" .undefined engine = .ok () valued := by rfl
  exact (Engine.andThen_of_ok _ evaluate_engine).trans (Engine.plainly_of_ok given)

theorem takeKept_valued : Engine.takeKept "value" valued = .ok (.ok .undefined) (valued.without "value") := by rfl

theorem blankState_valued : Engine.blankState .undefined (valued.without "value") = .ok (.obj 40) made := by rfl

theorem setGlobal_made : Engine.setGlobal "state" (.obj 40) made = .ok () stateful := by rfl

/-- The promise has said nothing. -/
theorem ends_followAt : (Engine.followAt "value" "state" valued).Ends
    [(.ok .undefined,stateful),(.ok .undefined,stateful)] (.ok none) stateful := .ask (.ask .ok)

theorem ends_outcomeAt : (Engine.outcomeAt "state" stateful).Ends [] (.ok none) stateful := .ok

theorem keepsAll_engine : engine.KeepsAll plan.names := by
  intro name member
  refine ⟨by decide,rfl,?_,.top nofun⟩
  have none : engine.kept? name = none := by
    rcases List.mem_pair.mp member with rfl | rfl <;> rfl
  simp [none]

theorem spares_made : (valued.without "value").Spares made plan.names := by
  intro name member
  have none : (valued.without "value").kept? name = none ∧ made.kept? name = none := by
    rcases List.mem_pair.mp member with rfl | rfl <;> exact ⟨rfl,rfl⟩
  refine ⟨none.2.trans none.1.symm,fun _ => ⟨by decide,rfl,?_,.top nofun⟩⟩
  simp [none.2]

theorem handsOn_valued : Engine.HandsOn "value" "state" valued [(.ok .undefined,stateful),(.ok .undefined,stateful)]
    stateful plan.names := by
  have alone : ∀ {answers r last}, (Engine.blankState .undefined (valued.without "value")).Ends answers r last →
      answers = [] ∧ last = made ∧ r = .ok (.obj 40) := by
    intro answers r last ends
    rw [blankState_valued] at ends
    cases ends
    exact ⟨rfl,rfl,rfl⟩
  refine ⟨fun v back taken => ?_,fun v back first rest state middle after taken same ends given => ?_⟩
  · cases takeKept_valued.symm.trans taken
    rintro first rest r last - ends
    obtain ⟨-,rfl,-⟩ := alone ends
    exact spares_made
  · cases takeKept_valued.symm.trans taken
    obtain ⟨-,rfl,same⟩ := alone ends
    cases same
    cases setGlobal_made.symm.trans given
    exact .refl _ _

/-- Each of these turns leads to the errand that it is meant for. -/
theorem errands_begin : evaluates.any (·.isAt plan .script) = true ∧
    handsOn.any (·.isAt plan (.follow "value")) = true ∧ looks.any (·.isAt plan .look) = true ∧
    cleans.any (·.isAt plan (.clean (some "value"))) = true := by decide +kernel

theorem reached_evaluates : ∃ p, evaluates = some p ∧ Reachable plan .done backoff 2 (Tactful plan) p ∧
    p.isAt plan .script = true ∧ p.world = engine := by
  obtain ⟨p,ran,here⟩ := (Option.any_eq_true _ _).mp errands_begin.1
  obtain ⟨start,entered,turns⟩ := Option.bind_eq_some_iff.mp ran
  have reached : Reachable plan .done backoff 2 (Tactful plan) start :=
    reachable_enter rfl (by decide) keepsAll_engine rfl rfl entered
  have world : start.world = engine := by
    obtain ⟨x,-,entered⟩ := Option.bind_eq_some_iff.mp entered
    simp only at entered
    split at entered
    · obtain ⟨υ,-,rfl⟩ := Option.map_eq_some_iff.mp entered
      rfl
    · cases entered
  exact ⟨p,ran,.run reached _ tactful_of_allows turns,here,(world_run turns).trans world⟩

/-- From a course that has come to an errand the next one is reached, with anything that is seen of it. -/
theorem reached_leg {start : Option (Course Unit)} {x : Errand} {w last : World} {answers : List Answer} {r : Work Unit}
    {turns : List (Turn Unit)} {m : World → Engine.Tree (Work Unit)} {seen : Course Unit → Bool}
    (before : ∃ p, start = some p ∧ Reachable plan .done backoff 2 (Tactful plan) p ∧ p.isAt plan x = true ∧ p.world = w)
    (job : x.job plan = .engine m) (ends : (m w).Ends answers (.ok r) last) (tact : x.Tactful plan w answers last)
    (facts : (start.bind (·.leg plan .done backoff answers (.ok r) last turns)).any seen = true) :
    ∃ p, start.bind (·.leg plan .done backoff answers (.ok r) last turns) = some p ∧
      Reachable plan .done backoff 2 (Tactful plan) p ∧ seen p = true ∧ p.world = last := by
  obtain ⟨p,ran,seen⟩ := (Option.any_eq_true _ _).mp facts
  obtain ⟨q,begins,computed⟩ := Option.bind_eq_some_iff.mp ran
  obtain ⟨_,same,reached,runs,rfl⟩ := before
  cases same.symm.trans begins
  obtain ⟨reached,world⟩ := reached.leg runs job ends (tactful_of_isAt runs tact) tactful_of_allows computed
  exact ⟨p,ran,reached,seen,world⟩

theorem ends_evaluateInto : (Engine.evaluateInto "value" plan.program engine).Ends [] (.ok (.ok ())) valued := by
  rw [evaluateInto_engine]
  exact .ok

theorem discreet_evaluate : Engine.Discreet (Engine.evaluate plan.program) engine [] plan.names := by
  intro first rest r back _ ends
  rw [evaluate_engine] at ends
  cases ends
  exact .refl _ _

theorem reached_handsOn : ∃ p, handsOn = some p ∧ Reachable plan .done backoff 2 (Tactful plan) p ∧
    p.isAt plan (.follow "value") = true ∧ p.world = valued := by
  exact reached_leg reached_evaluates rfl (Standing.ends_compute_ok ends_evaluateInto) discreet_evaluate errands_begin.2.1

theorem reached_looks : ∃ p, looks = some p ∧ Reachable plan .done backoff 2 (Tactful plan) p ∧
    p.isAt plan .look = true ∧ p.world = stateful := by
  exact reached_leg reached_handsOn rfl (Standing.ends_compute_ok ends_followAt) handsOn_valued errands_begin.2.2.1

theorem reached_cleans : ∃ p, cleans = some p ∧ Reachable plan .done backoff 2 (Tactful plan) p ∧
    p.isAt plan (.clean (some "value")) = true ∧ p.world = stateful := by
  exact reached_leg reached_looks rfl (Standing.ends_compute_ok ends_outcomeAt) (.refl _ _) errands_begin.2.2.2

theorem not_drained {p : Course Unit} (undrained : isUndrained p = true) (h : Nat) (e : Envelope (Work Unit)) :
    (.drained h,e) ∉ p.journal.left := by
  intro dropped
  cases List.all_eq_true.mp undrained _ dropped

/-- What `isDone` says. -/
theorem facts_of_isDone {p : Course Unit} (done : isDone p = true) :
    (p.desk.evaluation 0).outcome.ready = true ∧ p.follower = some .gone ∧ (∀ n, p.system.isUnderway n = false) ∧
      ∀ h e, (.drained h,e) ∉ p.journal.left := by
  simp only [isDone,Bool.and_eq_true] at done
  obtain ⟨⟨⟨ready,gone⟩,idle⟩,undrained⟩ := done
  refine ⟨ready,?_,System.isUnderway_of_isIdle idle,not_drained undrained⟩
  obtain ⟨f,follows,gone⟩ := (Option.any_eq_true _ _).mp gone
  cases f <;> first | exact follows | cases gone

theorem keepsAll_stateful : stateful.KeepsAll plan.names :=
  (((keepsAll_engine.given plan.valueName_mem _).without plan.valueName_mem).spared spares_made).given plan.stateName_mem _

theorem dropKept_stateful : Engine.dropKept "state" (some "value") stateful = .ok () tidied := by
  have keepsState : stateful.Keeps "state" := keepsAll_stateful _ plan.stateName_mem
  have keepsValue : (stateful.without "state").Keeps "value" :=
    keepsAll_stateful.without plan.stateName_mem _ plan.valueName_mem
  exact Engine.dropKept_eq keepsState fun name same => Option.some.inj same ▸ keepsValue

theorem nothing_kept_after_cancel : ∃ p : Course Unit, Reachable plan .done backoff 2 (Tactful plan) p ∧
    p.system.scheduler.isOver plan.generation = false ∧
    (∀ h n d, p.errands n = some d → (.drained h,plan.envelope n d.errand) ∉ p.journal.left) ∧
    p.follower = some .gone ∧ (∀ n d, p.errands n = some d → p.system.isUnderway n = false) ∧
    p.world.kept? "value" = none ∧ p.world.kept? "state" = none := by
  have ends : (Engine.dropKept "state" (some "value") stateful).Ends [] (.ok ()) tidied := by
    rw [dropKept_stateful]
    exact .ok
  have facts : (cleans.bind (·.leg plan .done backoff [] (.ok .done) tidied jobDone)).any
      (fun p => isDone p && !p.system.scheduler.isOver 1) = true := by decide +kernel
  obtain ⟨p,-,reached,seen,-⟩ := reached_leg reached_cleans rfl (Standing.ends_compute_ok ends) trivial facts
  simp only [Bool.and_eq_true,Bool.not_eq_true'] at seen
  obtain ⟨-,gone,idle,kept⟩ := facts_of_isDone seen.1
  exact ⟨p,reached,seen.2,fun h n d _ => kept h _,gone,fun n _ _ => idle n,
    nothing_kept_of_gone reached seen.2 (fun h n d _ => kept h _) gone fun n _ _ => idle n⟩

theorem dropKept_sealed : Engine.dropKept "state" (some "value") sealed = .ok () remaining := by rfl

theorem kept_remaining : remaining.kept? "state" ≠ none := by
  have some : remaining.kept? "state" = some (.data (.obj 40) { Engine.Rights.full with configurable := false }) := by rfl
  rw [some]
  nofun

theorem kept_stateful : stateful.kept? "state" ≠ none := by
  have some : stateful.kept? "state" = some (.data (.obj 40) .full) := by rfl
  rw [some]
  nofun

/-- A script that seals the global object has the state object stay there; so does the end of the generation, up to
    that of its engine. -/
theorem state_kept_when_sealed_or_stopped :
    (∃ p : Course Unit, Reachable plan .done backoff 2 (fun _ _ => True) p ∧
      p.system.scheduler.isOver plan.generation = false ∧ (∀ h e, (.drained h,e) ∉ p.journal.left) ∧
      (p.desk.evaluation plan.number).outcome.ready = true ∧ p.follower = some .gone ∧
      (∀ n, p.system.isUnderway n = false) ∧ p.world.kept? "state" ≠ none) ∧
    ∃ p : Course Unit, Reachable plan .done backoff 2 (Tactful plan) p ∧
      (p.system.workers plan.generation).isGone = false ∧ (∀ h e, (.drained h,e) ∉ p.journal.left) ∧
      (p.desk.evaluation plan.number).outcome.ready = true ∧ p.follower = some .gone ∧
      (∀ n, p.system.isUnderway n = false) ∧ p.world.kept? "state" ≠ none := by
  constructor
  · have facts : (cleans.bind fun p => { p with world := sealed }.leg plan .done backoff [] (.ok .done) remaining jobDone).any
        (fun p => isDone p && !p.system.scheduler.isOver 1) = true := by decide +kernel
    obtain ⟨p,ran,facts⟩ := (Option.any_eq_true _ _).mp facts
    obtain ⟨before,clean,computed⟩ := Option.bind_eq_some_iff.mp ran
    obtain ⟨_,same,reached,runs,-⟩ := reached_cleans
    cases same.symm.trans clean
    have ends : (Engine.dropKept "state" (some "value") sealed).Ends [] (.ok ()) remaining := by
      rw [dropKept_sealed]
      exact .ok
    have sealing : Reachable plan .done backoff 2 (fun _ _ => True) { before with world := sealed } :=
      .act (.elsewhere sealed before.desk) (reached.mono fun _ _ _ => trivial) rfl trivial rfl
    obtain ⟨reached,world⟩ := sealing.leg runs rfl (Standing.ends_compute_ok ends) trivial (fun _ _ _ => trivial) computed
    simp only [Bool.and_eq_true,Bool.not_eq_true'] at facts
    obtain ⟨ready,gone,idle,kept⟩ := facts_of_isDone facts.1
    exact ⟨p,reached,facts.2,kept,ready,gone,idle,world ▸ kept_remaining⟩
  · have facts : stopped.any (fun p => isDone p && !(p.system.workers 1).isGone) = true := by decide +kernel
    obtain ⟨p,-,reached,seen,world⟩ :=
      reached_leg reached_looks rfl (Standing.ends_compute_ok ends_outcomeAt) (.refl _ _) facts
    simp only [Bool.and_eq_true,Bool.not_eq_true'] at seen
    obtain ⟨ready,gone,idle,kept⟩ := facts_of_isDone seen.1
    exact ⟨p,reached,seen.2,kept,ready,gone,idle,world ▸ kept_stateful⟩

end Unsettled

end Course

end ScriptHost
