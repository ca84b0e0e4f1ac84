import ScriptHost.Proofs.Evaluation.Leading
import ScriptHost.Proofs.Evaluation.Tidiness
/-!
What becomes of the failure of a program. Two threads watch the two completions of an evaluation, the follower stands
between them, and all of them may hear of the end of the generation before they hear of the failure. But the script's
completion is full before its job is done, and the generation is open until then; and the follower, which alone has
anything to say about the outcome, looks at that completion before it looks at the generation.
-/
namespace ScriptHost
open Engine (World Answer Thrown)
variable {τ : Type}

namespace Desk
variable {d : Desk τ} {i : Nat} {e : Evaluation}

theorem offerScript_of_empty {r : Except Failure String} (found : d.evaluations[i]? = some e) (empty : e.script.slot = none) :
    d.offerScript i r = (true,d.change i ({ · with script := { e.script with slot := some r } })) := by
  simp [offerScript,Desk.evaluation_eq found,Completion.offer,empty]

theorem offerOutcome_of_empty {r : Except Failure Json} (found : d.evaluations[i]? = some e) (empty : e.outcome.slot = none) :
    d.offerOutcome i r = (true,d.change i ({ · with outcome := { e.outcome with slot := some r } })) := by
  simp [offerOutcome,Desk.evaluation_eq found,Completion.offer,empty]

end Desk

/-- A follower that offers a failure before anybody has offered anything announces it next. -/
theorem Poller.offering_of_empty {v : Poller.View τ} {i : Nat} {e : Evaluation} {f : Failure} {value : Option String}
    (found : v.desk.evaluations[i]? = some e) (empty : e.outcome.slot = none) :
    v.offering i f value =
      (.announces value,{ v with desk := v.desk.change i ({ · with outcome := { e.outcome with slot := some (.error f) } }) }) := by
  simp [View.offering,Desk.offerOutcome_of_empty found empty]

namespace Course

/-- The program of a course has come to its end with a failure. -/
def failing (c : Plan) (p : Course τ) (n : Nat) (f : Failure) (last : World) : Course τ :=
  { p with world := last }.goOn n ((Standing.offersScript (.error f)).doing c)

/-- How far a failing program is, and what its completion knows of the failure. -/
inductive Noted (f : Failure) : Standing → Completion String → Prop where
  | fresh : Noted f (.fresh .script) .fresh
  | offers : Noted f (.offersScript (.error f)) .fresh
  | announces {c : Completion String} (slot : c.slot = some (.error f)) : Noted f .announcesScript c
  | ended {c : Completion String} (slot : c.slot = some (.error f)) (ready : c.ready = true) :
    Noted f (.ended .script) c

/-- Where the follower of a failing program is, and what the outcome knows of the failure. -/
inductive Passed (f : Failure) : Option (Poller (Work τ)) → Completion Json → Prop where
  | unfollowed : Passed f none .fresh
  | awaits : Passed f (some .awaitsScript) .fresh
  | announces {o : Completion Json} (slot : o.slot = some (.error f)) : Passed f (some (.announces none)) o
  | gone {o : Completion Json} (slot : o.slot = some (.error f)) (ready : o.ready = true) : Passed f (some .gone) o

/-- The only errand of an evaluation is its program, number `n`, which has failed if it has come to an end. -/
structure Failing (c : Plan) (n : Nat) (f : Failure) (p : Course τ) (s : Standing) (e : Evaluation) : Prop where
  found : p.desk.evaluations[c.number]? = some e
  only : p.errands = Function.update (fun _ => none) n (some (s.doing c))
  noted : Noted f s e.script
  passed : Passed f p.follower e.outcome

/-- How many turns the job of a failing program still has to take. -/
def toNote : Standing → Nat
  | .offersScript _ => 2
  | .announcesScript => 1
  | _ => 0

/-- How many turns the follower of a failing program still has to take. -/
def toPass : Option (Poller (Work τ)) → Nat
  | none => 3
  | some .awaitsScript => 2
  | some (.announces _) => 1
  | _ => 0

section
variable {c : Plan} {first : Work τ} {backoff : Backoff} {capacity n : Nat} {f : Failure} {p q : Course τ}
  {s : Standing} {e : Evaluation} {t : Turn τ}

theorem Noted.watch {script next : Completion String} {signal : Signal} (noted : Noted f s script)
    (live : script.slot = none → signal.closed = false) (chosen : next ∈ script.watchNext signal) : Noted f s next := by
  cases noted with
  | fresh | offers =>
    rw [Completion.watchNext_fresh (live rfl)] at chosen
    cases chosen
  | announces slot => exact .announces (Completion.slot_watchNext_of_slot chosen slot)
  | ended slot ready =>
    exact .ended (Completion.slot_watchNext_of_slot chosen slot) (Completion.ready_watchNext chosen ready)

/-- Nobody is told of anything but the failure. -/
theorem Noted.wait {script : Completion String} (noted : Noted f s script) :
    script.wait? = none ∨ script.wait? = some (.error f) := by
  cases noted with
  | fresh | offers => exact .inl rfl
  | announces slot | ended slot ready =>
    rw [Completion.wait_of_slot slot]
    cases script.ready
    · exact .inl rfl
    · exact .inr rfl

theorem toPass_le (follower : Option (Poller (Work τ))) : toPass follower ≤ 3 := by
  unfold toPass
  split <;> decide

/-- Nobody is told of anything but the failure. -/
theorem Passed.only {follower : Option (Poller (Work τ))} {outcome : Completion Json} (passed : Passed f follower outcome) :
    (∀ r, outcome.get? = some r → r = .error f) ∧ ∀ r, outcome.wait? = some r → r = .error f := by
  have slot : outcome = .fresh ∨ outcome.slot = some (.error f) := by
    cases passed with
    | unfollowed | awaits => exact .inl rfl
    | announces slot | gone slot ready => exact .inr slot
  rcases slot with rfl | slot
  · exact ⟨fun r told => (by cases told),fun r told => (by cases told)⟩
  · exact ⟨fun r told => Option.some.inj (told.symm.trans slot),fun r => Completion.eq_of_wait slot⟩

theorem Passed.watch {follower : Option (Poller (Work τ))} {outcome next : Completion Json}
    (passed : Passed f follower outcome) (chosen : next ∈ outcome.watchNext ⟨false⟩) : Passed f follower next := by
  cases passed with
  | unfollowed | awaits =>
    rw [Completion.watchNext_fresh rfl] at chosen
    cases chosen
  | announces slot => exact .announces (Completion.slot_watchNext_of_slot chosen slot)
  | gone slot ready =>
    exact .gone (Completion.slot_watchNext_of_slot chosen slot) (Completion.ready_watchNext chosen ready)

/-- A follower that looks around. -/
theorem arrive_of_still {choice : Nat} {g g' : Poller (Work τ)} {v : Poller.View τ} (before : g.submission? = none)
    (after : g'.submission? = none) :
    p.arrive c first choice g g' v = some { p with desk := v.desk, follower := some g' } := by
  simp only [arrive,Poller.errand_of_none after,Poller.action?,before]

namespace Failing

theorem running (failing : Failing c n f p s e) {m : Nat} {d : Doing τ} (running : p.running? c = some (m,d)) :
    m = n ∧ d = s.doing c := by
  have found := errands_of_running running
  rw [failing.only] at found
  by_cases own : m = n
  · subst own
    rw [Function.update_self] at found
    exact ⟨rfl,(Option.some.inj found).symm⟩
  · rw [Function.update_of_ne own] at found
    cases found

theorem errand (failing : Failing c n f p s e) : p.errands n = some (s.doing c) := by
  rw [failing.only,Function.update_self]

/-- Whatever does not touch the evaluation leaves it failing. -/
theorem still (failing : Failing c n f p s e) (desk : q.desk.evaluations[c.number]? = p.desk.evaluations[c.number]?)
    (errands : q.errands = p.errands) (follower : q.follower = p.follower) : Failing c n f q s e :=
  ⟨desk.trans failing.found,errands.trans failing.only,failing.noted,follower ▸ failing.passed⟩

/-- The job of a failing program offers and announces the failure. -/
theorem share (failing : Failing c n f p s e) (taken : p.act c first backoff .share = some q) :
    ∃ s' e', Failing c n f q s' e' ∧ s'.isFresh = false ∧ q.follower = p.follower ∧ toNote s' < toNote s := by
  obtain ⟨generation,script,outcome⟩ := e
  simp only [act] at taken
  split at taken
  · next m d running =>
    obtain ⟨rfl,rfl⟩ := failing.running running
    obtain ⟨found,only,noted,passed⟩ := failing
    have put := fun change : Evaluation → Evaluation => (Desk.puts_change found change).here
    have went : ∀ d : Doing τ, Function.update p.errands m (some d) = Function.update (fun _ => none) m (some d) :=
      fun d => by rw [only,Function.update_idem]
    dsimp only at noted passed
    cases noted with
    | fresh | ended slot ready => cases taken
    | offers =>
      have offered := Desk.offerScript_of_empty (r := (Except.error f : Except Failure Unit).map fun () => c.valueName) found rfl
      simp only [Standing.doing,Standing.rest,Evaluation.offeringScript,offered] at taken
      cases taken
      exact ⟨.announcesScript,_,⟨put _,went _,.announces rfl,passed⟩,rfl,rfl,Nat.lt_add_one 1⟩
    | announces slot =>
      cases taken
      exact ⟨.ended .script,_,⟨put _,went _,.ended slot rfl,passed⟩,rfl,rfl,Nat.lt_add_one 0⟩
  · cases taken

/-- The program comes to its end. -/
theorem compute (failing : Failing c n f p s e) {answers : List Answer} {r : Except Thrown (Work τ)} {last : World}
    (taken : p.act c first backoff (.compute answers r last) = some q) :
    s.isFresh = true ∧ ∃ d, q.errands n = some d ∧ d.started = true := by
  obtain ⟨generation,script,outcome⟩ := e
  simp only [act] at taken
  split at taken
  · next m d running =>
    obtain ⟨rfl,rfl⟩ := failing.running running
    have noted := failing.noted
    dsimp only at noted
    cases noted with
    | fresh =>
      cases taken
      exact ⟨rfl,_,Function.update_self .., rfl⟩
    | offers | announces slot | ended slot ready => cases taken
  · cases taken

/-- The follower of a failing program hands nothing in; it waits for the failure, offers it and announces it. -/
theorem arrive (failing : Failing c n f p s e) {choice : Nat} {g g' : Poller (Work τ)} {v : Poller.View τ}
    (follows : p.follower = some g)
    (chosen : (g.next p.system.isUnderway backoff c.stateName c.number p.view)[choice]? = some (g',v))
    (taken : p.arrive c first choice g g' v = some q) :
    ∃ e', Failing c n f q s e' ∧ toPass q.follower < toPass p.follower := by
  obtain ⟨generation,script,outcome⟩ := e
  obtain ⟨found,only,noted,passed⟩ := failing
  have put := fun change : Evaluation → Evaluation => (Desk.puts_change found change).here
  have member := List.mem_of_getElem? chosen
  have seen : p.view.desk.evaluation c.number = ⟨generation,script,outcome⟩ := Desk.evaluation_eq found
  rw [follows] at passed
  dsimp only at noted passed
  cases passed with
  | awaits =>
    simp only [Poller.next,seen] at member
    rcases noted.wait with none | told
    · rw [none] at member
      cases member
    · rw [told] at member
      cases (List.mem_singleton.mp member).trans (Poller.offering_of_empty (v := p.view) found rfl)
      cases taken
      rw [follows]
      exact ⟨_,⟨put _,only,noted,.announces rfl⟩,Nat.lt_add_one 1⟩
  | announces slot =>
    cases List.mem_singleton.mp member
    cases taken
    rw [follows]
    exact ⟨_,⟨put _,only,noted,.gone slot rfl⟩,Nat.lt_add_one 0⟩
  | gone slot ready => cases member

/-- No turn takes the failure of a program away, or has anything else come of it. -/
theorem act (failing : Failing c n f p s e) (live : e.script.slot = none → p.system.scheduler.isOver c.generation = false)
    (possible : p.Possible c t) (spares : t.Spares) (taken : p.act c first backoff t = some q) :
    (s.isFresh = true ∧ ∃ d, q.errands n = some d ∧ d.started = true) ∨
      ∃ s' e', Failing c n f q s' e' ∧ (s'.isFresh = true → s.isFresh = true) ∧
        toNote s' + toPass q.follower + (if t.isOwn then 1 else 0) ≤ toNote s + toPass p.follower := by
  have put := fun change : Evaluation → Evaluation => (Desk.puts_change failing.found change).here
  have seen := Desk.evaluation_eq failing.found
  cases t with
  | system a =>
    obtain ⟨σ,-,rfl⟩ := Option.map_eq_some_iff.mp taken
    exact .inr ⟨s,e,failing.still rfl rfl rfl,id,Nat.le_refl _⟩
  | elsewhere world desk =>
    cases taken
    exact .inr ⟨s,e,failing.still possible rfl rfl,id,Nat.le_refl _⟩
  | cancel => cases spares
  | compute answers r last => exact .inl (failing.compute taken)
  | share =>
    obtain ⟨s',e',failing,old,follower,less⟩ := failing.share taken
    refine .inr ⟨s',e',failing,fun fresh => (by cases old.symm.trans fresh),?_⟩
    rw [follower]
    simp only [Turn.isOwn,if_true]
    omega
  | watchScript choice =>
    obtain ⟨script,chosen,rfl⟩ := Option.map_eq_some_iff.mp taken
    rw [seen] at chosen
    have noted := failing.noted.watch live (List.mem_of_getElem? chosen)
    exact .inr ⟨s,_,⟨put _,failing.only,noted,failing.passed⟩,id,Nat.le_refl _⟩
  | watchOutcome choice =>
    obtain ⟨outcome,chosen,rfl⟩ := Option.map_eq_some_iff.mp taken
    rw [seen] at chosen
    have passed := failing.passed.watch (List.mem_of_getElem? chosen)
    exact .inr ⟨s,_,⟨put _,failing.only,failing.noted,passed⟩,id,Nat.le_refl _⟩
  | follow =>
    obtain ⟨generation,script,outcome⟩ := e
    have passed := failing.passed
    simp only [Course.act] at taken
    split at taken
    · next none =>
      cases taken
      rw [Option.isNone_iff_eq_none.mp none] at passed ⊢
      dsimp only at passed
      cases passed with
      | unfollowed => exact .inr ⟨s,_,⟨failing.found,failing.only,failing.noted,.awaits⟩,id,Nat.le_refl _⟩
    · cases taken
  | poll choice =>
    obtain ⟨g,follows,taken⟩ := Option.bind_eq_some_iff.mp taken
    obtain ⟨⟨g',v⟩,chosen,taken⟩ := Option.bind_eq_some_iff.mp taken
    obtain ⟨e',failing,less⟩ := failing.arrive follows chosen taken
    refine .inr ⟨s,e',failing,id,?_⟩
    simp only [Turn.isOwn,if_true]
    omega
  | late =>
    obtain ⟨g,follows,taken⟩ := Option.bind_eq_some_iff.mp taken
    obtain ⟨⟨g',v⟩,late,taken⟩ := Option.bind_eq_some_iff.mp taken
    have passed := failing.passed
    rw [follows] at passed
    generalize e.outcome = outcome at passed
    cases passed <;> cases late

/-- Neither the job nor the follower of a failing program stops before everyone knows of the failure. -/
theorem told (failing : Failing c n f p s e) (sound : ∃ k e, Course.Sound c first capacity p k e) (old : s.isFresh = false)
    (waits : p.Waits c first backoff) : e.outcome.slot = some (.error f) ∧ e.outcome.ready = true := by
  obtain ⟨k,e',sound⟩ := sound
  have seen := Desk.evaluation_eq failing.found
  -- while anything is left of the job, it runs, and can go on
  have ended : s = .ended .script ∧ e.script.slot = some (.error f) ∧ e.script.ready = true := by
    have goes : (∃ g, (s.rest c : Work τ) = .share g) → False := by
      rintro ⟨g,rest⟩
      obtain ⟨running,-⟩ := sound.runs_of_started failing.errand (by simpa [Standing.doing] using old)
        (by simp [Standing.doing,rest])
      have stuck := waits .share rfl
      simp [Course.act,running,Standing.doing,rest] at stuck
    have noted := failing.noted
    generalize e.script = script at noted ⊢
    cases noted with
    | fresh => cases old
    | offers | announces slot => exact (goes ⟨_,rfl⟩).elim
    | ended slot ready => exact ⟨rfl,slot,ready⟩
  obtain ⟨rfl,slot,ready⟩ := ended
  have passed := failing.passed
  cases follows : p.follower with
  | none =>
    have stuck := waits .follow rfl
    simp [Course.act,follows] at stuck
  | some g =>
    have stuck : ∀ g' v, (g.next p.system.isUnderway backoff c.stateName c.number p.view)[0]? = some (g',v) →
        g.submission? = none → g'.submission? = none → False := by
      intro g' v chosen before after
      have moved := waits (.poll 0) rfl
      simp [Course.act,follows,chosen,arrive_of_still before after] at moved
    obtain ⟨generation,script,outcome⟩ := e
    rw [follows] at passed
    dsimp only at passed slot ready ⊢
    cases passed with
    | gone slot ready => exact ⟨slot,ready⟩
    | announces full => exact (stuck _ _ rfl rfl rfl).elim
    | awaits =>
      have seen : p.view.desk.evaluation c.number = ⟨generation,script,.fresh⟩ := seen
      have offers : Poller.next p.system.isUnderway backoff c.stateName c.number p.view .awaitsScript =
          [p.view.offering c.number f none] := by
        simp [Poller.next,seen,Completion.wait_of_slot slot,ready,Completion.fresh]
      rw [Poller.offering_of_empty (v := p.view) failing.found rfl] at offers
      exact (stuck _ _ (congrArg (·[0]?) offers) rfl rfl).elim

end Failing

/-! ### Until the program comes to its end -/

theorem ne_script_of_errand {J : Type} {g g' : Poller J} {x : Errand} (hands : g.errand? g' = some x) : x ≠ .script := by
  unfold Poller.errand? at hands
  split at hands <;> cases hands <;> rintro ⟨⟩

/-- A follower hands in no program. -/
theorem script_of_arrive {choice m : Nat} {g g' : Poller (Work τ)} {v : Poller.View τ} {d : Doing τ}
    (taken : p.arrive c first choice g g' v = some q) (found : q.errands m = some d) (script : d.errand = .script) :
    p.errands m = some d := by
  have errands : q.errands = (g.errand? g').elim p.errands fun x =>
      Function.update p.errands p.system.scheduler.serial (some (x.doing c)) := by
    cases hands : g.errand? g' <;> cases action : g.action? c choice g' <;>
      simp only [arrive,hands,action] at taken
    · cases taken
      rfl
    · obtain ⟨σ,-,rfl⟩ := Option.map_eq_some_iff.mp taken
      rfl
    · cases taken
      rfl
    · obtain ⟨σ,-,rfl⟩ := Option.map_eq_some_iff.mp taken
      rfl
  rw [errands] at found
  cases hands : g.errand? g' with
  | none => simpa [hands] using found
  | some x =>
    rw [hands] at found
    by_cases own : m = p.system.scheduler.serial
    · subst own
      rw [Option.elim_some,Function.update_self] at found
      cases found
      exact absurd script (ne_script_of_errand hands)
    · rwa [Option.elim_some,Function.update_of_ne own] at found

/-- A program that has not come to its end was handed in before. -/
theorem script_of_act {m : Nat} {d : Doing τ} (taken : p.act c first backoff t = some q) (found : q.errands m = some d)
    (script : d.errand = .script) (fresh : d.started = false) :
    ∃ d', p.errands m = some d' ∧ d'.errand = .script ∧ d'.started = false := by
  have goes : ∀ {m' : Nat} {d' : Doing τ} {w desk}, q = { p with world := w, desk }.goOn m' d' →
      (d'.errand = .script → d'.started = false → ∃ d, p.errands m' = some d ∧ d.errand = .script ∧ d.started = false) →
      ∃ d', p.errands m = some d' ∧ d'.errand = .script ∧ d'.started = false := by
    rintro m' d' w desk rfl before
    by_cases own : m = m'
    · subst own
      cases (Function.update_self ..).symm.trans found
      exact before script fresh
    · exact ⟨d,(Function.update_of_ne own _ _).symm.trans found,script,fresh⟩
  cases t with
  | system a =>
    obtain ⟨σ,-,rfl⟩ := Option.map_eq_some_iff.mp taken
    exact ⟨d,found,script,fresh⟩
  | compute answers r last =>
    simp only [Course.act] at taken
    split at taken
    · split at taken
      · cases taken
        exact goes rfl fun _ fresh => by cases fresh
      · cases taken
    · cases taken
  | share =>
    simp only [Course.act] at taken
    split at taken
    · next m' d' running =>
      split at taken
      · cases taken
        exact goes rfl fun script fresh => ⟨d',errands_of_running running,script,fresh⟩
      · cases taken
    · cases taken
  | elsewhere world desk | cancel =>
    cases taken
    exact ⟨d,found,script,fresh⟩
  | watchScript choice | watchOutcome choice =>
    obtain ⟨_,-,rfl⟩ := Option.map_eq_some_iff.mp taken
    exact ⟨d,found,script,fresh⟩
  | follow =>
    simp only [Course.act] at taken
    split at taken <;> cases taken
    exact ⟨d,found,script,fresh⟩
  | poll choice | late =>
    obtain ⟨g,-,taken⟩ := Option.bind_eq_some_iff.mp taken
    obtain ⟨⟨g',v⟩,-,taken⟩ := Option.bind_eq_some_iff.mp taken
    exact ⟨d,script_of_arrive taken found script,script,fresh⟩

/-- Unless the generation has ended, nothing was offered or cancelled until the program comes to its end. -/
theorem failing_of_fresh {ts : List (Turn τ)} {start : Course τ} (handed : HandedIn c first capacity start)
    (leads : Leads c first backoff Turn.Spares start ts p) (f : Failure) {d : Doing τ} (found : p.errands n = some d)
    (script : d.errand = .script) (fresh : d.started = false) :
    p.system.scheduler.isOver c.generation = true ∨ ∃ e, Failing c n f p (.fresh .script) e := by
  induction leads generalizing d with
  | start =>
    cases handed with
    | @intro j l σ υ who desk world signal audited free apart taken made bound =>
      have found : Function.update (fun _ => none) σ.scheduler.serial (some (Errand.script.doing c)) n = some d := found
      have own : n = σ.scheduler.serial := by
        by_contra other
        rw [Function.update_of_ne other] at found
        cases found
      subst own
      by_cases closed : signal.closed = true
      · have handle : c.generation ∈ σ.handles := by
          cases System.step_of_act taken with
          | submit free handle => exact handle
        exact .inl (audited.over_step taken handle (bound closed))
      · have blank : (Evaluation.submitted c.generation signal).script = .fresh := by
          simp [Evaluation.submitted,Completion.bound,closed]
        exact .inr ⟨_,made,rfl,blank ▸ .fresh,.unfollowed⟩
  | @act ts p q t leads possible spares taken ih =>
    obtain ⟨d',found',script',fresh'⟩ := script_of_act taken found script fresh
    obtain ⟨k,e',sound⟩ := handed.sound
    obtain ⟨k,e',sound⟩ := leads.sound sound
    rcases ih found' script' fresh' with past | ⟨e,failing⟩
    · exact .inl (over_act sound possible taken past)
    · by_cases past : p.system.scheduler.isOver c.generation = true
      · exact .inl (over_act sound possible taken past)
      · rcases failing.act (fun _ => by simpa using past) possible spares taken with ⟨-,d'',found'',old⟩ | ⟨s',e',failing,-⟩
        · cases found''.symm.trans found
          cases old.symm.trans fresh
        · have same : s'.doing c = d := Option.some.inj (failing.errand.symm.trans found)
          have first : s'.isFresh = true := by simpa [← same,Standing.doing] using fresh
          cases s' with
          | fresh x =>
            cases (congrArg Doing.errand same).trans script
            exact .inr ⟨e',failing⟩
          | _ => cases first

/-! ### After that -/

/-- The program has come to its end with a failure. -/
theorem Failing.ends {k : Nat → Option Standing} {e' : Evaluation} (failing : Failing c n f p (.fresh .script) e)
    (sound : Sound c first capacity p k e') (running : p.running? c = some (n,Errand.script.doing c)) (last : World) :
    Failing c n f (p.failing c n f last) (.offersScript (.error f)) e ∧
      Sound c first capacity (p.failing c n f last) (Function.update k n (some (.offersScript (.error f)))) e' := by
  constructor
  · obtain ⟨generation,script,outcome⟩ := e
    have noted := failing.noted
    dsimp only at noted
    cases noted with
    | fresh =>
      refine ⟨failing.found,?_,.offers,failing.passed⟩
      simp only [Course.failing,goOn,failing.only,Function.update_idem]
  · obtain ⟨runs,s,stands,same⟩ := sound.stands_of_running running
    exact sound.went runs stands same.symm sound.based.found (.refl _ e') (by rintro ⟨⟩)

/-- What comes of a failing program in the end, however its turns and those of others come one after another. -/
theorem Failing.leads {k : Nat → Option Standing} {e' : Evaluation} {ts : List (Turn τ)} (failing : Failing c n f p s e)
    (old : s.isFresh = false) (sound : Sound c first capacity p k e')
    (leads : Leads c first backoff Turn.Spares p ts q) :
    ∃ s' e', Failing c n f q s' e' ∧ s'.isFresh = false ∧
      toNote s' + toPass q.follower + ts.countP Turn.isOwn ≤ toNote s + toPass p.follower := by
  induction leads with
  | start => exact ⟨s,e,failing,old,Nat.le_refl _⟩
  | @act ts q r t leads possible spares taken ih =>
    obtain ⟨s',e',failing,old,bound⟩ := ih
    obtain ⟨k',e'',sound⟩ := leads.sound sound
    -- as long as its completion is empty the program's job runs, and the generation is open
    have live : e'.script.slot = none → q.system.scheduler.isOver c.generation = false := by
      intro empty
      have offers : s' = .offersScript (.error f) := by
        have noted := failing.noted
        generalize e'.script = script at noted empty
        cases noted with
        | fresh => cases old
        | offers => rfl
        | announces slot | ended slot ready => cases empty.symm.trans slot
      subst offers
      exact (sound.runs_of_started failing.errand rfl (by rintro r ⟨⟩)).2
    rcases failing.act live possible spares taken with ⟨fresh,-⟩ | ⟨s'',e'',failing,fresh,less⟩
    · cases old.symm.trans fresh
    · refine ⟨s'',e'',failing,?_,?_⟩
      · by_contra again
        cases old.symm.trans (fresh (by simpa using again))
      · rw [List.countP_cons]
        omega


/-- A program that ends with a failure while its generation is open has the evaluation end with exactly that failure,
    unless somebody cancels it: nobody is ever told of anything else, the job and the follower have five turns to take
    at most, and once they can take none everybody is told of it. -/
theorem outcome_of_failing {start : Course τ} {before after : List (Turn τ)} (handed : HandedIn c first capacity start)
    (led : Leads c first backoff Turn.Spares start before p) (running : p.running? c = some (n,Errand.script.doing c))
    (f : Failure) (last : World) (leads : Leads c first backoff Turn.Spares (p.failing c n f last) after q) :
    (∀ r, (q.desk.evaluation c.number).outcome.get? = some r → r = .error f) ∧
    (∀ r, (q.desk.evaluation c.number).outcome.wait? = some r → r = .error f) ∧
    after.countP Turn.isOwn ≤ 5 ∧
    (q.Waits c first backoff → (q.desk.evaluation c.number).outcome.get? = some (.error f) ∧
      (q.desk.evaluation c.number).outcome.wait? = some (.error f)) := by
  obtain ⟨k,e',sound⟩ := handed.sound
  obtain ⟨k,e',sound⟩ := led.sound sound
  have live := sound.live_of_running running
  obtain ⟨e,fresh⟩ := (failing_of_fresh handed led f (errands_of_running running) rfl rfl).resolve_left (by simp [live])
  obtain ⟨ends,known⟩ := fresh.ends sound running last
  obtain ⟨s,e,failing,old,bound⟩ := ends.leads rfl known leads
  have start : toNote (.offersScript (.error f)) + toPass p.follower ≤ 5 := Nat.add_le_add_left (toPass_le p.follower) 2
  obtain ⟨untold,unwaited⟩ := failing.passed.only
  rw [Desk.evaluation_eq failing.found]
  refine ⟨untold,unwaited,?_,fun waits => ?_⟩
  · exact Nat.le_trans (Nat.le_add_left _ _) (Nat.le_trans bound start)
  · obtain ⟨slot,ready⟩ := failing.told (leads.sound known) old waits
    exact ⟨slot,by rw [Completion.wait_of_slot slot,ready,if_pos rfl]⟩

end

namespace Unsettled

/-- A stop has scripts aborted. -/
def aborted : Failure := .interrupted Stopping.reason

/-- The program is aborted by a stop, which has ended the generation before anybody looks at the failure: both watchers
    and the follower come after that. -/
def shutDown : List (Turn Unit) :=
  List.flatten [[.share,.system (.stop 3)],calls 3 3,[.share],jobDone,List.replicate 8 (.system (.work 1 0)),
    [.watchScript 0,.follow,.poll 0,.poll 0]]

/-- The generation has ended, and neither a job nor a follower is left. -/
def isDeserted (p : Course Unit) : Bool :=
  p.system.scheduler.isOver 1 && (p.running? plan).isNone && p.follower.any Poller.isGone

theorem waits_of_isDeserted {p : Course Unit} (deserted : isDeserted p = true) :
    p.system.scheduler.isOver 1 = true ∧ p.Waits plan .done backoff := by
  simp only [isDeserted,Bool.and_eq_true,Option.isNone_iff_eq_none] at deserted
  obtain ⟨⟨past,idle⟩,gone⟩ := deserted
  obtain ⟨f,follows,gone⟩ := (Option.any_eq_true _ _).mp gone
  have follows : p.follower = some .gone := by
    cases f with
    | gone => exact follows
    | _ => cases gone
  refine ⟨past,fun t own => ?_⟩
  cases t with
  | compute answers r last | share => simp [Course.act,idle]
  | follow | late => simp [Course.act,follows,Poller.late]
  | poll choice => simp [Course.act,follows,Poller.next]
  | _ => cases own

theorem outcome_of_aborted : ∃ (start p q : Course Unit) (before after : List (Turn Unit)) (n : Nat),
    HandedIn plan .done 2 start ∧ Leads plan .done backoff Turn.Spares start before p ∧
    p.running? plan = some (n,Errand.script.doing plan) ∧
    Leads plan .done backoff Turn.Spares (p.failing plan n aborted engine) after q ∧
    q.system.scheduler.isOver 1 = true ∧ (q.desk.evaluation 0).outcome.wait? = some (.error aborted) := by
  obtain ⟨p,ran,reached,here,-⟩ := reached_evaluates
  obtain ⟨start,entered,turns⟩ := Option.bind_eq_some_iff.mp ran
  obtain ⟨n,running⟩ := reached.doing_of_isAt here
  have handed : HandedIn plan .done 2 start := handedIn_enter rfl rfl entered
  have led : Leads plan .done backoff Turn.Spares start _ p := .run .start (by decide) turns
  have facts : (evaluates.bind fun p => (p.running? plan).bind fun (n,_) =>
      (p.failing plan n aborted engine).run plan .done backoff shutDown).any isDeserted = true := by decide +kernel
  rw [ran,Option.bind_some,running,Option.bind_some] at facts
  obtain ⟨q,ended,deserted⟩ := (Option.any_eq_true _ _).mp facts
  have leads : Leads plan .done backoff Turn.Spares _ _ q := .run .start (by decide) ended
  obtain ⟨past,waits⟩ := waits_of_isDeserted deserted
  obtain ⟨-,-,-,told⟩ := outcome_of_failing handed led running aborted engine leads
  exact ⟨start,p,q,_,_,n,handed,led,running,leads,past,(told waits).2⟩

end Unsettled

end Course

end ScriptHost
