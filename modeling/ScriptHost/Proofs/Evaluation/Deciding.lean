import ScriptHost.Proofs.Engine.Hearing
import ScriptHost.Proofs.Evaluation.Failing
/-!
The look that decides. What the callbacks were told comes to the outcome of an evaluation by looks alone, and the first
look after a call offers what it finds. Nobody has anything to say about the outcome before that, and nobody has anything
else to say after it. So the call that decides is not the first one, but depends on when that look comes: it is the last
rejection before it, or the last fulfilment if there was none.
-/
namespace ScriptHost
open Engine (World Answer Thrown Told Listener)
variable {τ : Type}

namespace Errand

/-- An errand that looks at the outcome. -/
def looksAtOutcome : Errand → Bool
  | .follow _ | .look => true
  | .script | .clean _ => false

/-- An errand comes to look at the outcome, in this world and with these answers left: at once, or when the value was
    handed on and everything that waited for the script to end has run. -/
inductive Looks (c : Plan) (w : World) : Errand → List Answer → World → List Answer → Prop where
  | look {answers : List Answer} : Looks c w .look answers w answers
  | follow {v : String} {first second rest : List Answer} {back middle : World}
      (handed : (Engine.follow v c.stateName w).Ends first (.ok (.ok ())) back)
      (waiting : (Engine.runWaiting Engine.endless back).Ends second (.ok ()) middle) :
    Looks c w (.follow v) (first ++ (second ++ rest)) middle rest

variable {c : Plan} {w middle last : World} {answers rest : List Answer} {x : Errand} {m : World → Engine.Tree (Work τ)}
  {r : Except Thrown (Work τ)}

/-- What comes of an errand is what comes of its look. -/
theorem Looks.ends (looks : x.Looks c w answers middle rest) (job : x.job c = .engine m) (ends : (m w).Ends answers r last) :
    ∃ found, (Engine.outcomeAt c.stateName middle).Ends rest found last ∧ r = found.map (Evaluation.offering c.number) := by
  cases looks with
  | look =>
    cases job
    exact Standing.ends_compute ends
  | @follow v first second rest back middle handed waiting =>
    cases job
    obtain ⟨found,followed,rfl⟩ := Standing.ends_compute ends
    unfold Engine.followAt at followed
    rw [Engine.M.bind_apply] at followed
    have looked := followed.bind_rest handed
    simp only [Engine.M.bind_apply] at looked
    exact ⟨found,looked.bind_rest waiting,rfl⟩

/-- A value that cannot be handed on is a failure. -/
theorem ends_of_follow_failed {v : String} {f : Failure} {back : World} (job : (Errand.follow v).job c = .engine m)
    (failed : (Engine.follow v c.stateName w).Ends answers (.ok (.error f)) back) (ends : (m w).Ends answers r last) :
    r = .ok (Evaluation.offering c.number (some (.error f))) := by
  cases job
  obtain ⟨found,followed,rfl⟩ := Standing.ends_compute ends
  unfold Engine.followAt at followed
  rw [Engine.M.bind_apply,← List.append_nil answers] at followed
  have told := followed.bind_rest failed
  cases told
  rfl

end Errand

namespace Turn

/-- An errand that runs comes upon an outcome. -/
def Finds (c : Plan) : Turn τ → Prop
  | .compute _ r _ => ∃ o, r = .ok (Evaluation.offering c.number (some o))
  | _ => False

/-- The errand that runs looks at the desk. -/
def isShare : Turn τ → Bool
  | .share => true
  | _ => false

/-- The errand that runs goes on. -/
def isJob : Turn τ → Bool
  | .compute _ _ _ | .share => true
  | _ => false

end Turn

namespace Poller

/-- Nothing was settled yet where a follower stands. -/
def isEarly {J : Type} : Poller J → Bool
  | .awaitsScript | .submits _ _ _ _ | .awaitsJob _ _ _ | .turns _ _ | .pauses _ _ => true
  | .awaitsCancelled | .announces _ | .cleans _ | .submitsCleaning _ | .gone => false

/-- While its generation is open a follower has nothing to say about an outcome that nobody has offered, unless the
    script has failed. -/
theorem early_of_next {v w : View τ} {i : Nat} {e : Evaluation} {f g : Poller (Work τ)} {underway : Nat → Bool}
    {backoff : Backoff} {stateName : String} (found : v.desk.evaluations[i]? = some e) (fresh : e.outcome = .fresh)
    (live : v.scheduler.isOver e.generation = false) (early : f.isEarly = true)
    (member : (g,w) ∈ f.next underway backoff stateName i v) :
    (w.desk = v.desk ∧ g.isEarly = true) ∨ ∃ failure, e.script.wait? = some (.error failure) := by
  have quiet : e.outcome.ready = false := fresh ▸ rfl
  cases f with
  | awaitsScript =>
    simp only [next,Desk.evaluation_eq found,quiet,Bool.false_eq_true,if_false] at member
    split at member
    · cases member
    · next failure told => exact .inr ⟨failure,told⟩
    · cases List.mem_singleton.mp member
      exact .inl ⟨rfl,rfl⟩
  | submits serial p value delay =>
    simp only [next] at member
    split at member
    · cases List.mem_singleton.mp member
      exact .inl ⟨rfl,rfl⟩
    · cases List.mem_singleton.mp member
      exact .inl ⟨rfl,rfl⟩
    · obtain ⟨_,-,same⟩ := List.mem_map.mp member
      cases same
      exact .inl ⟨rfl,rfl⟩
  | awaitsJob serial value delay =>
    simp only [next] at member
    split at member
    · cases List.mem_singleton.mp member
      exact .inl ⟨rfl,rfl⟩
    · cases member
  | turns value delay =>
    simp only [next,Desk.evaluation_eq found,quiet,Bool.false_eq_true,if_false] at member
    cases List.mem_singleton.mp member
    exact .inl ⟨rfl,rfl⟩
  | pauses value delay =>
    simp only [next,Desk.evaluation_eq found,quiet,live,Bool.false_eq_true,if_false,List.append_nil] at member
    cases member
  | awaitsCancelled | announces value | cleans value | submitsCleaning p | gone => cases early

end Poller

/-- Something is said about the outcome where an errand stands. -/
def Standing.speaks : Standing → Bool
  | .offers _ _ | .announces _ => true
  | _ => false

namespace Course

/-- No errand has anything to say about the outcome. -/
def Mute (k : Nat → Option Standing) : Prop := ∀ n s, k n = some s → s.speaks = false

/-- Nobody has said anything about the outcome so far, and the follower has seen nothing of it. -/
structure Unheard (p : Course τ) (e : Evaluation) : Prop where
  outcome : e.outcome = .fresh
  follower : ∀ f, p.follower = some f → f.isEarly = true

/-- What an errand has found is said: it is offered first and then announced, with so many looks at the desk left. -/
inductive Decided (o : Except Failure Json) (n : Nat) (x : Errand) (p : Course τ) (k : Nat → Option Standing)
    (e : Evaluation) : Nat → Prop where
  | offers (stands : k n = some (.offers x o)) (value : ∃ v, e.script.slot = some (.ok v)) (unheard : p.Unheard e) :
    Decided o n x p k e 2
  | announces (stands : k n = some (.announces x)) (slot : e.outcome.slot = some o) : Decided o n x p k e 1
  | told (slot : e.outcome.slot = some o) (ready : e.outcome.ready = true) : Decided o n x p k e 0

section
variable {c : Plan} {first : Work τ} {backoff : Backoff} {capacity n m : Nat} {o : Except Failure Json} {x : Errand}
  {p q : Course τ} {k k' : Nat → Option Standing} {e e' : Evaluation} {t : Turn τ} {s : Standing}

theorem Step.later (step : Step c first p k e t q k' e') : e.Later c.valueName e' := by
  cases step with
  | errand runs stands goes found later => exact later
  | still found later outside quiet knows => exact later
  | others | handIn | sends | returns => exact .refl _ e

/-- An errand stands where it stood unless it goes on. -/
theorem Step.stands (step : Step c first p k e t q k' e') (other : t.isJob = false)
    (free : k p.system.scheduler.serial = none) (stands : k n = some s) : k' n = some s := by
  cases step with
  | errand runs stands goes found later => cases goes <;> cases other
  | handIn follows before after founded taken =>
    have apart : n ≠ p.system.scheduler.serial := by
      rintro rfl
      cases free.symm.trans stands
    exact (Function.update_of_ne apart _ _).trans stands
  | others | still | sends | returns => exact stands

/-- An errand that is handed in has nothing to say. -/
theorem Mute.other (mute : Mute k) (step : Step c first p k e t q k' e') (other : t.isJob = false) : Mute k' := by
  cases step with
  | errand runs stands goes found later => cases goes <;> cases other
  | handIn follows before after founded taken =>
    intro m s stands
    by_cases own : m = p.system.scheduler.serial
    · subst own
      cases (Function.update_self ..).symm.trans stands
      rfl
    · exact mute m s ((Function.update_of_ne own _ _).symm.trans stands)
  | others | still | sends | returns => exact mute

theorem Mute.went (mute : Mute k) (quiet : s.speaks = false) : Mute (Function.update k n (some s)) := by
  intro m u stands
  by_cases own : m = n
  · subst own
    cases (Function.update_self ..).symm.trans stands
    exact quiet
  · exact mute m u ((Function.update_of_ne own _ _).symm.trans stands)

theorem arrive_desk {choice : Nat} {f g : Poller (Work τ)} {v : Poller.View τ}
    (taken : p.arrive c first choice f g v = some q) : q.desk = v.desk ∧ q.follower = some g := by
  cases errand : f.errand? g <;> cases action : f.action? c choice g <;>
    simp only [arrive,errand,action] at taken
  · cases taken
    exact ⟨rfl,rfl⟩
  · obtain ⟨σ,-,rfl⟩ := Option.map_eq_some_iff.mp taken
    exact ⟨rfl,rfl⟩
  · cases taken
    exact ⟨rfl,rfl⟩
  · obtain ⟨σ,-,rfl⟩ := Option.map_eq_some_iff.mp taken
    exact ⟨rfl,rfl⟩

/-- Unless the script has failed, only errands have anything to say about the outcome. -/
theorem Unheard.other (unheard : p.Unheard e) (sound : Sound c first capacity p k e)
    (live : p.system.scheduler.isOver c.generation = false) (possible : p.Possible c t) (spares : t.Spares)
    (other : t.isJob = false) (taken : p.act c first backoff t = some q) (found : q.desk.evaluations[c.number]? = some e') :
    (∃ f, e.script.slot = some (.error f)) ∨ q.Unheard e' := by
  have here := sound.based.found
  have seen := Desk.evaluation_eq here
  have open_ : p.view.scheduler.isOver e.generation = false := sound.based.generation ▸ live
  -- whoever leaves the evaluation and the follower alone
  have still : q.desk.evaluations[c.number]? = p.desk.evaluations[c.number]? → q.follower = p.follower →
      q.Unheard e' := by
    intro desk follower
    cases (desk.trans here).symm.trans found
    exact ⟨unheard.outcome,follower ▸ unheard.follower⟩
  have arrived : ∀ {f g v choice}, p.follower = some f → p.arrive c first choice f g v = some q → v.desk = p.desk →
      g.isEarly = true → q.Unheard e' := by
    intro f g v choice follows taken same early
    obtain ⟨desk,follower⟩ := arrive_desk taken
    rw [desk,same] at found
    cases here.symm.trans found
    refine ⟨unheard.outcome,fun f' follows' => ?_⟩
    cases follower.symm.trans follows'
    exact early
  cases t with
  | system a =>
    obtain ⟨σ,-,rfl⟩ := Option.map_eq_some_iff.mp taken
    exact .inr (still rfl rfl)
  | compute answers r last | share => cases other
  | elsewhere world desk =>
    cases taken
    exact .inr (still possible rfl)
  | cancel => cases spares
  | watchScript choice =>
    obtain ⟨script,-,rfl⟩ := Option.map_eq_some_iff.mp taken
    cases (Desk.puts_change here _).here.symm.trans found
    exact .inr ⟨unheard.outcome,unheard.follower⟩
  | watchOutcome choice =>
    obtain ⟨outcome,chosen,-⟩ := Option.map_eq_some_iff.mp taken
    rw [seen,unheard.outcome,Completion.watchNext_fresh rfl] at chosen
    cases chosen
  | follow =>
    simp only [act] at taken
    split at taken <;> cases taken
    cases here.symm.trans found
    refine .inr ⟨unheard.outcome,fun f follows => ?_⟩
    cases follows
    rfl
  | poll choice =>
    obtain ⟨f,follows,taken⟩ := Option.bind_eq_some_iff.mp taken
    obtain ⟨⟨g,v⟩,chosen,taken⟩ := Option.bind_eq_some_iff.mp taken
    rcases Poller.early_of_next here unheard.outcome open_ (unheard.follower f follows) (List.mem_of_getElem? chosen) with
      ⟨same,early⟩ | ⟨failure,told⟩
    · exact .inr (arrived follows taken same early)
    · exact .inl ⟨failure,sound.based.honest.slot_of_wait told⟩
  | late =>
    obtain ⟨f,follows,taken⟩ := Option.bind_eq_some_iff.mp taken
    obtain ⟨⟨g,v⟩,late,taken⟩ := Option.bind_eq_some_iff.mp taken
    cases f with
    | pauses value delay =>
      cases late
      exact .inr (arrived follows taken rfl rfl)
    | _ => cases late

/-- A computation leads to an outcome to be offered, or to nothing that is said about it. -/
theorem speaks_of_compute {w last : World} {desk desk' : Desk τ} {answers : List Answer} {r : Except Thrown (Work τ)}
    {s' : Standing} (goes : s.Goes c w desk (.compute answers r last) s' last desk') :
    s'.speaks = false ∨ ∃ o, (s'.rest c : Work τ) = Evaluation.offering c.number (some o) := by
  have told : ∀ x found, (Standing.told x found).speaks = false ∨
      ∃ o, ((Standing.told x found).rest c : Work τ) = Evaluation.offering c.number (some o) := by
    intro x found
    cases found with
    | none => exact .inl rfl
    | some o => exact .inr ⟨o,rfl⟩
  cases goes with
  | @evaluate answers found =>
    cases found <;> exact .inl rfl
  | @follow v answers found =>
    cases found with
    | ok found => exact told _ found
    | error t => exact .inl rfl
  | @look answers found =>
    cases found with
    | ok found => exact told _ found
    | error t => exact .inl rfl
  | clean ends | drop ends => exact .inl rfl

/-- The program of a course may have failed; otherwise nobody has said anything about the outcome, or is about to. -/
def Undecided (p : Course τ) (k : Nat → Option Standing) (e : Evaluation) : Prop :=
  (∃ f, e.script.slot = some (.error f)) ∨ Mute k ∧ p.Unheard e

/-- As long as no errand comes upon an outcome, none is said. -/
theorem Undecided.act (undecided : p.Undecided k e) (sound : Sound c first capacity p k e)
    (live : p.system.scheduler.isOver c.generation = false) (possible : p.Possible c t) (spares : t.Spares)
    (unfound : ¬t.Finds c) (taken : p.act c first backoff t = some q) :
    ∃ k' e', Sound c first capacity q k' e' ∧ q.Undecided k' e' := by
  rcases undecided with ⟨f,failed⟩ | ⟨mute,unheard⟩
  · obtain ⟨k',e',step⟩ := step_of_act sound.based possible taken
    exact ⟨k',e',sound.step step,.inl ⟨f,step.later.script _ failed⟩⟩
  · cases job : t.isJob with
    | false =>
      obtain ⟨k',e',step⟩ := step_of_act sound.based possible taken
      have sound' := sound.step step
      refine ⟨k',e',sound',?_⟩
      rcases unheard.other sound live possible spares job taken sound'.based.found with ⟨f,failed⟩ | unheard
      · exact .inl ⟨f,step.later.script _ failed⟩
      · exact .inr ⟨mute.other step job,unheard⟩
    | true =>
      cases t with
      | compute answers r last =>
        obtain ⟨n,s,s',runs,stands,goes,rest,rfl⟩ := sound.based.compute possible taken
        have step : Step c first p k e (.compute answers r last) _ _ e :=
          .errand runs stands goes sound.based.found (.refl _ e)
        refine ⟨_,e,sound.step step,.inr ⟨mute.went ?_,unheard.outcome,unheard.follower⟩⟩
        rcases speaks_of_compute goes with quiet | ⟨o,same⟩
        · exact quiet
        · refine absurd ⟨o,?_⟩ unfound
          rw [same] at rest
          cases r with
          | ok next => exact congrArg Except.ok rest
          | error t => cases rest
      | share =>
        obtain ⟨n,s,s',desk,e',runs,stands,goes,found,later,rfl⟩ := sound.based.share taken
        have quiet := mute n s stands
        refine ⟨_,e',sound.step (.errand runs stands goes found later),.inr ?_⟩
        cases goes with
        | offerScript r =>
          cases (Desk.puts_change sound.based.found _).here.symm.trans found
          refine ⟨mute.went ?_,unheard.outcome,unheard.follower⟩
          unfold Standing.offered
          split <;> rfl
        | announceScript =>
          cases (Desk.puts_change sound.based.found _).here.symm.trans found
          exact ⟨mute.went rfl,unheard.outcome,unheard.follower⟩
        | offer x r | announce x => cases quiet
      | _ => cases job

/-- Once an errand has found an outcome it is said, and nothing else. -/
theorem Decided.act (decided : Decided o n x p k e m) (sound : Sound c first capacity p k e)
    (live : p.system.scheduler.isOver c.generation = false) (possible : p.Possible c t) (spares : t.Spares)
    (taken : p.act c first backoff t = some q) :
    ∃ k' e' m', Sound c first capacity q k' e' ∧ Decided o n x q k' e' m' ∧ m' ≤ m - if t.isShare then 1 else 0 := by
  have free := next_free sound.based sound.queued
  -- a job that is not at its end is the one that goes on
  have runs : ∀ {s : Standing}, k n = some s → s.isFresh = false → (∀ r, (s.rest c : Work τ) ≠ .ended r) →
      (p.system.workers c.generation).running? = some n := by
    intro s stands old left
    have found : p.errands n = some (s.doing c) := by rw [sound.based.errands,stands]; rfl
    have running := (sound.runs_of_started found (by simpa [Standing.doing] using old) left).1
    exact (sound.stands_of_running running).1
  cases job : t.isJob with
  | false =>
    have shares : t.isShare = false := by cases t <;> first | rfl | cases job
    obtain ⟨k',e',step⟩ := step_of_act sound.based possible taken
    have sound' := sound.step step
    rw [shares]
    cases decided with
    | offers stands value unheard =>
      obtain ⟨v,value⟩ := value
      refine ⟨k',e',2,sound',.offers (step.stands job free stands) ⟨v,step.later.script _ value⟩ ?_,Nat.le_refl _⟩
      rcases unheard.other sound live possible spares job taken sound'.based.found with ⟨f,failed⟩ | unheard
      · cases value.symm.trans failed
      · exact unheard
    | announces stands slot =>
      exact ⟨k',e',1,sound',.announces (step.stands job free stands) (step.later.outcome.slot _ slot),Nat.le_refl _⟩
    | told slot ready =>
      exact ⟨k',e',0,sound',.told (step.later.outcome.slot _ slot) (step.later.outcome.ready ready),Nat.le_refl _⟩
  | true =>
    cases t with
    | compute answers r last =>
      obtain ⟨n',s,s',here,stands',goes,-,rfl⟩ := sound.based.compute possible taken
      have step : Step c first p k e (.compute answers r last) _ _ e :=
        .errand here stands' goes sound.based.found (.refl _ e)
      cases decided with
      | offers stands | announces stands =>
        cases here.symm.trans (runs stands rfl (by rintro r ⟨⟩))
        cases stands'.symm.trans stands
        cases goes
      | told slot ready => exact ⟨_,e,0,sound.step step,.told slot ready,Nat.le_refl _⟩
    | share =>
      obtain ⟨n',s,s',desk,e',here,stands',goes,found,later,rfl⟩ := sound.based.share taken
      have sound' := sound.step (.errand here stands' goes found later)
      cases decided with
      | offers stands value unheard =>
        cases here.symm.trans (runs stands rfl (by rintro r ⟨⟩))
        cases stands'.symm.trans stands
        cases goes with
        | offer x o =>
          have empty : e.outcome.slot = none := unheard.outcome ▸ rfl
          have offered := Desk.offerOutcome_of_empty (r := o) sound.based.found empty
          rw [offered] at found sound' ⊢
          cases (Desk.puts_change sound.based.found _).here.symm.trans found
          exact ⟨_,_,1,sound',.announces (Function.update_self ..) rfl,Nat.le_refl _⟩
      | announces stands slot =>
        cases here.symm.trans (runs stands rfl (by rintro r ⟨⟩))
        cases stands'.symm.trans stands
        cases goes with
        | announce x =>
          cases (Desk.puts_change sound.based.found _).here.symm.trans found
          exact ⟨_,_,0,sound',.told slot rfl,Nat.le_refl _⟩
      | told slot ready =>
        exact ⟨_,e',0,sound',.told (later.outcome.slot _ slot) (later.outcome.ready ready),Nat.zero_le _⟩
    | _ => cases job

/-- A generation that is open was open before. -/
theorem live_of_act (sound : Sound c first capacity p k e) (possible : p.Possible c t)
    (taken : p.act c first backoff t = some q) (live : q.system.scheduler.isOver c.generation = false) :
    p.system.scheduler.isOver c.generation = false := by
  by_contra past
  cases live.symm.trans (over_act sound possible taken (by simpa using past))

/-- What an errand has found stays the only thing that is said while the generation is open. -/
theorem Decided.leads {us : List (Turn τ)} (decided : Decided o n x p k e m) (sound : Sound c first capacity p k e)
    (leads : Leads c first backoff Turn.Spares p us q) (live : q.system.scheduler.isOver c.generation = false) :
    ∃ k' e' m', Sound c first capacity q k' e' ∧ Decided o n x q k' e' m' ∧ m' ≤ m - us.countP Turn.isShare := by
  induction leads with
  | start => exact ⟨k,e,m,sound,decided,Nat.le_refl _⟩
  | @act us q r t leads possible spares taken ih =>
    obtain ⟨k',e',between⟩ := leads.sound sound
    have before := live_of_act between possible taken live
    obtain ⟨k',e',m',sound,decided,bound⟩ := ih before
    obtain ⟨k'',e'',m'',sound,decided,less⟩ := decided.act sound before possible spares taken
    refine ⟨k'',e'',m'',sound,decided,?_⟩
    rw [List.countP_cons]
    omega

/-- This is the outcome from here on unless somebody cancels the evaluation or the generation ends: nobody is ever told of
    anything else, and everybody is told of it once the job that runs has looked at the desk twice, or neither the
    evaluation's job nor its follower can go on. -/
def Settles (c : Plan) (first : Work τ) (backoff : Backoff) (p : Course τ) (o : Except Failure Json) : Prop :=
  ∀ us q, Leads c first backoff Turn.Spares p us q → q.system.scheduler.isOver c.generation = false →
    (∀ r, (q.desk.evaluation c.number).outcome.get? = some r → r = o) ∧
    (∀ r, (q.desk.evaluation c.number).outcome.wait? = some r → r = o) ∧
    (2 ≤ us.countP Turn.isShare ∨ q.Waits c first backoff → (q.desk.evaluation c.number).outcome.get? = some o ∧
      (q.desk.evaluation c.number).outcome.wait? = some o)

theorem Decided.settles (decided : Decided o n x p k e 2) (sound : Sound c first capacity p k e) :
    p.Settles c first backoff o := by
  intro us q leads live
  obtain ⟨k,e,m,sound,decided,bound⟩ := decided.leads sound leads live
  rw [Desk.evaluation_eq sound.based.found]
  -- a job that still has to look at the desk can do so
  have goes : ∀ {s : Standing}, k n = some s → s.isFresh = false → (∃ g, (s.rest c : Work τ) = .share g) →
      ¬q.Waits c first backoff := by
    rintro s stands old ⟨g,rest⟩ waits
    have found : q.errands n = some (s.doing c) := by rw [sound.based.errands,stands]; rfl
    obtain ⟨running,-⟩ := sound.runs_of_started found (by simpa [Standing.doing] using old) (by simp [Standing.doing,rest])
    have stuck := waits .share rfl
    simp [Course.act,running,Standing.doing,rest] at stuck
  cases decided with
  | offers stands value unheard =>
    rw [unheard.outcome]
    refine ⟨fun r told => (by cases told),fun r told => (by cases told),fun enough => ?_⟩
    rcases enough with twice | waits
    · omega
    · exact absurd waits (goes stands rfl ⟨_,rfl⟩)
  | announces stands slot =>
    refine ⟨fun r told => Option.some.inj (told.symm.trans slot),fun r => Completion.eq_of_wait slot,fun enough => ?_⟩
    rcases enough with twice | waits
    · omega
    · exact absurd waits (goes stands rfl ⟨_,rfl⟩)
  | told slot ready =>
    refine ⟨fun r told => Option.some.inj (told.symm.trans slot),fun r => Completion.eq_of_wait slot,fun _ => ⟨slot,?_⟩⟩
    rw [Completion.wait_of_slot slot,ready,if_pos rfl]

/-! ### The first look after a call -/

/-- What leads from where the program was handed in to a point before any errand has come upon an outcome, with what is
    known there of the calls. -/
inductive Tale (c : Plan) (first : Work τ) (backoff : Backoff) (l : Listener) (start : Course τ) :
    Option (List Told) → Course τ → Prop where
  | start : Tale c first backoff l start none start
  | act {before after : Option (List Told)} {p q : Course τ} (t : Turn τ) (tale : Tale c first backoff l start before p)
      (possible : p.Possible c t) (spares : t.Spares) (unfound : ¬t.Finds c) (taken : p.act c first backoff t = some q)
      (heard : l.Heard c.stateName p.world q.world before after) : Tale c first backoff l start after q

variable {l : Listener} {start : Course τ} {calls : Option (List Told)}

theorem Tale.knows (tale : Tale c first backoff l start calls p) : l.Knows c.stateName p.world calls := by
  induction tale with
  | start => trivial
  | act t tale possible spares unfound taken heard ih => exact ih.heard heard

theorem Tale.leads (tale : Tale c first backoff l start calls p) : ∃ ts, Leads c first backoff Turn.Spares start ts p := by
  induction tale with
  | start => exact ⟨[],.start⟩
  | act t tale possible spares unfound taken heard ih =>
    obtain ⟨ts,leads⟩ := ih
    exact ⟨t :: ts,.act t leads possible spares taken⟩

theorem Tale.sound (tale : Tale c first backoff l start calls p) (handed : HandedIn c first capacity start) :
    ∃ k e, Sound c first capacity p k e := by
  obtain ⟨k,e,sound⟩ := handed.sound
  obtain ⟨ts,leads⟩ := tale.leads
  exact leads.sound sound

/-- Nobody has said anything about the outcome before an errand has come upon one. -/
theorem Tale.undecided (tale : Tale c first backoff l start calls p) (handed : HandedIn c first capacity start)
    (live : p.system.scheduler.isOver c.generation = false) :
    ∃ k e, Sound c first capacity p k e ∧ p.Undecided k e := by
  induction tale with
  | start =>
    cases handed with
    | @intro j l σ υ who desk world signal audited free apart taken made bound =>
      refine ⟨_,_,sound_handIn audited free apart taken made,.inr ⟨fun n s stands => ?_,rfl,by rintro f ⟨⟩⟩⟩
      by_cases own : n = σ.scheduler.serial
      · subst own
        cases (Function.update_self ..).symm.trans stands
        rfl
      · cases (Function.update_of_ne own _ _).symm.trans stands
  | act t tale possible spares unfound taken heard ih =>
    obtain ⟨k,e,known⟩ := tale.sound handed
    have before := live_of_act known possible taken live
    obtain ⟨k,e,sound,undecided⟩ := ih before
    exact undecided.act sound before possible spares unfound taken

/-- An errand that looks at the outcome has a script with a value. -/
theorem Sound.value_of_looking (sound : Sound c first capacity p k e) (running : p.running? c = some (n,x.doing c))
    (looking : x.looksAtOutcome = true) :
    (p.system.workers c.generation).running? = some n ∧ k n = some (.fresh x) ∧ ∃ v, e.script.slot = some (.ok v) := by
  obtain ⟨runs,s,stands,same⟩ := sound.stands_of_running running
  have doing : (s.doing c : Doing τ) = x.doing c := by
    have found := errands_of_running running
    rw [sound.based.errands,stands] at found
    exact Option.some.inj found
  have fresh : s = .fresh x := by
    cases s with
    | fresh y => exact congrArg Standing.fresh same
    | _ => cases congrArg Doing.started doing
  subst fresh
  refine ⟨runs,stands,?_⟩
  have founded := sound.informed.founded x ⟨n,_,stands,rfl⟩
  cases x with
  | follow v => exact ⟨v,founded⟩
  | look =>
    obtain ⟨v,follows⟩ := founded
    exact ⟨v,sound.informed.founded _ follows⟩
  | script | clean => cases looking

/-- Nobody knows of an outcome while the first errand looks that may come upon one. -/
theorem Undecided.unheard (undecided : p.Undecided k e) (sound : Sound c first capacity p k e)
    (running : p.running? c = some (n,x.doing c)) (looking : x.looksAtOutcome = true) : p.Unheard e := by
  obtain ⟨-,-,v,value⟩ := sound.value_of_looking running looking
  rcases undecided with ⟨f,failed⟩ | ⟨-,unheard⟩
  · cases value.symm.trans failed
  · exact unheard

/-- What it comes upon is the outcome. -/
theorem Undecided.settles {answers : List Answer} {last : World} (undecided : p.Undecided k e)
    (sound : Sound c first capacity p k e) (running : p.running? c = some (n,x.doing c))
    (looking : x.looksAtOutcome = true)
    (taken : p.act c first backoff (.compute answers (.ok (Evaluation.offering c.number (some o))) last) = some q) :
    q.Settles c first backoff o := by
  obtain ⟨runs,stands,value⟩ := sound.value_of_looking running looking
  have unheard := undecided.unheard sound running looking
  have went : q = { p with world := last }.goOn n ((Standing.offers x o).doing c) := by
    simp only [Course.act,running] at taken
    cases x <;> cases taken <;> rfl
  subst went
  have decided : Decided o n x ({ p with world := last }.goOn n ((Standing.offers x o).doing c))
      (Function.update k n (some (.offers x o))) e 2 :=
    .offers (Function.update_self ..) value ⟨unheard.outcome,unheard.follower⟩
  exact decided.settles (sound.went runs stands rfl sound.based.found (.refl _ e) (by rintro ⟨⟩))

/-- The first look after a call decides. Nobody knows of an outcome before it. It finds nothing if there was no call yet.
    Otherwise the outcome is what the last rejection comes to among the calls so far, or the last fulfilment if there was
    none, as the value is then; and a failure to hand the value on, with or without calls, is the outcome itself. -/
theorem outcome_of_first_look {answers : List Answer} {r : Except Thrown (Work τ)} {last : World}
    (handed : HandedIn c first capacity start) (tale : Tale c first backoff l start calls p)
    (running : p.running? c = some (n,x.doing c)) (looking : x.looksAtOutcome = true)
    (possible : p.Possible c (.compute answers r last)) (taken : p.act c first backoff (.compute answers r last) = some q) :
    (p.desk.evaluation c.number).outcome.get? = none ∧ (p.desk.evaluation c.number).outcome.wait? = none ∧
    (∀ middle rest told, x.Looks c p.world answers middle rest →
      l.Heard c.stateName p.world middle calls (some told) →
      match Engine.verdict told with
      | none => r = .ok (Evaluation.offering c.number none)
      | some t => ∃ o, (t.outcome middle).Ends rest (.ok o) last ∧ r = .ok (Evaluation.offering c.number (some o)) ∧
        q.Settles c first backoff o) ∧
    ∀ v f back, x = .follow v → (Engine.follow v c.stateName p.world).Ends answers (.ok (.error f)) back →
      q.Settles c first backoff (.error f) := by
  obtain ⟨k,e,known⟩ := tale.sound handed
  obtain ⟨k,e,sound,undecided⟩ := tale.undecided handed (known.live_of_running running)
  have unheard := undecided.unheard sound running looking
  rw [Desk.evaluation_eq sound.based.found,unheard.outcome]
  obtain ⟨m,job⟩ : ∃ m, (x.job c : Work τ) = .engine m := by
    cases x with
    | follow v => exact ⟨_,rfl⟩
    | look => exact ⟨_,rfl⟩
    | script | clean => cases looking
  have ends := possible n _ m running job
  refine ⟨rfl,rfl,fun middle rest told looks heard => ?_,fun v f back same failed => ?_⟩
  · obtain ⟨found,looked,rfl⟩ := looks.ends job ends
    have tells : l.Tells c.stateName middle told := tale.knows.heard heard
    rcases tells.ends_outcomeAt looked with ⟨silent,rfl⟩ | ⟨t,o,decides,comes,rfl⟩
    · rw [silent]
      rfl
    · rw [decides]
      exact ⟨o,comes,rfl,undecided.settles sound running looking taken⟩
  · subst same
    cases Errand.ends_of_follow_failed job failed ends
    exact undecided.settles sound running looking taken

/-! ### Runs -/

/-- Turns that compute nothing come upon no outcome and call nothing. -/
theorem Tale.run {turns : List (Turn τ)} (tale : Tale c first backoff l start calls p) (tact : ∀ t ∈ turns, t.Spares)
    (ran : p.run c first backoff turns = some q) : Tale c first backoff l start calls q := by
  induction turns generalizing p with
  | nil =>
    cases ran
    exact tale
  | cons t rest ih =>
    simp only [Course.run] at ran
    split at ran
    · next allowed =>
      obtain ⟨middle,taken,ran⟩ := Option.bind_eq_some_iff.mp ran
      have unfound : ¬t.Finds c := by
        cases t with
        | compute answers r last => cases allowed
        | _ => exact id
      refine ih (.act t tale (possible_of_allows allowed) (tact t List.mem_cons_self) unfound taken ?_)
        (fun u member => tact u (List.mem_cons_of_mem t member)) ran
      rw [world_act allowed taken]
      exact .refl ..
    · cases ran

/-- The errand that runs computes without coming upon an outcome, and turns come after that. -/
theorem Tale.leg {after : Option (List Told)} {m : World → Engine.Tree (Work τ)} {answers : List Answer}
    {v : Except Thrown (Work τ)} {last : World} {turns : List (Turn τ)} (tale : Tale c first backoff l start calls p)
    (running : p.running? c = some (n,x.doing c)) (job : x.job c = .engine m) (ends : (m p.world).Ends answers v last)
    (unfound : ∀ o, v ≠ .ok (Evaluation.offering c.number (some o)))
    (heard : l.Heard c.stateName p.world last calls after) (tact : ∀ t ∈ turns, t.Spares)
    (ran : p.leg c first backoff answers v last turns = some q) :
    Tale c first backoff l start after q ∧ q.world = last := by
  obtain ⟨middle,taken,ran⟩ := Option.bind_eq_some_iff.mp ran
  have possible : p.Possible c (.compute answers v last) := by
    intro n' d m' running' rest
    cases running.symm.trans running'
    cases job.symm.trans rest
    exact ends
  have computed : middle.world = last := by
    simp only [Course.act,running,Errand.doing,job] at taken
    cases taken
    rfl
  refine ⟨Tale.run (.act _ tale possible trivial ?_ taken (computed ▸ heard)) tact ran,(world_run ran).trans computed⟩
  rintro ⟨o,same⟩
  exact unfound o same

end

namespace Unsettled

/-- The state object is the one that is kept, and there are callbacks for it. -/
def listener : Listener := ⟨40,0,fun rejects => if rejects then 42 else 41⟩

/-- The value was handed on, and the callbacks were made where the state object is a variable. -/
def listening : World := { stateful with
  heap := (stateful.heap.push { proto := .null, kind := .closure (Engine.callbackClosure false 0 0) }).push
    { proto := .null, kind := .closure (Engine.callbackClosure true 0 0) }
  scopes := #[⟨#[⟨"state",.obj 40,.var⟩],none,.plain⟩] }

/-- A promise is fulfilled. -/
def kept : Told := ⟨false,.undefined⟩

/-- A promise is rejected, with an empty text. -/
def refused : Told := ⟨true,.str ""⟩

/-- What the rejection is. -/
def refusal : Failure := .nonErrorRejection "" "string"

/-- The callback of a fulfilment was called. -/
def fulfilled : World := listening.noted 40 kept.notes

/-- The callback of a rejection was called after that. -/
def rejected : World := fulfilled.noted 40 refused.notes

/-- The value was handed on, and the follower is about to have another look. -/
def listens : Option (Course Unit) :=
  handsOn.bind (·.leg plan .done backoff [(.ok .undefined,listening),(.ok .undefined,listening)] (.ok .done) listening
    (List.flatten [jobDone,polls 2,[.late],polls 4,worker]))

/-- The generation has not ended. -/
def isOpen (p : Course Unit) : Bool := !p.system.scheduler.isOver plan.generation

theorem outcome_kept (w : World) : kept.outcome w = .ok (.ok .null) w := rfl

theorem outcome_refused (w : World) : refused.outcome w = .ok (.error refusal) w := by
  have plain : "".any Text.isStandIn = false := by simp [String.any]
  have fine : Engine.asText "" = .ok "" := by simp [Engine.asText,Text.wellFormed?,plain]
  have said : Engine.toText (.str "") w = .ok "" w := rfl
  have text : Engine.coerceText (.str "") w = .ok (.ok "") w :=
    (Engine.M.bind_of_ok (Engine.outcome_of_ok said)).trans (congrArg (Engine.Tree.ok · w) fine)
  have shown : Engine.displayText (.str "") w = .ok (.ok "") w := Engine.M.bind_of_ok text
  have error : Engine.isError (.str "") w = .ok false w := rfl
  have kind : Engine.kindName (.str "") w = .ok "string" w := rfl
  have classified : Engine.classifyRejection (.str "") w = .ok refusal w := by
    refine (Engine.M.bind_of_ok error).trans ((Engine.M.bind_of_ok kind).trans ((Engine.M.bind_of_ok shown).trans ?_))
    rfl
  exact Engine.M.bind_of_ok classified

theorem tells_listening : listener.Tells "state" listening [] := by
  refine ⟨⟨fun rejects => ⟨0,?_⟩,⟨_,0,_,rfl,rfl,rfl,rfl⟩⟩,⟨by decide,rfl,?_⟩,⟨by decide,rfl,?_,.top nofun⟩,rfl,by decide,
    by decide⟩
  · cases rejects <;> rfl
  · intro name member
    simp only [Engine.stateNames,List.mem_cons,List.not_mem_nil,or_false] at member
    rcases member with rfl | rfl | rfl | rfl <;> rfl
  · intro s found
    have kept : listening.kept? "state" = some (.data (.obj 40) .full) := by rfl
    cases kept.symm.trans found
    exact ⟨_,rfl⟩

/-- Somebody calls a callback. -/
theorem hears_call {w : World} {told : List Told} (tells : listener.Tells "state" w told) (t : Told)
    (there : t.value ≠ .absent) : listener.Hears "state" w [t] (w.noted 40 t.notes) := by
  let args : Array Engine.Value := #[t.value]
  have there : Listener.argument args ≠ .absent := there
  have called := tells.ready.call_undefined tells.stated there t.rejects
  have ends : (Engine.callValue (.obj (listener.callback t.rejects)) .undefined args w).Ends [] (.ok .undefined)
      (w.noted 40 t.notes) := by
    rw [called]
    exact .ok
  exact .call .start there ends

/-- A look finds what the call comes to that decides. -/
theorem ends_look {w : World} {told : List Told} {t : Told} {o : Except Failure Json}
    (tells : listener.Tells "state" w told) (decides : Engine.verdict told = some t) (comes : t.outcome w = .ok o w) :
    (Engine.outcomeAt "state" w).Ends [] (.ok (some o)) w := by
  have found : Engine.report told w = .ok (some o) w := by
    unfold Engine.report
    rw [decides]
    exact Engine.M.bind_of_ok comes
  rw [tells.outcomeAt,found]
  exact .ok

example : (Engine.verdict [kept,refused,kept]).any (·.rejects) = true := by decide +kernel

/-- The program has a value, and no outcome. -/
theorem value_ne_outcome (o : Except Failure Json) :
    (Evaluation.offeringScript 0 "value" (.ok ()) : Work Unit) ≠ Evaluation.offering 0 (some o) := by
  intro same
  let desk : Desk Unit := { evaluations := #[.submitted 1 ⟨false⟩], own := () }
  have shared : (desk.offerScript 0 (.ok "value")).2 = (desk.offerOutcome 0 o).2 := by
    injection same with same
    exact congrArg (fun f => (f desk).1) same
  have slot : ((desk.offerScript 0 (.ok "value")).2.evaluation 0).outcome.slot =
      ((desk.offerOutcome 0 o).2.evaluation 0).outcome.slot := by rw [shared]
  cases slot

/-- The value was handed on, and nothing was called yet. -/
theorem tale_listens : ∃ (start p : Course Unit) (n : Nat), HandedIn plan .done 2 start ∧
    Tale plan .done backoff listener start (some []) p ∧ listens = some p ∧
    p.running? plan = some (n,Errand.look.doing plan) ∧ p.world = listening := by
  obtain ⟨p,evaluated,reached,here,world⟩ := reached_evaluates
  obtain ⟨start,entered,turns⟩ := Option.bind_eq_some_iff.mp evaluated
  have handed : HandedIn plan .done 2 start := handedIn_enter rfl rfl entered
  have tale : Tale plan .done backoff listener start none p := Tale.run .start (by decide) turns
  obtain ⟨n,running⟩ := reached.doing_of_isAt here
  obtain ⟨p',handing,reached,here,world'⟩ := reached_handsOn
  have ran := handing
  unfold handsOn at ran
  rw [evaluated,Option.bind_some] at ran
  have unfound : ∀ o, (.ok (Evaluation.offeringScript 0 "value" (.ok ())) : Except Thrown (Work Unit)) ≠
      .ok (Evaluation.offering 0 (some o)) := fun o same => value_ne_outcome o (Except.ok.inj same)
  obtain ⟨tale,-⟩ := tale.leg running rfl (world ▸ Standing.ends_compute_ok ends_evaluateInto) unfound .before (by decide) ran
  obtain ⟨n,running⟩ := reached.doing_of_isAt here
  have facts : listens.any (·.isAt plan .look) = true := by decide +kernel
  obtain ⟨p'',ran,here⟩ := (Option.any_eq_true _ _).mp facts
  have listened := ran
  unfold listens at ran
  rw [handing,Option.bind_some] at ran
  have silent : (Engine.followAt "value" "state" valued).Ends [(.ok .undefined,listening),(.ok .undefined,listening)]
      (.ok none) listening := .ask (.ask .ok)
  obtain ⟨tale,world⟩ := tale.leg running rfl (world' ▸ Standing.ends_compute_ok silent) (fun o same => by cases same)
    (.handedOn tells_listening .start) (by decide) ran
  obtain ⟨k,e,sound⟩ := tale.sound handed
  obtain ⟨n,running⟩ := sound.doing_of_isAt here
  exact ⟨start,p'',n,handed,tale,listened,running,world⟩

theorem hears_kept : listener.Hears "state" listening [kept] fulfilled := hears_call tells_listening kept nofun

theorem hears_refused : listener.Hears "state" fulfilled [refused] rejected :=
  hears_call (tells_listening.hears hears_kept) refused nofun

section
variable {start p : Course Unit} {n : Nat} {told : List Told} {t : Told} {o : Except Failure Json}

/-- One callback is called, and then the other one. -/
theorem tales_of_calls (tale : Tale plan .done backoff listener start (some []) p) (world : p.world = listening) :
    Tale plan .done backoff listener start (some [kept]) { p with world := fulfilled } ∧
      Tale plan .done backoff listener start (some [refused,kept]) { p with world := rejected } := by
  have first : listener.Hears "state" p.world [kept] fulfilled := world ▸ hears_kept
  have fulfilling : Tale plan .done backoff listener start (some [kept]) { p with world := fulfilled } :=
    .act (.elsewhere fulfilled p.desk) tale rfl trivial id rfl (.more first)
  exact ⟨fulfilling,.act (.elsewhere rejected p.desk) fulfilling rfl trivial id rfl (.more hears_refused)⟩

/-- The follower looks once the callbacks were called. -/
theorem possible_of_calls (tale : Tale plan .done backoff listener start (some told) p)
    (running : p.running? plan = some (n,Errand.look.doing plan)) (decides : Engine.verdict told = some t)
    (comes : t.outcome p.world = .ok o p.world) :
    p.Possible plan (.compute [] (.ok (Evaluation.offering 0 (some o))) p.world) := by
  intro n' d m running' engine
  cases running.symm.trans running'
  cases engine
  exact Standing.ends_compute_ok (ends_look tale.knows decides comes)

theorem taken_of_calls (running : p.running? plan = some (n,Errand.look.doing plan)) (o : Except Failure Json)
    (last : World) : ∃ q, p.act plan .done backoff (.compute [] (.ok (Evaluation.offering 0 (some o))) last) = some q := by
  simp only [Course.act,running]
  exact ⟨_,rfl⟩

/-- Everybody is told what it finds. -/
theorem told_of_calls (handed : HandedIn plan .done 2 start)
    (tale : Tale plan .done backoff listener start (some told) p)
    (running : p.running? plan = some (n,Errand.look.doing plan)) (decides : Engine.verdict told = some t)
    (comes : t.outcome p.world = .ok o p.world)
    (open_ : (p.leg plan .done backoff [] (.ok (Evaluation.offering 0 (some o))) p.world [.share,.share]).any
      isOpen = true) :
    ∃ ts q, Leads plan .done backoff Turn.Spares p ts q ∧ q.world = p.world ∧
      (q.desk.evaluation 0).outcome.wait? = some o := by
  obtain ⟨q,ran,live⟩ := (Option.any_eq_true _ _).mp open_
  obtain ⟨middle,taken,ran⟩ := Option.bind_eq_some_iff.mp ran
  have possible := possible_of_calls tale running decides comes
  obtain ⟨k,e,sound⟩ := tale.sound handed
  obtain ⟨k,e,sound,undecided⟩ := tale.undecided handed (sound.live_of_running running)
  have settles := undecided.settles sound running rfl taken
  have shares : Leads plan .done backoff Turn.Spares middle _ q := .run .start (by decide) ran
  obtain ⟨-,-,told⟩ := settles _ q shares (by simpa [isOpen] using live)
  have computed : middle.world = p.world := by
    simp only [Course.act,running] at taken
    cases taken
    rfl
  exact ⟨_,q,.run (.act _ .start possible trivial taken) (by decide) ran,(world_run ran).trans computed,
    (told (.inl (Nat.le_refl 2))).2⟩

end

/-- A promise that is fulfilled and then rejected, before anybody looks, is rejected. -/
theorem outcome_of_rejected_later : ∃ (start p q : Course Unit) (n : Nat), HandedIn plan .done 2 start ∧
    Tale plan .done backoff listener start (some [refused,kept]) p ∧
    p.running? plan = some (n,Errand.look.doing plan) ∧
    p.act plan .done backoff (.compute [] (.ok (Evaluation.offering 0 (some (.error refusal)))) p.world) = some q ∧
    (p.desk.evaluation 0).outcome.get? = none ∧ q.Settles plan .done backoff (.error refusal) := by
  obtain ⟨start,p,n,handed,tale,-,running,world⟩ := tale_listens
  obtain ⟨-,tale⟩ := tales_of_calls tale world
  have possible := possible_of_calls tale running rfl (outcome_refused rejected)
  obtain ⟨q,taken⟩ := taken_of_calls running (.error refusal) rejected
  obtain ⟨unknown,-,decides,-⟩ := outcome_of_first_look handed tale running rfl possible taken
  obtain ⟨o,comes,-,settles⟩ := decides rejected [] [refused,kept] .look (.more .start)
  rw [outcome_refused] at comes
  cases comes
  exact ⟨start,_,_,n,handed,tale,running,taken,unknown,settles⟩

/-- Two runs that differ only in when the follower looks. A callback of a fulfilment is called and then that of a
    rejection; a look between them has the evaluation end with the value, and a look after both with the rejection. -/
theorem outcome_depends_on_look : ∃ (start p q p' q' : Course Unit) (ts ts' : List (Turn Unit)),
    HandedIn plan .done 2 start ∧
    Tale plan .done backoff listener start (some [kept]) p ∧ Leads plan .done backoff Turn.Spares p ts q ∧
    listener.Hears "state" p.world [refused] q.world ∧ (q.desk.evaluation 0).outcome.wait? = some (.ok .null) ∧
    Tale plan .done backoff listener start (some [refused,kept]) p' ∧ Leads plan .done backoff Turn.Spares p' ts' q' ∧
    q'.world = q.world ∧ (q'.desk.evaluation 0).outcome.wait? = some (.error refusal) := by
  obtain ⟨start,p,n,handed,tale,listened,running,world⟩ := tale_listens
  obtain ⟨between,after⟩ := tales_of_calls tale world
  have facts : listens.any (fun p =>
      ({ p with world := fulfilled }.leg plan .done backoff [] (.ok (Evaluation.offering 0 (some (.ok .null)))) fulfilled
        [.share,.share]).any isOpen &&
      ({ p with world := rejected }.leg plan .done backoff [] (.ok (Evaluation.offering 0 (some (.error refusal)))) rejected
        [.share,.share]).any isOpen) = true := by decide +kernel
  rw [listened,Option.any_some,Bool.and_eq_true] at facts
  obtain ⟨ts,q,led,same,told⟩ := told_of_calls handed between running rfl (outcome_kept fulfilled) facts.1
  obtain ⟨ts',q',led',same',told'⟩ := told_of_calls handed after running rfl (outcome_refused rejected) facts.2
  have called : Leads plan .done backoff Turn.Spares { p with world := fulfilled } _ { q with world := rejected } :=
    .act (.elsewhere rejected q.desk) led rfl trivial rfl
  exact ⟨start,_,_,_,q',_,ts',handed,between,called,hears_refused,told,after,led',same',told'⟩

end Unsettled

end Course

end ScriptHost
