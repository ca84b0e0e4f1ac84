import ScriptHost.Proofs.Evaluation.Errands
/-!
Courses from one point to another. What is said of the rest of a course is said of the turns that lead on from
where it is (`Course.Leads`), among them those of the job that runs and of the follower, which are the evaluation's
own.
-/
namespace ScriptHost
open Engine (World Answer Thrown)
variable {τ : Type}

namespace Turn

/-- Nobody asks for the evaluation to be cancelled. -/
def Spares : Turn τ → Prop
  | .cancel => False
  | _ => True

instance : DecidablePred (Spares (τ := τ)) := fun t =>
  match t with
  | .cancel => .isFalse id
  | .system _ | .compute _ _ _ | .share | .elsewhere _ _ | .watchScript _ | .watchOutcome _ | .follow | .poll _ | .late =>
    .isTrue trivial

/-- A turn of the evaluation's job or of its follower. -/
def isOwn : Turn τ → Bool
  | .compute _ _ _ | .share | .follow | .poll _ | .late => true
  | .system _ | .elsewhere _ _ | .cancel | .watchScript _ | .watchOutcome _ => false

end Turn

namespace Course

/-- The program was handed in just now. Its completion is bound to the signal of the generation, as it was before. -/
inductive HandedIn (c : Plan) (first : Work τ) (capacity : Nat) : Course τ → Prop where
  | intro {j : Journal (Work τ)} {l : Ledger (Work τ)} {σ υ : System (Work τ)} {who : Party} {desk : Desk τ}
      {world : World} {signal : Signal} (audited : Audited first capacity j l σ)
      (free : σ.call? (.thread c.thread) = none) (apart : who ≠ .thread c.thread)
      (taken : σ.act first (.submit who c.generation (Errand.script.job c)) = some υ)
      (made : desk.evaluations[c.number]? = some (.submitted c.generation signal))
      (bound : signal.closed = true → σ.scheduler.isOver c.generation = true) :
    HandedIn c first capacity
      { system := υ
        journal := j.after σ υ (.submit who c.generation (Errand.script.job c))
        ledger := l.after σ (.submit who c.generation (Errand.script.job c))
        desk, world
        errands := Function.update (fun _ => none) σ.scheduler.serial (some (Errand.script.doing c)) }

/-- These turns lead from one course to another, the last one first. -/
inductive Leads (c : Plan) (first : Work τ) (backoff : Backoff) (polite : Turn τ → Prop) (p : Course τ) :
    List (Turn τ) → Course τ → Prop where
  | start : Leads c first backoff polite p [] p
  | act {ts : List (Turn τ)} {q r : Course τ} (t : Turn τ) (leads : Leads c first backoff polite p ts q)
      (possible : q.Possible c t) (tact : polite t) (taken : q.act c first backoff t = some r) :
    Leads c first backoff polite p (t :: ts) r

/-- Neither the evaluation's job nor its follower can go on. -/
def Waits (c : Plan) (first : Work τ) (backoff : Backoff) (p : Course τ) : Prop :=
  ∀ t : Turn τ, t.isOwn = true → p.act c first backoff t = none

section
variable {c : Plan} {first : Work τ} {backoff : Backoff} {capacity : Nat} {polite : Turn τ → Prop}
  {p q r : Course τ} {ts us : List (Turn τ)} {t : Turn τ} {k : Nat → Option Standing} {e : Evaluation}

theorem Leads.trans (leads : Leads c first backoff polite p ts q) (on : Leads c first backoff polite q us r) :
    Leads c first backoff polite p (us ++ ts) r := by
  induction on with
  | start => exact leads
  | act t on possible tact taken ih => exact .act t ih possible tact taken

/-- What is known of a course is known of all that it leads to. -/
theorem Leads.sound (leads : Leads c first backoff polite p ts q) (sound : Sound c first capacity p k e) :
    ∃ k' e', Sound c first capacity q k' e' := by
  induction leads with
  | start => exact ⟨k,e,sound⟩
  | act t leads possible tact taken ih =>
    obtain ⟨k',e',sound⟩ := ih
    obtain ⟨k'',e'',step⟩ := step_of_act sound.based possible taken
    exact ⟨k'',e'',sound.step step⟩

theorem handedIn_enter {actions : List (Action (Work τ))} {who : Party} {desk : Desk τ} {world : World} {signal : Signal}
    (made : desk.evaluations[c.number]? = some (.submitted c.generation signal)) (live : signal.closed = false)
    (entered : enter c first capacity actions who desk world = some p) : HandedIn c first capacity p := by
  obtain ⟨j,l,σ,υ,audited,free,apart,taken,rfl⟩ := audited_of_enter entered
  exact .intro audited free apart taken made fun closed => by cases live.symm.trans closed

theorem HandedIn.sound (handed : HandedIn c first capacity p) : ∃ k e, Sound c first capacity p k e := by
  obtain ⟨audited,free,apart,taken,made,bound⟩ := handed
  exact ⟨_,_,sound_handIn audited free apart taken made⟩

/-- Turns that can be taken one after another lead on. -/
theorem Leads.run {turns : List (Turn τ)} (leads : Leads c first backoff polite p ts q)
    (tact : ∀ t ∈ turns, polite t) (ran : q.run c first backoff turns = some r) :
    Leads c first backoff polite p (turns.reverse ++ ts) r := by
  induction turns generalizing q ts with
  | nil =>
    cases ran
    exact leads
  | cons t rest ih =>
    simp only [Course.run] at ran
    split at ran
    · next allowed =>
      obtain ⟨middle,taken,ran⟩ := Option.bind_eq_some_iff.mp ran
      have on := ih (.act t leads (possible_of_allows allowed) (tact t List.mem_cons_self) taken)
        (fun u member => tact u (List.mem_cons_of_mem t member)) ran
      rw [List.reverse_cons,List.append_assoc]
      exact on
    · cases ran

/-- A computation of the job that runs leads on, and so do turns after it. -/
theorem leads_of_leg {x : Errand} {m : World → Engine.Tree (Work τ)} {n : Nat} {answers : List Answer}
    {v : Except Thrown (Work τ)} {last : World} {turns : List (Turn τ)} (running : p.running? c = some (n,x.doing c))
    (job : x.job c = .engine m) (ends : (m p.world).Ends answers v last) (tact : ∀ t, polite t)
    (ran : p.leg c first backoff answers v last turns = some q) :
    Leads c first backoff polite p (turns.reverse ++ [.compute answers v last]) q := by
  obtain ⟨middle,taken,ran⟩ := Option.bind_eq_some_iff.mp ran
  refine Leads.run (.act _ .start (fun n' d m' running' rest => ?_) (tact _) taken) (fun t _ => tact t) ran
  cases running.symm.trans running'
  cases job.symm.trans rest
  exact ends

/-! ### What every turn leaves as it is -/

/-- A generation that has ended stays so. -/
theorem over_act (sound : Sound c first capacity p k e) (possible : p.Possible c t)
    (taken : p.act c first backoff t = some q) (past : p.system.scheduler.isOver c.generation = true) :
    q.system.scheduler.isOver c.generation = true := by
  obtain ⟨k',e',step⟩ := step_of_act sound.based possible taken
  cases step with
  | others apart stepped ends => exact sound.based.audited.over_step stepped sound.based.handle past
  | errand runs stands goes found later => exact past
  | still found later outside quiet knows => exact past
  | handIn follows before after founded stepped =>
    exact sound.based.audited.over_step stepped sound.based.handle past
  | sends follows before after step knows stepped calls =>
    exact sound.based.audited.over_step stepped sound.based.handle past
  | returns follows before after knows stepped =>
    exact sound.based.audited.over_step stepped sound.based.handle past

/-- A job that has computed something and is not at its end is the one that runs, and its generation is open. -/
theorem Sound.runs_of_started {n : Nat} {d : Doing τ} (sound : Sound c first capacity p k e)
    (found : p.errands n = some d) (started : d.started = true) (left : ∀ r, d.rest ≠ .ended r) :
    p.running? c = some (n,d) ∧ p.system.scheduler.isOver c.generation = false := by
  have audited := sound.based.audited
  obtain ⟨s,stands,rfl⟩ := Option.map_eq_some_iff.mp ((sound.based.errands n).symm.trans found)
  have old : s.isFresh = false := by simpa [Standing.doing] using started
  have runs : (p.system.workers c.generation).running? = some n := by
    refine (audited.executed_of_begun (sound.queued.started n s stands old)).resolve_right fun executed => ?_
    have ended := sound.queued.executed n s stands executed
    cases s with
    | ended x => exact left _ rfl
    | _ => cases ended
  have running : p.running? c = some (n,s.doing c) := by simp [running?,runs,found]
  exact ⟨running,audited.live_of_running runs⟩

theorem errands_of_running {n : Nat} {d : Doing τ} (running : p.running? c = some (n,d)) : p.errands n = some d := by
  obtain ⟨m,-,found⟩ := Option.bind_eq_some_iff.mp running
  obtain ⟨d',found,same⟩ := Option.map_eq_some_iff.mp found
  cases same
  exact found

/-- While a job runs its generation is open. -/
theorem Sound.live_of_running {n : Nat} {d : Doing τ} (sound : Sound c first capacity p k e)
    (running : p.running? c = some (n,d)) : p.system.scheduler.isOver c.generation = false :=
  sound.based.audited.live_of_running (sound.stands_of_running running).1

end

end Course

end ScriptHost
