import ScriptHost.Proofs.Scheduler.Delivery
/-!
One job after another. A worker runs the jobs of its generation in the order in which they entered the queue, and
comes to the end of one before it begins with the next. So while it runs a job, whatever was ahead of this job in
the queue has been run to its end, unless a stop has dropped it, and whatever was behind it has not been begun with.
The job that it runs is the one that was handed in under its number (`Audited.began_of_called`).
-/
namespace ScriptHost
variable {J : Type}

section
variable {α : Type} {l : List α} {a b : α}

theorem Before.append (before : Before l a b) (newer : List α) : Before (newer ++ l) a b :=
  List.Sublist.trans before (List.sublist_append_right newer l)

/-- What is new comes after what was there. -/
theorem before_append {newer : List α} (old : a ∈ l) (new : b ∈ newer) : Before (newer ++ l) a b :=
  List.Sublist.append (List.singleton_sublist.mpr new) (List.singleton_sublist.mpr old)

theorem Before.ne (before : Before l a b) (nodup : l.Nodup) : b ≠ a := by
  have pair : [b,a].Nodup := nodup.sublist before
  simpa using pair

/-- What comes before the newest entry is among the others. -/
theorem Before.mem_tail (before : Before (b :: l) a b) (nodup : (b :: l).Nodup) : a ∈ l :=
  (List.mem_cons.mp before.mem.1).resolve_left (before.ne nodup).symm

/-- Nothing comes after the newest entry. -/
theorem Before.not_newest (nodup : (a :: l).Nodup) : ¬Before (a :: l) a b := by
  intro before
  rcases before_cons.mp before with before | ⟨rfl,member⟩
  · exact (List.nodup_cons.mp nodup).1 before.mem.1
  · exact (List.nodup_cons.mp nodup).1 member

end

/-- Jobs come in the order of their envelopes. -/
theorem Before.jobsOf {envelopes : List (Envelope J)} {e f : Envelope J} {x y : J} (before : Before envelopes e f)
    (job : e.task = .job x) (job' : f.task = .job y) : Before (jobsOf envelopes) e.serial f.serial := by
  have picked : (ScriptHost.jobsOf [f,e]).Sublist (ScriptHost.jobsOf envelopes) := before.filterMap _
  have pair : ScriptHost.jobsOf [f,e] = [f.serial,e.serial] := by simp [ScriptHost.jobsOf,job,job']
  rwa [pair] at picked

/-- A step leaves what is told to all others alone. -/
theorem Ledger.pending_after (l : Ledger J) {first : J} {σ τ : System J} {a : Action J}
    (step : System.Step first σ a τ) {who : Party} (other : ¬a.Concerns who) :
    (l.after σ a).pending who = l.pending who := by
  cases step with
  | submit free taken => exact Function.update_of_ne other _ _
  | handOver called free => exact Function.update_of_ne (fun same => other (.inl same)) _ _
  | «return» called past =>
    rcases l.after_return called past with ⟨b,-,same⟩ | ⟨-,same⟩
    · rw [same]
      exact Function.update_of_ne other _ _
    · rw [same]
  | _ => rfl

namespace Audited
variable {first : J} {capacity g n : Nat} {j : Journal J} {l : Ledger J} {σ τ : System J} {a : Action J} {e f : Envelope J}

/-- A generation that there is a handle of has been opened. -/
theorem opened (audited : Audited first capacity j l σ) (handle : g ∈ σ.handles) : g ≤ σ.scheduler.generation :=
  audited.journaled.begins.dated.known g (.inl handle)

/-- What has ended has ended for good. -/
theorem over_step (audited : Audited first capacity j l σ) (taken : σ.act first a = some τ) (handle : g ∈ σ.handles)
    (past : σ.scheduler.isOver g = true) : τ.scheduler.isOver g = true := by
  have reached := audited.journaled.reachable
  have after := System.Reachable.act a reached taken
  exact System.ended_step (System.orderly_of_reachable reached) (System.orderly_of_reachable after)
    (System.sound_of_reachable after) (System.step_of_act taken) (audited.opened handle) past

/-- What runs has been begun with. -/
theorem begun_of_running (audited : Audited first capacity j l σ) (runs : (σ.workers g).running? = some n) :
    n ∈ jobsOf (begun g σ.history) := by
  rw [audited.finishes g,runs]
  exact List.mem_cons_self

/-- What was begun with runs or has been run to its end. -/
theorem executed_of_begun (audited : Audited first capacity j l σ) (began : n ∈ jobsOf (begun g σ.history)) :
    (σ.workers g).running? = some n ∨ (g,n) ∈ l.executed := by
  rw [audited.finishes g] at began
  rcases List.mem_append.mp began with runs | executed
  · exact .inl (Option.mem_toList.mp runs)
  · exact .inr (mem_executedBy.mp executed)

/-- What has been run to its end was begun with. -/
theorem begun_of_executed (audited : Audited first capacity j l σ) (executed : (g,n) ∈ l.executed) :
    n ∈ jobsOf (begun g σ.history) := by
  rw [audited.finishes g]
  exact List.mem_append_right _ (mem_executedBy.mpr executed)

theorem jobs_nodup (audited : Audited first capacity j l σ) (g : Nat) : (jobsOf (begun g σ.history)).Nodup :=
  (audited.journaled.begun_nodup g).sublist (jobsOf_sublist _)

/-- The job that runs is the newest one that was begun with. -/
theorem jobs_of_running (audited : Audited first capacity j l σ) (runs : (σ.workers g).running? = some n) :
    jobsOf (begun g σ.history) = n :: executedBy g l.executed := by
  rw [audited.finishes g,runs]
  rfl

/-- What runs has not come to its end. -/
theorem not_executed_of_running (audited : Audited first capacity j l σ) (runs : (σ.workers g).running? = some n) :
    (g,n) ∉ l.executed := by
  have nodup := audited.jobs_nodup g
  rw [audited.jobs_of_running runs] at nodup
  exact fun executed => (List.nodup_cons.mp nodup).1 (mem_executedBy.mpr executed)

/-- The generation of a job that runs has not ended. -/
theorem live_of_running (audited : Audited first capacity j l σ) (runs : (σ.workers g).running? = some n) :
    σ.scheduler.isOver g = false := by
  have sound := System.sound_of_reachable audited.journaled.reachable
  cases place : σ.workers g with
  | runs m c => exact (place ▸ sound.workers g : Worker.Fits σ.situation g (.runs m c))
  | _ => simp [place,Worker.running?] at runs

/-- Only the end of the job that runs is added to what has been run. -/
theorem executed_step (step : System.Step first σ a τ) (executed : (g,n) ∈ (l.after σ a).executed) :
    (g,n) ∈ l.executed ∨ (∃ panicked, a = .finish g panicked) ∧ (σ.workers g).running? = some n := by
  cases step with
  | @finish h m panicked place =>
    rcases List.mem_append.mp executed with new | old
    · simp only [place,Worker.running?,Option.map_some,Option.toList_some,List.mem_singleton,Prod.mk.injEq] at new
      obtain ⟨rfl,rfl⟩ := new
      exact .inr ⟨⟨panicked,rfl⟩,by rw [place]; rfl⟩
    · exact .inl old
  | «return» called past =>
    rcases l.after_return called past with ⟨b,-,same⟩ | ⟨-,same⟩
    · rw [same] at executed
      exact .inl executed
    · rw [same] at executed
      exact .inl executed
  | _ => exact .inl executed

/-- An envelope that was begun with is the one that has entered the queue under its number. -/
theorem begun_of_entered (audited : Audited first capacity j l σ) (entered_ : e ∈ entered σ.history)
    (began : e.serial ∈ jobsOf (begun g σ.history)) : e ∈ begun g σ.history := by
  obtain ⟨f,member,-,same⟩ := mem_jobsOf.mp began
  rwa [← audited.journaled.entered_inj (audited.journaled.entered_of_begun member) entered_ same]

/-- What was ahead of a job that was begun with was begun with before it, unless a stop has dropped it. -/
theorem jobs_before (audited : Audited first capacity j l σ) (ahead : Before (entered σ.history) e f)
    (own : e.generation = g) {x : J} (job : e.task = .job x) (kept : ∀ h, (.drained h,e) ∉ j.left)
    (began : f.serial ∈ jobsOf (begun g σ.history)) :
    Before (begun g σ.history) e f ∧ Before (jobsOf (begun g σ.history)) e.serial f.serial := by
  have journaled := audited.journaled
  obtain ⟨f',member,⟨y,job'⟩,same⟩ := mem_jobsOf.mp began
  cases journaled.entered_inj (journaled.entered_of_begun member) ahead.mem.2 same
  have other : f ≠ e := ahead.ne (journaled.ordered.single.nodup.of_map _)
  subst own
  have before : Before (begun e.generation σ.history) e f :=
    journaled.begins.begun_before journaled.ordered ahead member other (journaled.begun_own member) kept
  exact ⟨before,before.jobsOf job job'⟩

/-- While a worker runs a job, what was ahead of it in the queue has been run to its end. -/
theorem executed_of_ahead (audited : Audited first capacity j l σ) (runs : (σ.workers g).running? = some f.serial)
    (ahead : Before (entered σ.history) e f) (own : e.generation = g) {x : J} (job : e.task = .job x)
    (kept : ∀ h, (.drained h,e) ∉ j.left) : Before (begun g σ.history) e f ∧ (g,e.serial) ∈ l.executed := by
  obtain ⟨before,serials⟩ := audited.jobs_before ahead own job kept (audited.begun_of_running runs)
  have nodup := audited.jobs_nodup g
  rw [audited.jobs_of_running runs] at serials nodup
  exact ⟨before,mem_executedBy.mp (serials.mem_tail nodup)⟩

/-- While a worker runs a job, what is behind it in the queue has not been begun with. -/
theorem not_begun_of_behind (audited : Audited first capacity j l σ) (runs : (σ.workers g).running? = some e.serial)
    (ahead : Before (entered σ.history) e f) (own : e.generation = g) {x : J} (job : e.task = .job x) :
    f.serial ∉ jobsOf (begun g σ.history) := by
  intro began
  have first_began := audited.begun_of_entered ahead.mem.1 (audited.begun_of_running runs)
  have kept : ∀ h, (.drained h,e) ∉ j.left := by
    intro h drained
    cases audited.journaled.ordered.exit_unique drained (audited.journaled.ordered.taken_of_begun first_began)
  obtain ⟨-,serials⟩ := audited.jobs_before ahead own job kept began
  have nodup := audited.jobs_nodup g
  rw [audited.jobs_of_running runs] at serials nodup
  exact Before.not_newest nodup serials

end Audited

/-- What was handed in through a handle stays with it. -/
theorem System.handles_step {first : J} {σ τ : System J} {a : Action J} (step : Step first σ a τ) {g : Nat}
    (handle : g ∈ σ.handles) : g ∈ τ.handles := by
  cases step with
  | takeHandle free => exact List.mem_cons_of_mem _ handle
  | start free | stop free | submit free taken | go called step | failToHandOver called | «return» called past =>
    exact (handles_setCall σ _ _).symm ▸ handle
  | handOver called free =>
    show g ∈ (((σ.setCall none _).setCall _ _).handles)
    rw [handles_setCall,handles_setCall]
    exact handle
  | _ => exact handle

/-! ### Numbers of envelopes -/

theorem Traffic.Step.serial_le {first : J} {x : Outlook} {m n : Traffic J} (step : Step first x m n) :
    m.serial ≤ n.serial := by
  cases step with
  | submit who e free new told => exact Nat.le_succ _
  | «open» who e free new next task locks => exact Nat.le_succ _
  | order e new told => exact Nat.le_succ _
  | _ => exact Nat.le_refl _

/-- An envelope is with a party, or has been put into the queue. -/
def Traffic.Present (m : Traffic J) (e : Envelope J) : Prop := e ∈ m.entered ∨ ∃ who, m.held who = some e

/-- What is new has a new number. -/
theorem Traffic.Step.present {first : J} {x : Outlook} {m n : Traffic J} {f : Envelope J} (step : Step first x m n)
    (present : n.Present f) : m.Present f ∨ f.serial = m.serial := by
  have held : ∀ {who v}, (∃ other, Function.update m.held who v other = some f) → v = some f ∨ m.Present f := by
    rintro who v ⟨other,holds⟩
    exact (holds_of_update holds).imp (fun own => own.2) fun old => .inr ⟨other,old.2⟩
  cases step with
  | submit who e free new told | «open» who e free new next task locks =>
    rcases present with entered | holds
    · exact .inl (.inl entered)
    · rcases held holds with own | old
      · cases own
        exact .inr new
      · exact .inl old
  | drop who lost => exact .inl (present.elim .inl fun holds => (held holds).resolve_left nofun)
  | enter who e holds =>
    rcases present with entered | holds'
    · rcases List.mem_cons.mp entered with rfl | entered
      · exact .inl (.inr ⟨who,holds⟩)
      · exact .inl (.inl entered)
    · exact .inl ((held holds').resolve_left nofun)
  | order e new told =>
    rcases present with entered | holds
    · rcases List.mem_cons.mp entered with rfl | entered
      · exact .inr new
      · exact .inl (.inl entered)
    · exact .inl (.inr holds)
  | handOver g t e holds full called free =>
    rcases present with entered | ⟨other,holds'⟩
    · exact .inl (.inl entered)
    · rcases holds_of_update holds' with ⟨-,own⟩ | ⟨-,old⟩
      · exact .inl (.inr ⟨.worker g,holds.trans own⟩)
      · exact .inl ((held ⟨other,old⟩).resolve_left nofun)
  | _ => exact .inl present

/-- What is there under the number of an envelope that was handed in is this envelope. -/
def Traffic.Traced (m : Traffic J) : Prop := ∀ who e f, (who,e) ∈ m.calls → m.Present f → f.serial = e.serial → f = e

theorem Traffic.Traced.step {first : J} {x : Outlook} {m n : Traffic J} (traced : m.Traced) (ordered : m.Ordered)
    (step : Step first x m n) : n.Traced := by
  intro other a f called present same
  have known : (other,a) ∈ m.calls → f = a := by
    intro called
    rcases step.present present with old | new
    · exact traced other a f called old same
    · have less := ordered.inTurn.bound other a called
      omega
  cases step with
  | submit who e free new told =>
    rcases List.mem_cons.mp called with own | called
    · cases own
      rcases present with entered | ⟨party,holds⟩
      · have less := ordered.single.bound f entered
        omega
      · rcases holds_of_update holds with ⟨-,own⟩ | ⟨-,old⟩
        · exact (Option.some.inj own).symm
        · have less := (ordered.single.outside party f old).1
          omega
    · exact known called
  | _ => exact known called

theorem Journaled.traced {first : J} {capacity : Nat} {j : Journal J} {σ : System J}
    (journaled : Journaled first capacity j σ) : (σ.traffic j).Traced := by
  induction journaled with
  | init => exact nofun
  | act a before taken ih =>
    exact ih.step before.ordered (System.traffic_step (System.sound_of_reachable before.reachable) before.inPlace
      (System.step_of_act taken))

/-- What was handed in stays on record. -/
theorem Journal.calls_after {j : Journal J} {σ τ : System J} {a : Action J} {x : Party × Envelope J}
    (called : x ∈ j.calls) : x ∈ (j.after σ τ a).calls := by
  cases a with
  | submit who handle y => exact List.mem_cons_of_mem _ called
  | go who made choice =>
    simp only [after]
    split
    · exact called
    · exact called
  | _ => exact called

namespace Audited
variable {first : J} {capacity g n : Nat} {j : Journal J} {l : Ledger J} {σ τ : System J} {a : Action J} {e : Envelope J}

/-- The numbers of envelopes go up. -/
theorem serial_step (audited : Audited first capacity j l σ) (taken : σ.act first a = some τ) :
    σ.scheduler.serial ≤ τ.scheduler.serial :=
  (System.traffic_step (System.sound_of_reachable audited.journaled.reachable) audited.journaled.inPlace
    (System.step_of_act taken)).serial_le

theorem serial_of_begun (audited : Audited first capacity j l σ) (began : n ∈ jobsOf (begun g σ.history)) :
    n < σ.scheduler.serial := by
  obtain ⟨e,member,-,rfl⟩ := mem_jobsOf.mp began
  exact audited.journaled.ordered.single.bound e (audited.journaled.entered_of_begun member)

/-- The job that a worker runs is the one that was handed in under its number. -/
theorem began_of_called (audited : Audited first capacity j l σ) {who : Party} (called : (who,e) ∈ j.calls)
    (runs : (σ.workers g).running? = some e.serial) : e.generation = g ∧ .began g e ∈ σ.history := by
  obtain ⟨f,member,-,same⟩ := mem_jobsOf.mp (audited.begun_of_running runs)
  cases audited.journaled.traced who e f called (.inl (audited.journaled.entered_of_begun member)) same
  exact ⟨audited.journaled.begun_own member,mem_begun.mp member⟩

end Audited

end ScriptHost
