import ScriptHost.Proofs.Timers.Arguments
import ScriptHost.Proofs.Timers.Law
/-!
Which timers wait to fire. It is told twice: the table of timers has their callbacks, and the list of active timers has
their handles. What the record of a timetable says of it is `Timetable.Pending`: the timer was set, its handle was not
cleared after that, and unless it repeats it has not fired. All three agree at any time (`Timetable.Agreed`), also while
callbacks set and clear timers, and a call that throws something has changed none of them.
-/
namespace ScriptHost
open Engine (World Value Timer Answer Thrown Intrinsic)
variable {τ : Type}

namespace Timetable
variable {first : Work τ} {capacity g n : Nat} {p q : Timetable τ} {timer : Timer} {last : World}

/-! ### What the record says -/

/-- A timer of a generation has fired: a job that it has handed in has had its turn. -/
def Fired (p : Timetable τ) (g : Nat) (timer : Timer) : Prop := ∃ n, .rang g n timer ∈ p.record ∧ p.due n = none

/-- A timer of a generation waits to fire: it was set, it was not cleared after that, and unless it repeats it has not
    fired. -/
def Pending (p : Timetable τ) (g : Nat) (timer : Timer) : Prop :=
  (∃ job f, .set g job timer f ∈ p.record ∧ ¬Before p.record (.set g job timer f) (.cleared g timer.id)) ∧
    ¬(timer.repeating = false ∧ p.Fired g timer)

theorem Pending.set (pending : p.Pending g timer) : ∃ job f, .set g job timer f ∈ p.record := by
  obtain ⟨⟨job,f,set,-⟩,-⟩ := pending
  exact ⟨job,f,set⟩

/-- Deeds that neither set nor clear a timer leave open whether it waits. -/
theorem pending_cons {d : Deed} (record : q.record = d :: p.record) (handle : d.handle? ≠ some (g,timer.id))
    (kept : d ≠ .cleared g timer.id) (fired : q.Fired g timer ↔ p.Fired g timer) : q.Pending g timer ↔ p.Pending g timer := by
  have set : ∀ job f, .set g job timer f ∈ d :: p.record ↔ .set g job timer f ∈ p.record := fun job f =>
    ⟨fun member => (List.mem_cons.mp member).resolve_left fun same => handle (same ▸ rfl),List.mem_cons_of_mem d⟩
  have before : ∀ job f, Before (d :: p.record) (.set g job timer f) (.cleared g timer.id) ↔
      Before p.record (.set g job timer f) (.cleared g timer.id) := fun job f =>
    before_cons.trans (or_iff_left fun here => kept here.1.symm)
  simp only [Pending,record,fired,set,before]

theorem fired_cons {d : Deed} (record : q.record = d :: p.record) (due : q.due = p.due)
    (other : ∀ n, d ≠ .rang g n timer) : q.Fired g timer ↔ p.Fired g timer := by
  have rang : ∀ n, .rang g n timer ∈ d :: p.record ↔ .rang g n timer ∈ p.record := fun n =>
    ⟨fun member => (List.mem_cons.mp member).resolve_left fun same => other n same.symm,List.mem_cons_of_mem d⟩
  simp only [Fired,record,due,rang]

theorem active_proceed {deeds : List Deed} (same : last.outside.timers.active = (p.worlds g).outside.timers.active) (h : Nat) :
    ((p.proceed g last deeds).worlds h).outside.timers.active = (p.worlds h).outside.timers.active := by
  show (Function.update p.worlds g last h).outside.timers.active = _
  by_cases here : h = g
  · subst here
    rw [Function.update_self,same]
  · rw [Function.update_of_ne here]

/-! ### What is kept of timers -/

/-- The list of active timers says what the record says, and the jobs of timers are told of. -/
structure Counted (p : Timetable τ) : Prop where
  active : ∀ g id, id ∈ (p.worlds g).outside.timers.active ↔ ∃ timer, timer.id = id ∧ p.Pending g timer
  rang : ∀ g n timer, .rang g n timer ∈ p.record → n < p.system.scheduler.serial ∧
    (∃ job f, .set g job timer f ∈ p.record) ∧ (p.due n = none ∨ p.due n = some (g,timer))

namespace Counted

/-- Nothing is told of timers, and as many of them wait. -/
theorem still (counted : p.Counted) (record : q.record = p.record) (due : q.due = p.due)
    (serial : p.system.scheduler.serial ≤ q.system.scheduler.serial)
    (active : ∀ g, (q.worlds g).outside.timers.active = (p.worlds g).outside.timers.active) : q.Counted := by
  have same : ∀ g timer, q.Pending g timer ↔ p.Pending g timer := fun g timer => by
    simp only [Pending,Fired,record,due]
  refine ⟨fun g id => ?_,fun g n timer rang => ?_⟩
  · simp only [active,same]
    exact counted.active g id
  · rw [record] at rang ⊢
    obtain ⟨less,set,due'⟩ := counted.rang g n timer rang
    exact ⟨Nat.lt_of_lt_of_le less serial,set,due ▸ due'⟩

/-- A deed is told of, and no job of a timer. -/
theorem rang_cons (counted : p.Counted) {d : Deed} (other : ∀ g n timer, d ≠ .rang g n timer) (g n : Nat) (timer : Timer)
    (rang : .rang g n timer ∈ d :: p.record) : n < p.system.scheduler.serial ∧
      (∃ job f, .set g job timer f ∈ d :: p.record) ∧ (p.due n = none ∨ p.due n = some (g,timer)) := by
  obtain ⟨less,⟨job,f,set⟩,due⟩ := counted.rang g n timer ((List.mem_cons.mp rang).resolve_left (other g n timer).symm)
  exact ⟨less,⟨job,f,List.mem_cons_of_mem d set⟩,due⟩

/-- In a generation a handle is set or cleared: all others wait as they did. -/
theorem proceed (counted : p.Counted) {d : Deed} {id : Nat} (other : ∀ h n timer, d ≠ .rang h n timer)
    (subject : d.subject? = some (g,id))
    (here : id ∈ last.outside.timers.active ↔ ∃ timer, timer.id = id ∧ (p.proceed g last [d]).Pending g timer)
    (others : ∀ m, m ≠ id → (m ∈ last.outside.timers.active ↔ m ∈ (p.worlds g).outside.timers.active)) :
    (p.proceed g last [d]).Counted := by
  have same : ∀ h timer, (h,timer.id) ≠ (g,id) → ((p.proceed g last [d]).Pending h timer ↔ p.Pending h timer) := by
    intro h timer apart
    refine pending_cons rfl (fun handle => apart ?_) (fun cleared => apart ?_) (fired_cons rfl rfl fun n => other h n timer)
    · cases d with
      | set => exact Option.some.inj (handle.symm.trans subject)
      | _ => cases handle
    · subst cleared
      exact Option.some.inj subject
  refine ⟨fun h m => ?_,counted.rang_cons other⟩
  show m ∈ (Function.update p.worlds g last h).outside.timers.active ↔ _
  by_cases elsewhere : h = g
  · subst elsewhere
    rw [Function.update_self]
    by_cases new : m = id
    · subst new
      exact here
    · refine (others m new).trans ((counted.active h m).trans ?_)
      refine exists_congr fun timer => and_congr_right fun named => (same h timer fun both => new ?_).symm
      exact named.symm.trans (Prod.mk.inj both).2
  · rw [Function.update_of_ne elsewhere]
    refine (counted.active h m).trans (exists_congr fun timer => and_congr_right fun _ => (same h timer fun both => ?_).symm)
    exact elsewhere (Prod.mk.inj both).1

/-- The delay of a timer is over: it waits as it did, as its job has had no turn yet. -/
theorem ring (counted : p.Counted) (set : ∃ job f, .set g job timer f ∈ p.record) {system : System (Work τ)}
    (serial : p.system.scheduler.serial < system.scheduler.serial) :
    Counted { p with
      system
      due := Function.update p.due p.system.scheduler.serial (some (g,timer))
      record := .rang g p.system.scheduler.serial timer :: p.record } := by
  have due : ∀ n, n < p.system.scheduler.serial → ∀ x, Function.update p.due p.system.scheduler.serial x n = p.due n :=
    fun n less x => Function.update_of_ne (Nat.ne_of_lt less) _ _
  refine ⟨fun h id => ?_,fun h n timer' rang => ?_⟩
  · refine (counted.active h id).trans (exists_congr fun timer' => and_congr_right fun _ => ?_)
    refine (pending_cons (d := .rang g p.system.scheduler.serial timer) rfl nofun nofun ⟨?_,?_⟩).symm
    · rintro ⟨n,rang,spent⟩
      rcases List.mem_cons.mp rang with new | old
      · cases new
        cases (Function.update_self ..).symm.trans spent
      · exact ⟨n,old,(due n (counted.rang h n timer' old).1 _).symm.trans spent⟩
    · rintro ⟨n,rang,spent⟩
      exact ⟨n,List.mem_cons_of_mem _ rang,(due n (counted.rang h n timer' rang).1 _).trans spent⟩
  · rcases List.mem_cons.mp rang with new | old
    · cases new
      obtain ⟨job,f,set⟩ := set
      exact ⟨serial,⟨job,f,List.mem_cons_of_mem _ set⟩,.inr (Function.update_self ..)⟩
    · obtain ⟨less,⟨job,f,set⟩,here⟩ := counted.rang h n timer' old
      refine ⟨Nat.lt_trans less serial,⟨job,f,List.mem_cons_of_mem _ set⟩,?_⟩
      show Function.update p.due p.system.scheduler.serial _ n = none ∨
        Function.update p.due p.system.scheduler.serial _ n = some (h,timer')
      rwa [due n less]

/-- A timer is set under a new handle. -/
theorem set (counted : p.Counted) (minds : Minds p.record g (p.worlds g)) {job : Option Nat} {f : Value}
    (new : timer.id = (p.worlds g).outside.timers.nextId)
    (active : last.outside.timers.active = timer.id :: (p.worlds g).outside.timers.active) :
    (p.proceed g last [.set g job timer f]).Counted := by
  have fresh : ∀ job f, ∀ other : Timer, other.id = timer.id → .set g job other f ∉ p.record := fun job f other same =>
    minds.fresh (Nat.le_of_eq new.symm) same
  refine counted.proceed nofun rfl ?_ fun m other => ?_
  · refine iff_of_true (active ▸ List.mem_cons_self) ⟨timer,rfl,⟨job,f,List.mem_cons_self,fun before => ?_⟩,?_⟩
    · rcases before_cons.mp before with before | ⟨impossible,-⟩
      · exact fresh job f timer rfl before.mem.1
      · cases impossible
    · rintro ⟨-,n,rang,-⟩
      obtain ⟨-,⟨job,f,set⟩,-⟩ := counted.rang g n timer ((List.mem_cons.mp rang).resolve_left nofun)
      exact fresh job f timer rfl set
  · rw [active,List.mem_cons,or_iff_right other]

/-- A handle is cleared. -/
theorem clear (counted : p.Counted) {id : Nat}
    (active : last.outside.timers.active = (p.worlds g).outside.timers.active.filter (· ≠ id)) :
    (p.proceed g last [.cleared g id]).Counted := by
  refine counted.proceed nofun rfl ?_ fun m other => ?_
  · refine iff_of_false (fun still => ?_) ?_
    · rw [active] at still
      exact of_decide_eq_true (List.mem_filter.mp still).2 rfl
    · rintro ⟨timer,rfl,⟨job,f,set,spared⟩,-⟩
      exact spared (before_cons.mpr (.inr ⟨rfl,(List.mem_cons.mp set).resolve_left nofun⟩))
  · rw [active,List.mem_filter]
    exact and_iff_left (decide_eq_true other)

/-- The job of a timer has its turn: all timers wait that did, but for this one unless it repeats. -/
theorem pending_spent (counted : p.Counted) (due : p.due n = some (g,timer)) (rang : .rang g n timer ∈ p.record) (h : Nat)
    (other : Timer) : Pending { p with due := Function.update p.due n none } h other ↔
      p.Pending h other ∧ ¬(timer.repeating = false ∧ h = g ∧ other = timer) := by
  have fired : Fired { p with due := Function.update p.due n none } h other ↔ p.Fired h other ∨ h = g ∧ other = timer := by
    constructor
    · rintro ⟨m,rang',spent⟩
      by_cases here : m = n
      · subst here
        obtain ⟨-,-,none | some⟩ := counted.rang h m other rang'
        · exact .inl ⟨m,rang',none⟩
        · cases due.symm.trans some
          exact .inr ⟨rfl,rfl⟩
      · exact .inl ⟨m,rang',(Function.update_of_ne here _ _).symm.trans spent⟩
    · rintro (⟨m,rang',spent⟩ | ⟨rfl,rfl⟩)
      · have here : m ≠ n := by
          rintro rfl
          cases due.symm.trans spent
        exact ⟨m,rang',(Function.update_of_ne here _ _).trans spent⟩
      · exact ⟨n,rang,Function.update_self ..⟩
  unfold Pending
  rw [fired,and_or_left,not_or,← and_assoc]
  refine and_congr_right fun _ => not_congr ⟨?_,?_⟩
  · rintro ⟨once,rfl,rfl⟩
    exact ⟨once,rfl,rfl⟩
  · rintro ⟨once,rfl,rfl⟩
    exact ⟨once,rfl,rfl⟩

/-- A callback is called. -/
theorem call (counted : p.Counted) {origin : Nat} {f : Value} :
    Counted { p with record := .called g n origin timer f :: p.record } := by
  refine ⟨fun h id => (counted.active h id).trans ?_,counted.rang_cons nofun⟩
  refine exists_congr fun other => and_congr_right fun _ => ?_
  have told : Fired { p with record := .called g n origin timer f :: p.record } h other ↔ p.Fired h other :=
    fired_cons (d := .called g n origin timer f) rfl rfl nofun
  exact (pending_cons (d := .called g n origin timer f) rfl nofun nofun told).symm

/-- A timer has its turn, and it does not wait any more unless it repeats. -/
theorem spend (counted : p.Counted) (distinct : (p.record.filterMap Deed.handle?).Nodup) (due : p.due n = some (g,timer))
    (rang : .rang g n timer ∈ p.record)
    (active : ∀ id, id ∈ last.outside.timers.active ↔
      id ∈ (p.worlds g).outside.timers.active ∧ ¬(timer.repeating = false ∧ id = timer.id)) :
    (Timetable.proceed { p with due := Function.update p.due n none } g last []).Counted := by
  obtain ⟨-,⟨job,f,set⟩,-⟩ := counted.rang g n timer rang
  refine ⟨fun h id => ?_,fun h m other rang' => ?_⟩
  · show id ∈ (Function.update p.worlds g last h).outside.timers.active ↔
      ∃ other : Timer, other.id = id ∧ Pending { p with due := Function.update p.due n none } h other
    simp only [counted.pending_spent due rang]
    by_cases here : h = g
    · subst here
      rw [Function.update_self,active,counted.active h id]
      constructor
      · rintro ⟨⟨other,rfl,waits⟩,apart⟩
        exact ⟨other,rfl,waits,fun ⟨once,_,same⟩ => apart ⟨once,congrArg Timer.id same⟩⟩
      · -- The handle was given out once, so it is this timer that has it.
        rintro ⟨other,rfl,waits,apart⟩
        refine ⟨⟨other,rfl,waits⟩,fun ⟨once,same⟩ => apart ⟨once,rfl,?_⟩⟩
        obtain ⟨job',f',set'⟩ := waits.set
        exact (set_unique distinct set' set same).2.1
    · rw [Function.update_of_ne here,counted.active h id]
      refine exists_congr fun other => and_congr_right fun _ => ?_
      exact (and_iff_left fun both => here both.2.1).symm
  · obtain ⟨less,set,here⟩ := counted.rang h m other rang'
    refine ⟨less,set,?_⟩
    show Function.update p.due n none m = none ∨ Function.update p.due n none m = some (h,other)
    by_cases same : m = n
    · subst same
      exact .inl (Function.update_self ..)
    · rwa [Function.update_of_ne same]

end Counted

/-- As many timers wait as the record says, whatever happens next. -/
theorem Counted.step {j : Journal (Work τ)} {l : Ledger (Work τ)} (counted : p.Counted) (regular : Regular first capacity j l p)
    {t : Turn τ} (possible : p.Possible t) (taken : p.act first t = some q) : q.Counted := by
  cases t with
  | system a =>
    obtain ⟨system,stepped,rfl⟩ := Option.map_eq_some_iff.mp taken
    exact counted.still rfl rfl (regular.audited.serial_step stepped) fun _ => rfl
  | ring who g timer =>
    obtain ⟨system,stepped,rfl⟩ := Option.map_eq_some_iff.mp taken
    have rung := regular.ring possible stepped
    obtain ⟨_,_,_,called,-⟩ := rung.due _ g timer (Function.update_self ..)
    exact counted.ring possible (rung.audited.journaled.ordered.inTurn.bound _ _ called)
  | set g f delay args repeating answers r last =>
    obtain ⟨-,same⟩ := Option.ite_none_right_eq_some.mp taken
    cases same
    obtain ⟨t,tends,-⟩ := (regular.minds g).table
    rcases (Engine.setTimer_alone tends f delay args repeating).ends possible with
      ⟨v,rfl,-,-,timers,-⟩ | ⟨⟨e,rfl⟩,leaves⟩
    · exact counted.set (regular.minds g) rfl (congrArg Engine.Timers.active timers)
    · exact counted.still rfl rfl (Nat.le_refl _) (active_proceed leaves.active)
  | clear g id answers r last =>
    obtain ⟨-,same⟩ := Option.ite_none_right_eq_some.mp taken
    cases same
    obtain ⟨t,tends,-⟩ := (regular.minds g).table
    rcases (Engine.clearTimer_alone tends id).ends possible with ⟨v,rfl,-,timers,-⟩ | ⟨-,impossible⟩
    · exact counted.clear (congrArg Engine.Timers.active timers)
    · exact impossible.elim
  | fire g =>
    obtain ⟨n,origin,timer,runs,due⟩ := due_of_act taken
    obtain ⟨who,job,f',called,before,-⟩ := regular.due n origin timer due
    obtain ⟨rfl,-⟩ := regular.audited.began_of_called called runs
    have distinct := regular.punctual.distinct
    by_cases active : timer.id ∈ (p.worlds origin).outside.timers.active
    · obtain ⟨t,tends,-⟩ := (regular.minds origin).table
      obtain ⟨f,args,last,next,-,asks,-,-,timers,-⟩ := Engine.fireTimer_calls tends active timer.repeating
      cases (act_fire runs due asks).symm.trans taken
      refine Counted.call (counted.spend distinct due before.mem.2 fun id => ?_)
      rw [timers]
      cases timer.repeating <;> simp [Engine.Timers.cancel]
    · cases (act_fire_idle runs due (Engine.fireTimer_idle active _)).symm.trans taken
      refine counted.spend distinct due before.mem.2 fun id => (and_iff_left_of_imp fun still => ?_).symm
      rintro ⟨-,rfl⟩
      exact active still
  | elsewhere g last =>
    cases taken
    exact counted.still rfl rfl (Nat.le_refl _) (active_proceed possible.active)

theorem Reachable.counted (reached : Reachable first capacity p) : p.Counted := by
  induction reached with
  | init worlds made =>
    refine ⟨fun g id => iff_of_false (fun active => ?_) ?_,nofun⟩
    · obtain ⟨w,answers,blank,ends⟩ := made g
      rcases (Engine.installTimers_alone blank).ends ends with ⟨_,-,t,tends,timers⟩ | ⟨⟨e,thrown⟩,-⟩
      · rw [timers,blank.idle] at active
        cases active
      · cases thrown
    · rintro ⟨timer,-,pending⟩
      obtain ⟨job,f,set⟩ := pending.set
      cases set
  | act t reached possible taken ih =>
    obtain ⟨j,l,regular⟩ := reached.regular
    exact ih.step regular possible taken

/-! ### Calls -/

/-- What a call of one of the functions of timers is that ends with `r`. One that sets a timer has returned its handle, or
    it has thrown something and done nothing; one that clears a handle has cleared the one that its argument is, if it is
    one. -/
def Does (g : Nat) (f : Engine.HostFn) (args : Array Value) (w : World) (r : Except Thrown Value) (deeds : List Deed) : Prop :=
  match f.sets with
  | some repeating => (∃ e, r = .error e) ∧ deeds = [] ∨
      ∃ timer job, timer.repeating = repeating ∧ r = .ok (.ofNat timer.id) ∧
        deeds = [.set g job timer (Engine.argAt args 0)]
  | none => r = .ok .undefined ∧ ∃ handle first middle, (Engine.handleOf args[0]? w).Ends first (.ok handle) middle ∧
      deeds = handle.toList.map (.cleared g)

theorem proceed_proceed (p : Timetable τ) (g : Nat) (middle last : World) (deeds more : List Deed) :
    (p.proceed g middle deeds).proceed g last more = p.proceed g last (more ++ deeds) := by
  simp [proceed]

/-- The engine goes on without anything that concerns timers. -/
theorem Reachable.rests (reached : Reachable first capacity p) (rests : (p.worlds g).Rests last) :
    Reachable first capacity (p.proceed g last []) := by
  obtain ⟨j,l,regular⟩ := reached.regular
  obtain ⟨t,tends,-⟩ := (regular.minds g).table
  exact .act (.elsewhere g last) reached (rests.leaves tends) rfl

/-- A call of a function of timers leads from the turn in which it is gone on with last to another one. -/
theorem Reachable.calls (reached : Reachable first capacity p) (atWork : p.isAtWork g = true) {f : Engine.HostFn}
    (ours : f.sets ≠ none ∨ f = .clearTimer) {args : Array Value} {w : World} {answers : List Answer}
    {r : Except Thrown Value} (ends : (Engine.hostFunction f args w).Ends answers r last)
    (handed : ∀ back ∈ w :: answers.map Prod.snd, ∃ q, Reachable first capacity q ∧ q.worlds g = back)
    (here : w.resumed answers = p.worlds g) :
    ∃ deeds, Does g f args w r deeds ∧ Reachable first capacity (p.proceed g last deeds) ∧
      (deeds = [] → (p.worlds g).SameTimers last) := by
  have tends : ∀ back ∈ w :: answers.map Prod.snd, ∃ t, back.Tends t := by
    intro back member
    obtain ⟨q,reached,rfl⟩ := handed back member
    obtain ⟨j,l,regular⟩ := reached.regular
    obtain ⟨t,tends,-⟩ := (regular.minds g).table
    exact ⟨t,tends⟩
  obtain ⟨j,l,regular⟩ := reached.regular
  obtain ⟨t,now,-⟩ := (regular.minds g).table
  cases sets : f.sets with
  | some repeating =>
    simp only [Does,sets]
    rcases Engine.ends_scheduling sets tends ends with ⟨middle,delay,more,rests,set⟩ | ⟨failed,rests⟩ <;> rw [here] at rests
    · have reached := reached.rests rests
      have world : (p.proceed g middle []).worlds g = middle := Function.update_self ..
      have set : (Engine.setTimer _ delay more repeating ((p.proceed g middle []).worlds g)).Ends [] r last :=
        world.symm ▸ set
      cases r with
      | ok v =>
        have same : v = .ofNat middle.outside.timers.nextId := world ▸ Engine.ends_setTimer set
        refine ⟨_,.inr ⟨⟨middle.outside.timers.nextId,delay,repeating⟩,p.job? g,rfl,same ▸ rfl,rfl⟩,?_,nofun⟩
        · have after := reached.set atWork set
          rw [proceed_proceed,world] at after
          exact after
      | error e =>
        refine ⟨[],.inl ⟨⟨e,rfl⟩,rfl⟩,?_,fun _ => ?_⟩
        · have after := Reachable.act (.set g _ delay more repeating [] (.error e) last) reached set (if_pos atWork)
          rwa [proceed_proceed] at after
        · have leaves := rests.leaves now
          rw [world] at set
          rcases (Engine.setTimer_alone (now.left leaves) _ delay more repeating).ends set with ⟨v,impossible,-⟩ | ⟨-,kept⟩
          · cases impossible
          · exact leaves.same.trans kept.same
    · exact ⟨[],.inl ⟨failed,rfl⟩,reached.rests rests,fun _ => (rests.leaves now).same⟩
  | none =>
    obtain rfl : f = .clearTimer := ours.resolve_left fun some => some sets
    obtain ⟨rfl,handle,start,middle,converted,rests,cleared⟩ := Engine.ends_clearing tends ends
    rw [here] at rests
    refine ⟨_,⟨rfl,handle,start,middle,converted,rfl⟩,?_⟩
    cases handle with
    | none =>
      subst cleared
      exact ⟨reached.rests rests,fun _ => (rests.leaves now).same⟩
    | some id =>
      have world : (p.proceed g middle []).worlds g = middle := Function.update_self ..
      have after := Reachable.act (.clear g id [] (.ok ()) last) (reached.rests rests)
        (show (Engine.clearTimer id ((p.proceed g middle []).worlds g)).Ends [] (.ok ()) last from world.symm ▸ cleared)
        (if_pos atWork)
      rw [proceed_proceed] at after
      exact ⟨after,nofun⟩

/-- What is kept of timers agrees with what was done. -/
structure Agreed (first : Work τ) (capacity : Nat) (p : Timetable τ) : Prop where
  /-- The table has the timers that are active, and nothing else. -/
  table : ∀ g, ∃ t, (p.worlds g).kept? Engine.timerTable = some (.data (.obj t) .full) ∧
    ∀ k, (((p.worlds g).obj t).own? k).isSome = true ↔
      ∃ id ∈ (p.worlds g).outside.timers.active, k = Engine.timerKey id
  /-- The active timers are those that were set and were neither cleared nor, unless they repeat, have fired. -/
  active : ∀ g id, id ∈ (p.worlds g).outside.timers.active ↔ ∃ timer, timer.id = id ∧ p.Pending g timer
  /-- In a generation a handle is given out once. -/
  distinct : (p.record.filterMap Deed.handle?).Nodup
  /-- A call of a function of timers, whatever its arguments are and whatever was done while scripts were asked for them,
      is told of by what it does; if that is nothing it has changed nothing. -/
  calls : ∀ g, p.isAtWork g = true → ∀ f : Engine.HostFn, (f.sets ≠ none ∨ f = .clearTimer) →
    ∀ (args : Array Value) (w last : World) (answers : List Answer) (r : Except Thrown Value),
      (Engine.hostFunction f args w).Ends answers r last →
      (∀ back ∈ w :: answers.map Prod.snd, ∃ q, Reachable first capacity q ∧ q.worlds g = back) →
      w.resumed answers = p.worlds g →
      ∃ deeds, Does g f args w r deeds ∧ Reachable first capacity (p.proceed g last deeds) ∧
        (deeds = [] → (p.worlds g).SameTimers last)

/-- Whatever scripts, delays and threads do, as long as scripts leave the table of timers and its names alone: the table
    has the timers that are active, these are the ones that were set and neither cleared nor fired, handles are
    different, and a call that does nothing changes nothing. -/
theorem agreed_of_reachable (reached : Reachable first capacity p) : p.Agreed first capacity := by
  obtain ⟨j,l,regular⟩ := reached.regular
  refine ⟨fun g => ?_,reached.counted.active,regular.punctual.distinct,?_⟩
  · obtain ⟨t,tends,-⟩ := (regular.minds g).table
    refine ⟨t,tends.kept,fun k => ⟨fun there => ?_,?_⟩⟩
    · obtain ⟨s,own⟩ := Option.isSome_iff_exists.mp there
      obtain ⟨id,-,-,active,key,-⟩ := tends.own k s own
      exact ⟨id,active,key⟩
    · rintro ⟨id,active,rfl⟩
      exact (tends.active id active).2
  · intro g atWork f ours args w last answers r ends handed here
    exact reached.calls atWork ours ends handed here

/-- The job of a timer runs, and the timer is in the table as it has not fired. -/
theorem agreed_while_due : ∃ p : Timetable Unit, Reachable .done 2 p ∧ p.isAtWork 1 = true ∧
    Timetable.timer.id ∈ (p.worlds 1).outside.timers.active ∧ p.Agreed .done 2 := by
  obtain ⟨p,n,job,reached,runs,due,world,set⟩ := reached_due
  exact ⟨p,reached,isAtWork_of_running runs,world ▸ timer_armed.2,agreed_of_reachable reached⟩

/-- An engine in which a script has defined a setter for the name of the first timer, and nothing else. -/
def intercepted : World := { Engine.shadowed with outside := default }

/-- A timer is active of which the table knows nothing: the setter that a script has made for its name was called with
    the object, and the call has returned the handle. -/
theorem active_without_entry : ∃ args asked next last,
    Engine.hostFunction .setTimeout #[.obj 42] intercepted = .ask (.call (.obj 42) (.obj 39) args) asked next ∧
    next (.ok .undefined) asked = .ok (.ofNat 1) last ∧
    last.outside.timers.active = [1] ∧ last.kept? Engine.timerTable = some (.data (.obj 39) .full) ∧
    (last.obj 39).own? (Engine.timerKey 1) = none :=
  ⟨_,_,_,_,rfl,rfl,rfl,rfl,rfl⟩

end Timetable
end ScriptHost
