import ScriptHost.Host.Step
import ScriptHost.Proofs.Scheduler.Sequence
import ScriptHost.Proofs.Timers.Calls
/-!
Timers among jobs. Scripts set timers and clear them, in whatever job and also in a callback; delays elapse at any time,
and each one hands a job in, as threads and other jobs do; generations start and end. A `Timetable` is the scheduler with
the engines of all generations and with a record of what has happened to timers. Its turns are the actions of threads, a
delay that is over, a timer that is set, cleared or fires, and anything else that is done to an engine, as long as
timers are left alone (`Engine.World.LeavesTimers`).

What the record says of timers is `Timetable.Punctual`: a handle is given out once in a generation; a callback is called
in a job that its timer has handed in, in the generation in which it was set and not in the job in which it was set;
unless it repeats it is called once at most; and it is not called once its handle was cleared. It is true of every run
(`Timetable.punctual`).
-/
namespace ScriptHost
open Engine (World Value Timer Answer Thrown Intrinsic)
variable {τ : Type}

/-! ### The record -/

/-- What happens to a timer. -/
inductive Deed where
  /-- It was set in a generation with a callback; `job` is the newest job of the generation. -/
  | set (g : Nat) (job : Option Nat) (timer : Timer) (f : Value)
  /-- Its delay was over, and it handed in a job. -/
  | rang (g job : Nat) (timer : Timer)
  /-- To clear a handle returned. -/
  | cleared (g id : Nat)
  /-- In a job of generation `g` a timer fired that was set in generation `origin`, and the callback was called. -/
  | called (g job origin : Nat) (timer : Timer) (f : Value)

namespace Deed

/-- The handle that is given out, with its generation. -/
def handle? : Deed → Option (Nat × Nat)
  | .set g _ timer _ => some (g,timer.id)
  | _ => none

/-- The handle of which it is told whether its callback may be called, with its generation. -/
def subject? : Deed → Option (Nat × Nat)
  | .set g _ timer _ | .called _ _ g timer _ => some (g,timer.id)
  | .cleared g id => some (g,id)
  | .rang .. => none

/-- The callback of a handle is called. -/
def calls (g id : Nat) : Deed → Bool
  | .called _ _ origin timer _ => origin == g && timer.id == id
  | _ => false

theorem subject_of_calls {d : Deed} {g id : Nat} (calls : d.calls g id = true) : d.subject? = some (g,id) := by
  cases d with
  | called h n origin timer f =>
    simp only [Deed.calls,Bool.and_eq_true,beq_iff_eq] at calls
    simp [subject?,calls]
  | _ => cases calls

end Deed

/-- All deeds that give a handle out give out different ones. -/
theorem set_unique {record : List Deed} (distinct : (record.filterMap Deed.handle?).Nodup) {g : Nat} {job job' : Option Nat}
    {timer timer' : Timer} {f f' : Value} (one : .set g job timer f ∈ record) (other : .set g job' timer' f' ∈ record)
    (same : timer.id = timer'.id) : job = job' ∧ timer = timer' ∧ f = f' := by
  induction record with
  | nil => cases one
  | cons d record ih =>
    rw [List.filterMap_cons] at distinct
    have given : ∀ {job timer f}, .set g job timer f ∈ record → (g,timer.id) ∈ record.filterMap Deed.handle? :=
      fun member => List.mem_filterMap.mpr ⟨_,member,rfl⟩
    rcases List.mem_cons.mp one with here | old <;> rcases List.mem_cons.mp other with here' | old'
    · cases here.trans here'.symm
      exact ⟨rfl,rfl,rfl⟩
    · subst here
      exact absurd (same ▸ given old') (List.nodup_cons.mp distinct).1
    · subst here'
      exact absurd (same ▸ given old) (List.nodup_cons.mp distinct).1
    · refine ih ?_ old old'
      split at distinct
      · exact distinct
      · exact (List.nodup_cons.mp distinct).2

/-- A callback that the table of timers has may be called: its timer was set with it, the handle was not cleared after
    that, and unless it repeats it was not called. -/
structure Waits (record : List Deed) (g id : Nat) (f : Value) : Prop where
  set : ∃ job timer, timer.id = id ∧ .set g job timer f ∈ record
  spared : ∀ job timer f, timer.id = id → ¬Before record (.set g job timer f) (.cleared g id)
  fresh : ∀ job timer f, timer.id = id → .set g job timer f ∈ record → timer.repeating = false →
    record.countP (Deed.calls g id) = 0

/-- What happens to other timers does not matter. -/
theorem Waits.cons {record : List Deed} {g id : Nat} {f : Value} (waits : Waits record g id f) {d : Deed}
    (other : d.subject? ≠ some (g,id)) : Waits (d :: record) g id f := by
  obtain ⟨⟨job,timer,rfl,set⟩,spared,fresh⟩ := waits
  refine ⟨⟨job,timer,rfl,List.mem_cons_of_mem d set⟩,fun job' timer' f' same before => ?_,
    fun job' timer' f' same set repeats => ?_⟩
  · rcases before_cons.mp before with before | ⟨rfl,-⟩
    · exact spared job' timer' f' same before
    · exact other rfl
  · have silent : ¬d.calls g timer.id = true := fun calls => other (Deed.subject_of_calls calls)
    rw [List.countP_cons_of_neg silent]
    refine fresh job' timer' f' same ((List.mem_cons.mp set).resolve_left ?_) repeats
    rintro rfl
    exact other (by rw [Deed.subject?,same])

/-- The callback of a timer that repeats may be called again. -/
theorem Waits.again {record : List Deed} {g id : Nat} {f : Value} (waits : Waits record g id f) {h n : Nat}
    {timer : Timer} {v : Value}
    (repeats : ∀ job timer f, timer.id = id → .set g job timer f ∈ record → timer.repeating = true) :
    Waits (.called h n g timer v :: record) g id f := by
  obtain ⟨⟨job,timer',rfl,set⟩,spared,-⟩ := waits
  refine ⟨⟨job,timer',rfl,List.mem_cons_of_mem _ set⟩,fun job' timer'' f' same before => ?_,
    fun job' timer'' f' same set once => ?_⟩
  · rcases before_cons.mp before with before | ⟨impossible,-⟩
    · exact spared job' timer'' f' same before
    · cases impossible
  · have old := (List.mem_cons.mp set).resolve_left nofun
    cases once.symm.trans (repeats job' timer'' f' same old)

/-- What is known of the engine of a generation. -/
structure Minds (record : List Deed) (g : Nat) (w : World) : Prop where
  given : ∀ job timer f, .set g job timer f ∈ record → timer.id < w.outside.timers.nextId
  table : ∃ t, w.Tends t ∧ ∀ id f, w.Awaits t id f → Waits record g id f

namespace Minds
variable {record : List Deed} {g n : Nat} {w last : World}

/-- A handle that was not given out is not told of. -/
theorem fresh (minds : Minds record g w) (later : w.outside.timers.nextId ≤ n) {job : Option Nat} {timer : Timer} {f : Value}
    (same : timer.id = n) : .set g job timer f ∉ record := by
  intro set
  have less := minds.given job timer f set
  omega

/-- What happens to timers of other generations does not matter. -/
theorem cons (minds : Minds record g w) {d : Deed} (other : ∀ id, d.subject? ≠ some (g,id)) : Minds (d :: record) g w := by
  obtain ⟨given,t,tends,waits⟩ := minds
  refine ⟨fun job timer f set => given job timer f ((List.mem_cons.mp set).resolve_left ?_),t,tends,
    fun id f awaits => (waits id f awaits).cons (other id)⟩
  rintro rfl
  exact other _ rfl

theorem append (minds : Minds record g w) {deeds : List Deed} (other : ∀ d ∈ deeds, ∀ id, d.subject? ≠ some (g,id)) :
    Minds (deeds ++ record) g w := by
  induction deeds with
  | nil => exact minds
  | cons d deeds ih =>
    obtain ⟨here,rest⟩ := List.forall_mem_cons.mp other
    exact (ih rest).cons here

/-- What becomes of the table, where it has callbacks only for timers for which it had them before. -/
theorem of_kept {t : Nat} (after : last.Tends t) (tends : w.Tends t) {P : Nat → Value → Prop}
    (waits : ∀ id f, w.Awaits t id f → Waits record g id f)
    (kept : ∀ id ∈ last.outside.timers.active, id ∈ w.outside.timers.active ∧
      ∀ f, w.Awaits t id f → last.Awaits t id f ∧ (Waits record g id f → P id f)) :
    ∀ id f, last.Awaits t id f → P id f := by
  intro id f awaits
  obtain ⟨active,kept⟩ := kept id (awaits.active after)
  obtain ⟨f',awaited⟩ := tends.awaits active
  obtain ⟨still,waits'⟩ := kept f' awaited
  exact still.unique awaits ▸ waits' (waits id f' awaited)

/-- Timers are left alone. -/
theorem left (minds : Minds record g w) (leaves : w.LeavesTimers last) : Minds record g last := by
  obtain ⟨given,t,tends,waits⟩ := minds
  have after := tends.left leaves
  refine ⟨fun job timer f set => Nat.lt_of_lt_of_le (given job timer f set) leaves.handles,t,after,
    of_kept after tends waits fun id active => ?_⟩
  exact ⟨leaves.active ▸ active,fun f awaits => ⟨awaits.left leaves tends,fun waits => waits⟩⟩

/-- A timer is set, or nothing comes of it. -/
theorem set (minds : Minds record g w) (quiet : record.countP (Deed.calls g w.outside.timers.nextId) = 0) {f : Value}
    {delay : Span} {args : Array Value} {repeating : Bool} {answers : List Answer} {r : Except Thrown Value}
    (ends : (Engine.setTimer f delay args repeating w).Ends answers r last) (job : Option Nat) :
    (∃ v, r = .ok v) ∧ Minds (.set g job ⟨w.outside.timers.nextId,delay,repeating⟩ f :: record) g last ∨
      (∃ e, r = .error e) ∧ Minds record g last := by
  obtain ⟨t,tends,waits⟩ := minds.table
  rcases (Engine.setTimer_alone tends f delay args repeating).ends ends with
    ⟨v,rfl,after,awaits,timers,kept⟩ | ⟨thrown,leaves⟩
  · refine .inl ⟨⟨v,rfl⟩,fun job' timer f' set => ?_,t,after,fun id f' awaits' => ?_⟩
    · rw [timers]
      refine Nat.lt_succ_of_le ?_
      rcases List.mem_cons.mp set with new | old
      · cases new
        exact Nat.le_refl _
      · exact Nat.le_of_lt (minds.given job' timer f' old)
    · -- The new handle was not told of before; all others wait as they did.
      by_cases here : id = w.outside.timers.nextId
      · subst here
        cases awaits.unique awaits'
        refine ⟨⟨job,_,rfl,List.mem_cons_self⟩,fun job' timer f' same before => ?_,fun _ _ _ _ _ _ => ?_⟩
        · rcases before_cons.mp before with before | ⟨impossible,-⟩
          · exact minds.fresh (Nat.le_refl _) same before.mem.1
          · cases impossible
        · exact (List.countP_cons_of_neg Bool.false_ne_true).trans quiet
      · have active := awaits'.active after
        rw [timers] at active
        have old := (List.mem_cons.mp active).resolve_left here
        obtain ⟨f'',awaited⟩ := tends.awaits old
        cases (kept id f'' awaited).unique awaits'
        refine (waits id _ awaited).cons fun same => here ?_
        exact (Prod.mk.inj (Option.some.inj same)).2.symm
  · exact .inr ⟨thrown,minds.left leaves⟩

/-- A handle is cleared. -/
theorem clear (minds : Minds record g w) {answers : List Answer} {r : Except Thrown Unit}
    (ends : (Engine.clearTimer n w).Ends answers r last) : r = .ok () ∧ Minds (.cleared g n :: record) g last := by
  obtain ⟨t,tends,waits⟩ := minds.table
  rcases (Engine.clearTimer_alone tends n).ends ends with ⟨v,rfl,after,timers,kept⟩ | ⟨-,impossible⟩
  · refine ⟨rfl,fun job timer f set => ?_,t,after,of_kept after tends waits fun id active => ?_⟩
    · rw [timers]
      exact minds.given job timer f ((List.mem_cons.mp set).resolve_left nofun)
    · rw [timers] at active
      obtain ⟨active,other⟩ := List.mem_filter.mp active
      have other : id ≠ n := of_decide_eq_true other
      refine ⟨active,fun f awaits => ⟨kept id f other awaits,fun waits => waits.cons fun same => other ?_⟩⟩
      exact (Prod.mk.inj (Option.some.inj same)).2.symm
  · exact impossible.elim

/-- A timer fires that was neither cleared nor, unless it repeats, called: its callback is called. -/
theorem fire (minds : Minds record g w) {timer : Timer} (active : timer.id ∈ w.outside.timers.active)
    (only : ∀ job timer' f, timer'.id = timer.id → .set g job timer' f ∈ record → timer' = timer) :
    ∃ f args last next, Engine.fireTimer timer.id timer.repeating w = .ask (.call f .undefined args) last next ∧
      Waits record g timer.id f ∧ Minds (.called g n g timer f :: record) g last := by
  obtain ⟨t,tends,waits⟩ := minds.table
  obtain ⟨f,args,last,next,awaits,asks,-,after,timers,kept⟩ := Engine.fireTimer_calls tends active timer.repeating
  have apart : ∀ {id}, id ≠ timer.id → (Deed.called g n g timer f).subject? ≠ some (g,id) :=
    fun other same => other (Prod.mk.inj (Option.some.inj same)).2.symm
  refine ⟨f,args,last,next,asks,waits _ f awaits,fun job timer' f' set => ?_,t,after,?_⟩
  · have less := minds.given job timer' f' ((List.mem_cons.mp set).resolve_left nofun)
    rw [timers]
    split <;> exact less
  · -- A timer that repeats stays in the table; any other one is out of it before its callback is called.
    cases repeats : timer.repeating with
    | true =>
      simp only [repeats,if_true] at timers kept
      refine of_kept after tends waits fun id active =>
        ⟨timers ▸ active,fun f' awaits => ⟨kept id f' nofun awaits,fun waits => ?_⟩⟩
      by_cases here : id = timer.id
      · subst here
        exact waits.again fun job timer' f set same => only job timer' f set same ▸ repeats
      · exact waits.cons (apart here)
    | false =>
      simp only [repeats,Bool.false_eq_true,if_false] at timers kept
      refine of_kept after tends waits fun id active => ?_
      rw [timers] at active
      obtain ⟨active,other⟩ := List.mem_filter.mp active
      have other : id ≠ timer.id := of_decide_eq_true other
      exact ⟨active,fun f' awaits => ⟨kept id f' (fun _ => other) awaits,fun waits => waits.cons (apart other)⟩⟩

end Minds

/-! ### The timetable -/

/-- The scheduler and the engines of its generations. -/
structure Timetable (τ : Type) where
  system : System (Work τ)
  worlds : Nat → World
  /-- The jobs of timers that have not fired yet, by their numbers: the timer, and the generation in which it was set. -/
  due : Nat → Option (Nat × Timer) := fun _ => none
  /-- Newest first. -/
  record : List Deed := []

namespace Timetable

/-- What happens next. -/
inductive Turn (τ : Type) where
  | system (a : Action (Work τ))
  /-- The delay of a timer is over, and a thread hands in its job. -/
  | ring (who : Party) (g : Nat) (timer : Timer)
  /-- A script sets a timer. -/
  | set (g : Nat) (f : Value) (delay : Span) (args : Array Value) (repeating : Bool) (answers : List Answer)
    (r : Except Thrown Value) (last : World)
  /-- A script clears a handle. -/
  | clear (g id : Nat) (answers : List Answer) (r : Except Thrown Unit) (last : World)
  /-- The job of a timer comes as far as the call of the callback, if it calls it. -/
  | fire (g : Nat)
  /-- Anything else happens to the engine of a generation. -/
  | elsewhere (g : Nat) (last : World)

/-- A script may run: a job does, or what it has left waiting. -/
def isAtWork (p : Timetable τ) (g : Nat) : Bool :=
  match p.system.workers g with
  | .runs _ _ | .settles _ => true
  | _ => false

/-- The newest job of a generation. -/
def job? (p : Timetable τ) (g : Nat) : Option Nat := (jobsOf (begun g p.system.history)).head?

/-- Something becomes of the engine of a generation, and deeds go on record. -/
def proceed (p : Timetable τ) (g : Nat) (last : World) (deeds : List Deed) : Timetable τ :=
  { p with worlds := Function.update p.worlds g last, record := deeds ++ p.record }

/-- A deed is done once the function has returned that does it. -/
def noted {α : Type} (r : Except Thrown α) (d : Deed) : List Deed :=
  match r with
  | .ok _ => [d]
  | .error _ => []

/-- What comes of a turn, if it can be taken. -/
def act (first : Work τ) (p : Timetable τ) : Turn τ → Option (Timetable τ)
  | .system a => (p.system.act first a).map ({ p with system := · })
  | .ring who g timer =>
    (p.system.act first (.submit who g (Host.timerJob timer))).map fun system =>
      { p with
        system
        due := Function.update p.due p.system.scheduler.serial (some (g,timer))
        record := .rang g p.system.scheduler.serial timer :: p.record }
  | .set g f delay _ repeating _ r last =>
    if p.isAtWork g then
      some (p.proceed g last
        (noted r (.set g (p.job? g) ⟨(p.worlds g).outside.timers.nextId,delay,repeating⟩ f)))
    else none
  | .clear g id _ r last =>
    if p.isAtWork g then some (p.proceed g last (noted r (.cleared g id))) else none
  | .fire g =>
    match (p.system.workers g).running? with
    | none => none
    | some n =>
      match p.due n with
      | none => none
      | some (origin,timer) =>
        let p := { p with due := Function.update p.due n none }
        match Engine.fireTimer timer.id timer.repeating (p.worlds g) with
        | .ok _ last | .thrown _ last => some (p.proceed g last [])
        | .ask (.call f _ _) last _ => some (p.proceed g last [.called g n origin timer f])
        | .ask _ last _ => some (p.proceed g last [])
  | .elsewhere g last => some (p.proceed g last [])

/-- What a turn relies on: computations end as they do, a delay is over only of a timer that was set, and whatever else
    happens leaves timers alone. -/
def Possible (p : Timetable τ) : Turn τ → Prop
  | .ring _ g timer => ∃ job f, .set g job timer f ∈ p.record
  | .set g f delay args repeating answers r last =>
    (Engine.setTimer f delay args repeating (p.worlds g)).Ends answers r last
  | .clear g id answers r last => (Engine.clearTimer id (p.worlds g)).Ends answers r last
  | .elsewhere g last => (p.worlds g).LeavesTimers last
  | .system _ | .fire _ => True

/-- The timetables that some turns lead to, from a scheduler that was never started and engines that have just got their
    tables of timers. -/
inductive Reachable (first : Work τ) (capacity : Nat) : Timetable τ → Prop where
  | init (worlds : Nat → World)
      (made : ∀ g, ∃ (w : World) (answers : List Answer), w.Blank ∧
        (Engine.installTimers w).Ends answers (.ok ()) (worlds g)) :
      Reachable first capacity { system := .init capacity, worlds }
  | act {p q : Timetable τ} (t : Turn τ) (reached : Reachable first capacity p) (possible : p.Possible t)
      (taken : p.act first t = some q) : Reachable first capacity q

/-- What is true of timers at any time. -/
structure Punctual (p : Timetable τ) : Prop where
  /-- In a generation a handle is given out once. -/
  distinct : (p.record.filterMap Deed.handle?).Nodup
  /-- A callback is called in a job of its own generation, which its timer has handed in after it was set, and which is
      not the job in which it was set. -/
  own : ∀ g n origin timer f, .called g n origin timer f ∈ p.record → origin = g ∧
    .began g ⟨n,g,.job (Host.timerJob timer)⟩ ∈ p.system.history ∧
    ∃ job, [.called g n g timer f,.rang g n timer,.set g job timer f].Sublist p.record ∧ job ≠ some n
  /-- A callback that does not repeat is called once at most. -/
  once : ∀ g job timer f, .set g job timer f ∈ p.record → timer.repeating = false →
    p.record.countP (Deed.calls g timer.id) ≤ 1
  /-- Once a handle was cleared that was given out, its callback is not called. -/
  silent : ∀ g job timer f h n timer' f', timer'.id = timer.id →
    ¬[.called h n g timer' f',.cleared g timer.id,.set g job timer f].Sublist p.record

namespace Punctual
variable {p q : Timetable τ}

/-- Nothing happens to timers. -/
theorem still (punctual : p.Punctual) (record : q.record = p.record) (history : p.system.history ⊆ q.system.history) :
    q.Punctual := by
  obtain ⟨distinct,own,once,silent⟩ := punctual
  refine ⟨record ▸ distinct,fun g n origin timer f called => ?_,record ▸ once,record ▸ silent⟩
  rw [record] at called ⊢
  obtain ⟨home,began,chain⟩ := own g n origin timer f called
  exact ⟨home,history began,chain⟩

/-- Something happens to a timer, but its callback is not called. -/
theorem cons (punctual : p.Punctual) {d : Deed} (record : q.record = d :: p.record)
    (history : p.system.history ⊆ q.system.history) (uncalled : ∀ g n origin timer f, d ≠ .called g n origin timer f)
    (distinct : (q.record.filterMap Deed.handle?).Nodup)
    (fresh : ∀ g job timer f, d = .set g job timer f → p.record.countP (Deed.calls g timer.id) = 0) : q.Punctual := by
  have count : ∀ g id, q.record.countP (Deed.calls g id) = p.record.countP (Deed.calls g id) := by
    intro g id
    rw [record]
    refine List.countP_cons_of_neg ?_
    cases d with
    | called h n origin timer f => exact absurd rfl (uncalled h n origin timer f)
    | _ => exact Bool.false_ne_true
  refine ⟨distinct,fun g n origin timer f called => ?_,fun g job timer f set repeats => ?_,
    fun g job timer f h n timer' f' same chain => ?_⟩
  · rw [record] at called ⊢
    obtain ⟨home,began,job,chain,other⟩ :=
      punctual.own g n origin timer f ((List.mem_cons.mp called).resolve_left (uncalled g n origin timer f).symm)
    exact ⟨home,history began,job,chain.cons d,other⟩
  · rw [count]
    rw [record] at set
    rcases List.mem_cons.mp set with new | old
    · exact Nat.le_trans (Nat.le_of_eq (fresh g job timer f new.symm)) (Nat.zero_le 1)
    · exact punctual.once g job timer f old repeats
  · rw [record] at chain
    cases chain with
    | cons _ chain => exact punctual.silent g job timer f h n timer' f' same chain
    | cons_cons _ chain => exact uncalled h n g timer' f' rfl

/-- A callback is called that may be called. -/
theorem call (punctual : p.Punctual) {g n : Nat} {job : Option Nat} {timer : Timer} {f : Value}
    (record : q.record = .called g n g timer f :: p.record) (history : p.system.history ⊆ q.system.history)
    (began : .began g ⟨n,g,.job (Host.timerJob timer)⟩ ∈ q.system.history) (waits : Waits p.record g timer.id f)
    (before : Before p.record (.set g job timer f) (.rang g n timer)) (other : job ≠ some n) : q.Punctual := by
  refine ⟨record ▸ punctual.distinct,fun g' n' origin timer' f' called => ?_,fun g' job' timer' f' set repeats => ?_,
    fun g' job' timer' f' h n' timer'' f'' same chain => ?_⟩
  · rw [record] at called ⊢
    rcases List.mem_cons.mp called with new | old
    · cases new
      exact ⟨rfl,began,job,before.cons_cons _,other⟩
    · obtain ⟨home,began,job',chain,other⟩ := punctual.own g' n' origin timer' f' old
      exact ⟨home,history began,job',chain.cons _,other⟩
  · rw [record] at set ⊢
    have old := (List.mem_cons.mp set).resolve_left nofun
    by_cases calls : (Deed.called g n g timer f).calls g' timer'.id = true
    · have same := Deed.subject_of_calls calls
      simp only [Deed.subject?,Option.some.injEq,Prod.mk.injEq] at same
      obtain ⟨rfl,same⟩ := same
      have none : p.record.countP (Deed.calls g timer'.id) = 0 := same ▸ waits.fresh job' timer' f' same.symm old repeats
      exact Nat.le_of_eq ((List.countP_cons_of_pos calls).trans (congrArg Nat.succ none))
    · rw [List.countP_cons_of_neg calls]
      exact punctual.once g' job' timer' f' old repeats
  · rw [record] at chain
    cases chain with
    | cons _ chain => exact punctual.silent g' job' timer' f' h n' timer'' f'' same chain
    | cons_cons _ chain =>
      -- The call is the newest deed: a clear that it follows would be one that the callback was not spared.
      exact waits.spared job' timer' f' same.symm (same ▸ chain)

/-- What is called was set. -/
theorem set_of_calls (punctual : p.Punctual) {g id : Nat} (some : p.record.countP (Deed.calls g id) ≠ 0) :
    ∃ job timer f, timer.id = id ∧ .set g job timer f ∈ p.record := by
  obtain ⟨d,member,calls⟩ := List.countP_pos_iff.mp (Nat.pos_of_ne_zero some)
  cases d with
  | called h n origin timer f =>
    simp only [Deed.calls,Bool.and_eq_true,beq_iff_eq] at calls
    obtain ⟨rfl,rfl⟩ := calls
    obtain ⟨rfl,-,job,chain,-⟩ := punctual.own h n origin timer f member
    exact ⟨job,timer,f,rfl,chain.subset (by simp)⟩
  | _ => cases calls

end Punctual

/-- What is known of a timetable. -/
structure Regular (first : Work τ) (capacity : Nat) (j : Journal (Work τ)) (l : Ledger (Work τ)) (p : Timetable τ) :
    Prop where
  audited : Audited first capacity j l p.system
  punctual : p.Punctual
  minds : ∀ g, Minds p.record g (p.worlds g)
  /-- Timers were set in jobs whose numbers are not those of jobs to come. -/
  jobs : ∀ g n timer f, .set g (some n) timer f ∈ p.record → n < p.system.scheduler.serial
  due : ∀ n g timer, p.due n = some (g,timer) → ∃ who job f, (who,⟨n,g,.job (Host.timerJob timer)⟩) ∈ j.calls ∧
    Before p.record (.set g job timer f) (.rang g n timer) ∧ job ≠ some n

section
variable {first : Work τ} {p q : Timetable τ} {g n origin : Nat} {timer : Timer} {last : World}

/-- Only the job of a timer fires. -/
theorem due_of_act (taken : p.act first (.fire g) = some q) :
    ∃ n origin timer, (p.system.workers g).running? = some n ∧ p.due n = some (origin,timer) := by
  simp only [act] at taken
  split at taken
  · cases taken
  · next n runs =>
    split at taken
    · cases taken
    · next origin timer due => exact ⟨n,origin,timer,runs,due⟩

theorem act_fire (runs : (p.system.workers g).running? = some n) (due : p.due n = some (origin,timer)) {f this : Value}
    {args : Array Value} {next : Engine.Reply → World → Engine.Tree Unit}
    (asks : Engine.fireTimer timer.id timer.repeating (p.worlds g) = .ask (.call f this args) last next) :
    p.act first (.fire g) =
      some (proceed { p with due := Function.update p.due n none } g last [.called g n origin timer f]) := by
  simp only [act,runs,due,asks]

theorem act_fire_idle (runs : (p.system.workers g).running? = some n) (due : p.due n = some (origin,timer))
    (ends : Engine.fireTimer timer.id timer.repeating (p.worlds g) = .ok () last) :
    p.act first (.fire g) = some (proceed { p with due := Function.update p.due n none } g last []) := by
  simp only [act,runs,due,ends]

end

namespace Regular
variable {first : Work τ} {capacity g n : Nat} {j : Journal (Work τ)} {l : Ledger (Work τ)} {p q : Timetable τ} {last : World}
  {deeds : List Deed}

theorem advance (regular : Regular first capacity j l p) {a : Action (Work τ)} {system : System (Work τ)}
    (taken : p.system.act first a = some system) :
    Regular first capacity (j.after p.system system a) (l.after p.system a) { p with system } := by
  obtain ⟨audited,punctual,minds,jobs,due⟩ := regular
  obtain ⟨events,grows⟩ := System.history_step (System.step_of_act taken)
  have history : p.system.history ⊆ system.history := grows ▸ List.subset_append_right events _
  refine ⟨.act a audited taken,punctual.still rfl history,minds,fun g n timer f set => ?_,fun n g timer here => ?_⟩
  · exact Nat.lt_of_lt_of_le (jobs g n timer f set) (audited.serial_step taken)
  · obtain ⟨who,job,f,called,rest⟩ := due n g timer here
    exact ⟨who,job,f,Journal.calls_after called,rest⟩

theorem ring (regular : Regular first capacity j l p) {who : Party} {timer : Timer} {system : System (Work τ)}
    (set : ∃ job f, .set g job timer f ∈ p.record)
    (taken : p.system.act first (.submit who g (Host.timerJob timer)) = some system) :
    Regular first capacity (j.after p.system system (.submit who g (Host.timerJob timer)))
      (l.after p.system (.submit who g (Host.timerJob timer))) { p with
        system
        due := Function.update p.due p.system.scheduler.serial (some (g,timer))
        record := .rang g p.system.scheduler.serial timer :: p.record } := by
  obtain ⟨audited,punctual,minds,jobs,due⟩ := regular.advance taken
  refine ⟨audited,punctual.cons rfl (fun _ => id) nofun punctual.distinct nofun,fun h => (minds h).cons nofun,
    fun h n timer f set => ?_,fun n h timer' here => ?_⟩
  · exact jobs h n timer f ((List.mem_cons.mp set).resolve_left nofun)
  · by_cases new : n = p.system.scheduler.serial
    · subst new
      have here : some (g,timer) = some (h,timer') := (Function.update_self _ _ p.due).symm.trans here
      cases here
      obtain ⟨job,f,set⟩ := set
      refine ⟨who,job,f,List.mem_cons_self,before_cons.mpr (.inr ⟨rfl,set⟩),?_⟩
      -- The job that is handed in has a number that no job has in which a timer was set.
      rintro rfl
      exact Nat.lt_irrefl _ (regular.jobs g _ timer f set)
    · have here : p.due n = some (h,timer') := (Function.update_of_ne new _ _).symm.trans here
      obtain ⟨who,job,f,called,before,other⟩ := due n h timer' here
      exact ⟨who,job,f,called,before_cons.mpr (.inl before),other⟩

/-- Something becomes of an engine. -/
theorem proceed (regular : Regular first capacity j l p) (punctual : (p.proceed g last deeds).Punctual)
    (own : ∀ d ∈ deeds, ∀ h id, d.subject? = some (h,id) → h = g) (minds : Minds (deeds ++ p.record) g last)
    (jobs : ∀ h n timer f, .set h (some n) timer f ∈ deeds → n < p.system.scheduler.serial) :
    Regular first capacity j l (p.proceed g last deeds) := by
  refine ⟨regular.audited,punctual,fun h => ?_,fun h n timer f set => ?_,fun n h timer here => ?_⟩
  · show Minds (deeds ++ p.record) h (Function.update p.worlds g last h)
    by_cases here : h = g
    · subst here
      rwa [Function.update_self]
    · rw [Function.update_of_ne here]
      exact (regular.minds h).append fun d member id same => here (own d member h id same)
  · exact (List.mem_append.mp set).elim (jobs h n timer f) (regular.jobs h n timer f)
  · obtain ⟨who,job,f,called,before,other⟩ := regular.due n h timer here
    exact ⟨who,job,f,called,before.append deeds,other⟩

/-- Something happens to a timer of the engine. -/
theorem tell (regular : Regular first capacity j l p) {d : Deed} {id : Nat} (subject : d.subject? = some (g,id))
    (punctual : (p.proceed g last [d]).Punctual) (minds : Minds (d :: p.record) g last)
    (jobs : ∀ h n timer f, d = .set h (some n) timer f → n < p.system.scheduler.serial) :
    Regular first capacity j l (p.proceed g last [d]) := by
  refine regular.proceed punctual (fun d' member h id' same => ?_) minds fun h n timer f member => ?_
  · cases List.mem_singleton.mp member
    cases subject.symm.trans same
    rfl
  · exact jobs h n timer f (List.mem_singleton.mp member).symm

/-- An engine goes on without anything that concerns timers. -/
theorem leave (regular : Regular first capacity j l p) (leaves : (p.worlds g).LeavesTimers last) :
    Regular first capacity j l (p.proceed g last []) :=
  regular.proceed (regular.punctual.still rfl fun _ => id) nofun ((regular.minds g).left leaves) nofun

theorem set (regular : Regular first capacity j l p) {f : Value} {delay : Span} {args : Array Value} {repeating : Bool}
    {answers : List Answer} {r : Except Thrown Value}
    (ends : (Engine.setTimer f delay args repeating (p.worlds g)).Ends answers r last) :
    Regular first capacity j l (p.proceed g last
      (noted r (.set g (p.job? g) ⟨(p.worlds g).outside.timers.nextId,delay,repeating⟩ f))) := by
  have minds := regular.minds g
  have quiet : p.record.countP (Deed.calls g (p.worlds g).outside.timers.nextId) = 0 := by
    by_contra some
    obtain ⟨job,timer,f,same,set⟩ := regular.punctual.set_of_calls some
    exact minds.fresh (Nat.le_refl _) same set
  rcases minds.set quiet ends (p.job? g) with ⟨⟨v,rfl⟩,minds'⟩ | ⟨⟨e,rfl⟩,minds'⟩
  · refine regular.tell rfl (regular.punctual.cons rfl (fun _ => id) nofun ?_ ?_) minds' ?_
    · refine List.nodup_cons.mpr ⟨fun again => ?_,regular.punctual.distinct⟩
      obtain ⟨d,member,same⟩ := List.mem_filterMap.mp again
      cases d with
      | set h job timer f' =>
        simp only [Deed.handle?,Option.some.injEq,Prod.mk.injEq] at same
        obtain ⟨rfl,same⟩ := same
        exact minds.fresh (Nat.le_refl _) same member
      | _ => cases same
    · rintro h job timer f' same
      cases same
      exact quiet
    · rintro h n timer f' same
      obtain ⟨rfl,job,-⟩ := Deed.set.inj same
      exact regular.audited.serial_of_begun (List.mem_of_head? job)
  · exact regular.proceed (regular.punctual.still rfl fun _ => id) nofun minds' nofun

theorem clear (regular : Regular first capacity j l p) {answers : List Answer} {r : Except Thrown Unit}
    (ends : (Engine.clearTimer n (p.worlds g)).Ends answers r last) :
    Regular first capacity j l (p.proceed g last (noted r (.cleared g n))) := by
  obtain ⟨rfl,minds⟩ := (regular.minds g).clear ends
  exact regular.tell rfl (regular.punctual.cons rfl (fun _ => id) nofun regular.punctual.distinct nofun) minds nofun

/-- A timer has had its turn. -/
theorem spend (regular : Regular first capacity j l p) (n : Nat) :
    Regular first capacity j l { p with due := Function.update p.due n none } := by
  obtain ⟨audited,punctual,minds,jobs,due⟩ := regular
  refine ⟨audited,punctual.still rfl fun _ => id,minds,jobs,fun m g timer here => ?_⟩
  by_cases same : m = n
  · subst same
    cases (Function.update_self ..).symm.trans here
  · exact due m g timer ((Function.update_of_ne same _ _).symm.trans here)

theorem fire (regular : Regular first capacity j l p) (taken : p.act first (.fire g) = some q) :
    Regular first capacity j l q := by
  obtain ⟨n,origin,timer,runs,due⟩ := due_of_act taken
  have spent := regular.spend n
  obtain ⟨who,job,f',called,before,other⟩ := regular.due n origin timer due
  obtain ⟨home,began⟩ := regular.audited.began_of_called called runs
  subst home
  have set := before.mem.1
  have minds := regular.minds origin
  by_cases active : timer.id ∈ (p.worlds origin).outside.timers.active
  · obtain ⟨f,args,last,next,asks,waits,minds'⟩ := minds.fire (n := n) active fun job' timer' f' same set' =>
      (set_unique regular.punctual.distinct set' set same).2.1
    -- The callback was set under the handle, and the handle was given out once, so it is the one of this timer.
    obtain ⟨job',timer',same,set'⟩ := waits.set
    obtain ⟨-,-,rfl⟩ := set_unique regular.punctual.distinct set' set same
    cases (act_fire runs due asks).symm.trans taken
    exact spent.tell rfl (spent.punctual.call rfl (fun _ => id) began waits before other) minds' nofun
  · cases (act_fire_idle runs due (Engine.fireTimer_idle active _)).symm.trans taken
    exact spent.proceed (spent.punctual.still rfl fun _ => id) nofun minds nofun

end Regular

variable {first : Work τ} {capacity : Nat} {p : Timetable τ}

/-- What is known of a timetable stays true whatever happens next. -/
theorem Regular.step {j : Journal (Work τ)} {l : Ledger (Work τ)} {q : Timetable τ} (regular : Regular first capacity j l p)
    {t : Turn τ} (possible : p.Possible t) (taken : p.act first t = some q) : ∃ j l, Regular first capacity j l q := by
  cases t with
  | system a =>
    obtain ⟨system,stepped,rfl⟩ := Option.map_eq_some_iff.mp taken
    exact ⟨_,_,regular.advance stepped⟩
  | ring who g timer =>
    obtain ⟨system,stepped,rfl⟩ := Option.map_eq_some_iff.mp taken
    exact ⟨_,_,regular.ring possible stepped⟩
  | set g f delay args repeating answers r last =>
    obtain ⟨-,same⟩ := Option.ite_none_right_eq_some.mp taken
    cases same
    exact ⟨j,l,regular.set possible⟩
  | clear g id answers r last =>
    obtain ⟨-,same⟩ := Option.ite_none_right_eq_some.mp taken
    cases same
    exact ⟨j,l,regular.clear possible⟩
  | fire g => exact ⟨j,l,regular.fire taken⟩
  | elsewhere g last =>
    cases taken
    exact ⟨j,l,regular.leave possible⟩

theorem Reachable.regular (reached : Reachable first capacity p) : ∃ j l, Regular first capacity j l p := by
  induction reached with
  | init worlds made =>
    have punctual : Punctual (τ := τ) { system := .init capacity, worlds } :=
      ⟨.nil,nofun,nofun,fun g job timer f h n timer' f' same chain => nomatch chain⟩
    refine ⟨{},{},.init,punctual,fun g => ⟨nofun,?_⟩,nofun,nofun⟩
    obtain ⟨w,answers,blank,ends⟩ := made g
    rcases (Engine.installTimers_alone blank).ends ends with ⟨_,-,t,tends,timers⟩ | ⟨⟨e,thrown⟩,-⟩
    · refine ⟨t,tends,fun id f awaits => ?_⟩
      have active := awaits.active tends
      rw [timers,blank.idle] at active
      cases active
    · cases thrown
  | act t reached possible taken ih =>
    obtain ⟨j,l,regular⟩ := ih
    exact regular.step possible taken

/-- Whatever scripts, delays and threads do, as long as scripts leave the table of timers and its names alone: handles are
    different, a callback is called in a job of its own that the timer has handed in after the job in which it was set, in
    its own generation, once at most unless it repeats, and not after its handle was cleared. -/
theorem punctual_of_reachable (reached : Reachable first capacity p) : p.Punctual := by
  obtain ⟨j,l,regular⟩ := reached.regular
  exact regular.punctual

theorem Reachable.run {first : Work τ} {capacity : Nat} {p : Timetable τ} (reached : Reachable first capacity p)
    (actions : List (Action (Work τ))) {system : System (Work τ)} (taken : p.system.run first actions = some system) :
    Reachable first capacity { p with system } := by
  induction actions generalizing p with
  | nil =>
    cases taken
    exact reached
  | cons a rest ih =>
    simp only [System.run] at taken
    split at taken
    · next middle step =>
      have next : Reachable first capacity { p with system := middle } :=
        .act (.system a) reached trivial (congrArg (Option.map _) step)
      exact ih (p := { p with system := middle }) next taken
    · cases taken

theorem Reachable.set {first : Work τ} {capacity : Nat} {p : Timetable τ} (reached : Reachable first capacity p) {g : Nat}
    (atWork : p.isAtWork g = true) {f : Value} {delay : Span} {args : Array Value} {repeating : Bool}
    {answers : List Answer} {v : Value} {last : World}
    (ends : (Engine.setTimer f delay args repeating (p.worlds g)).Ends answers (.ok v) last) :
    Reachable first capacity
      (p.proceed g last [.set g (p.job? g) ⟨(p.worlds g).outside.timers.nextId,delay,repeating⟩ f]) :=
  .act (.set g f delay args repeating answers (.ok v) last) reached ends (if_pos atWork)

theorem Reachable.ring {first : Work τ} {capacity : Nat} {p : Timetable τ} (reached : Reachable first capacity p) {who : Party}
    {g : Nat} {timer : Timer} (set : ∃ job f, .set g job timer f ∈ p.record) {system : System (Work τ)}
    (taken : p.system.act first (.submit who g (Host.timerJob timer)) = some system) :
    Reachable first capacity { p with
      system
      due := Function.update p.due p.system.scheduler.serial (some (g,timer))
      record := .rang g p.system.scheduler.serial timer :: p.record } :=
  .act (.ring who g timer) reached set (congrArg (Option.map _) taken)

/-- An engine whose objects have no properties. -/
def bare : World := { (default : World) with heap := Array.replicate (Intrinsic.global.id+1) { proto := .null } }

theorem blank_bare : bare.Blank := by
  have here : ∀ id, id < Intrinsic.global.id+1 → bare.obj id = { proto := .null } := by
    intro id inside
    simp [World.obj,bare,Array.getD,inside]
  have tame : ∀ k id, id < Intrinsic.global.id+1 → bare.Tame k (.obj id) := fun k id inside =>
    World.tame_of_empty (by simpa [bare] using inside) (here id inside) k
  have global := here Intrinsic.global.id (by decide)
  refine ⟨fun name _ => ⟨by simp [bare],congrArg Engine.Obj.kind global,fun s kept => ?_,?_⟩,
    fun k _ => tame k _ (by decide),fun i => tame _ _ (by decide),rfl⟩
  · unfold World.kept? at kept
    rw [global] at kept
    cases kept
  · rw [global]
    exact .top fun id same => by cases same

/-- The world that a computation comes to without a question. -/
def comesTo {α : Type} : Engine.Tree α → Option World
  | .ok _ w => some w
  | _ => none

theorem ends_of_comesTo {α : Type} {t : Engine.Tree α} (ends : (comesTo t).isSome = true) :
    ∃ a, t.Ends [] (.ok a) ((comesTo t).get ends) := by
  cases t with
  | ok a w => exact ⟨a,.ok⟩
  | _ => cases ends

/-- The engine has got its table of timers. -/
@[irreducible] def ready : World := (comesTo (Engine.installTimers bare)).get (by decide +kernel)

/-- The function that sets timers, as a callback. -/
def callback : Value := .obj (Intrinsic.global.id+2)

/-- A timer was set. -/
@[irreducible] def armed : World :=
  (comesTo (Engine.setTimer callback (.millis 5) #[] false ready)).get (by decide +kernel)

theorem ends_ready : (Engine.installTimers bare).Ends [] (.ok ()) ready := by
  unfold ready
  exact (ends_of_comesTo _).elim fun _ ends => ends

theorem ends_armed : ∃ v, (Engine.setTimer callback (.millis 5) #[] false ready).Ends [] (.ok v) armed := by
  unfold armed
  exact ends_of_comesTo _

def timer : Timer := ⟨1,.millis 5,false⟩

/-- It is the first one, and it waits. -/
theorem timer_armed : (⟨ready.outside.timers.nextId,.millis 5,false⟩ : Timer) = timer ∧
    timer.id ∈ armed.outside.timers.active := by decide +kernel

/-- A generation is opened, and its first job runs. -/
def opening : List (Action (Work Unit)) :=
  List.flatten [[.start (.thread 0)],List.replicate 8 (.go (.thread 0) (.ok ()) 0),[.return (.thread 0),.takeHandle],
    List.replicate 6 (.work 1 0)]

/-- The job of a timer makes its way into the queue, the first job comes to its end, and the job of the timer runs. -/
def waiting : List (Action (Work Unit)) :=
  List.flatten [List.replicate 3 (.go (.thread 1) (.ok ()) 0),[.finish 1 false,.work 1 0,.settle 1],
    List.replicate 6 (.work 1 0)]

theorem opens : ((System.init 2).run .done opening).any (fun σ =>
    (σ.workers 1).running? == some 0 && (σ.act .done (.submit (.thread 1) 1 (Host.timerJob timer))).any fun τ =>
      (τ.run .done waiting).any fun υ => (υ.workers 1).running? == some σ.scheduler.serial) = true := by decide +kernel

theorem isAtWork_of_running {p : Timetable τ} {g n : Nat} (runs : (p.system.workers g).running? = some n) :
    p.isAtWork g = true := by
  unfold isAtWork
  cases place : p.system.workers g with
  | runs m c => rfl
  | _ => simp [place,Worker.running?] at runs

/-- The job of a timer that was set runs, and the timer waits to fire. -/
theorem reached_due : ∃ (p : Timetable Unit) (n : Nat) (job : Option Nat), Reachable .done 2 p ∧
    (p.system.workers 1).running? = some n ∧ p.due n = some (1,timer) ∧ p.worlds 1 = armed ∧
    .set 1 job timer callback ∈ p.record := by
  obtain ⟨σ,opened,facts⟩ := (Option.any_eq_true _ _).mp opens
  simp only [Bool.and_eq_true,beq_iff_eq] at facts
  obtain ⟨runs,facts⟩ := facts
  obtain ⟨υ,handed,facts⟩ := (Option.any_eq_true _ _).mp facts
  obtain ⟨φ,waited,runs'⟩ := (Option.any_eq_true _ _).mp facts
  obtain ⟨v,sets⟩ := ends_armed
  have start : Reachable (τ := Unit) .done 2 { system := .init 2, worlds := fun _ => ready } :=
    .init _ fun _ => ⟨bare,[],blank_bare,ends_ready⟩
  have given := (start.run opening opened).set (isAtWork_of_running runs) sets
  have set : ∀ job, Deed.set 1 job timer callback ∈
      [.set 1 job ⟨ready.outside.timers.nextId,.millis 5,false⟩ callback] := fun job => by
    rw [timer_armed.1]
    exact List.mem_cons_self
  have rung := given.ring ⟨_,_,set _⟩ handed
  exact ⟨_,_,_,rung.run waiting waited,beq_iff_eq.mp runs',by simp [proceed],by simp [proceed],
    List.mem_cons_of_mem _ (set _)⟩

theorem punctual_after_call : ∃ p : Timetable Unit, Reachable .done 2 p ∧
    (∃ n timer f, .called 1 n 1 timer f ∈ p.record) ∧ p.Punctual := by
  obtain ⟨p,n,job,reached,runs,due,world,set⟩ := reached_due
  obtain ⟨j,l,regular⟩ := reached.regular
  obtain ⟨f,args,last,next,asks,-⟩ := (regular.minds 1).fire (n := n) (world ▸ timer_armed.2)
    fun job' timer' f' same set' => (set_unique regular.punctual.distinct set' set same).2.1
  have fired := Reachable.act (.fire 1) reached trivial (act_fire runs due asks)
  exact ⟨_,fired,⟨_,_,_,List.mem_cons_self⟩,punctual_of_reachable fired⟩

end Timetable

end ScriptHost
