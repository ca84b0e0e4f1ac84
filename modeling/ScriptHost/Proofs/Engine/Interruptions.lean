import ScriptHost.Interrupt
/-!
Requests to abort scripts, from any threads, beside the worker. A request takes two steps: it stores its reason, and it
raises the flag. On the worker the engine asks for the flag (`fire`), the failure of a script takes the reason
(`takeFired`), and before each job all is forgotten in three steps. Any number of requests may be between their two steps
whenever the worker takes one of its own. Events are on record newest first.
-/
namespace ScriptHost.Interrupt

/-- How far the worker is with forgetting. -/
inductive Phase where
  | idle
  /-- The flag is down. -/
  | lowered
  /-- It is also forgotten that a script was aborted. -/
  | settled
  deriving DecidableEq

/-- What has happened to the three cells. -/
inductive Event where
  /-- A request has stored its reason; requests are numbered. -/
  | stored (n : Nat) (reason : String)
  /-- A request has raised the flag. -/
  | flagged (n : Nat)
  /-- The engine has asked whether to abort the script. -/
  | asked (answer : Bool)
  /-- The reason of an abortion was taken, or there was none. -/
  | took (told : Option String)
  | clearedRequested
  | clearedFired
  | clearedReason
  deriving DecidableEq

namespace Event

/-- The reason that is stored, with the number of its request. -/
def reason? : Event → Option (Nat × String)
  | .stored n reason => some (n,reason)
  | _ => none

/-- The flag is raised. -/
def raises : Event → Bool
  | .flagged _ => true
  | _ => false

/-- The flag is down after this. -/
def lowers : Event → Bool
  | .asked answer => answer
  | .clearedRequested => true
  | _ => false

/-- A script is aborted. -/
def aborts : Event → Bool
  | .asked answer => answer
  | _ => false

/-- No abortion is left to be told of after this. -/
def settles : Event → Bool
  | .took told => told.isSome
  | .clearedFired => true
  | _ => false

/-- There is no reason after this. -/
def wipes : Event → Bool
  | .took told => told.isSome
  | .clearedReason => true
  | _ => false

theorem reason_eq_some {e : Event} {n : Nat} {reason : String} (stores : e.reason? = some (n,reason)) :
    e = .stored n reason := by
  cases e with
  | stored m r =>
    cases stores
    rfl
  | _ => cases stores

theorem raises_eq_true {e : Event} (raised : e.raises = true) : ∃ n, e = .flagged n := by
  cases e with
  | flagged n => exact ⟨n,rfl⟩
  | _ => cases raised

theorem aborts_eq_true {e : Event} (aborted : e.aborts = true) : e = .asked true := by
  cases e with
  | asked answer =>
    cases aborted
    rfl
  | _ => cases aborted

end Event

/-- What has happened since the last of some events. -/
def since (ends : Event → Bool) (record : List Event) : List Event := record.takeWhile fun e => !ends e

section
variable {ends : Event → Bool} {e : Event} {record : List Event}

theorem since_cons_of_ends (last : ends e = true) : since ends (e :: record) = [] := by
  simp [since,last]

theorem since_cons (other : ends e = false) : since ends (e :: record) = e :: since ends record := by
  simp [since,other]

end

/-- The newest reason that is stored, and the number of its request. -/
def newest? (record : List Event) : Option (Nat × String) := (since Event.wipes record).findSome? Event.reason?

theorem newest_cons {e : Event} {record : List Event} (kept : e.wipes = false) (silent : e.reason? = none) :
    newest? (e :: record) = newest? record := by
  unfold newest?
  rw [since_cons kept,List.findSome?_cons_of_isNone (by rw [silent]; rfl)]

theorem newest_cons_of_wipes {e : Event} {record : List Event} (wiped : e.wipes = true) : newest? (e :: record) = none := by
  unfold newest?
  rw [since_cons_of_ends wiped]
  rfl

/-- The requests whose reasons were told. -/
def reported : List Event → List Nat
  | [] => []
  | .took (some _) :: record => ((newest? record).map (·.1)).toList ++ reported record
  | _ :: record => reported record

/-- The requests that have stored their reasons. -/
def stores (record : List Event) : List Nat := (record.filterMap Event.reason?).map (·.1)

/-- The cells, where the worker is, and what has happened. -/
structure Session where
  cells : Interrupt := {}
  phase : Phase := .idle
  /-- Newest first. -/
  record : List Event := []

namespace Session

/-- What happens next. -/
inductive Turn where
  | store (n : Nat) (reason : String)
  | flag (n : Nat)
  | fire
  | take
  /-- The worker goes on with forgetting, or begins with it. -/
  | forget

/-- A request stores its reason once and raises the flag after that. The worker does one thing at a time. -/
def act (p : Session) : Turn → Option Session
  | .store n reason =>
    if n ∈ stores p.record then none
    else some { p with cells := p.cells.store reason, record := .stored n reason :: p.record }
  | .flag n =>
    if n ∈ stores p.record ∧ .flagged n ∉ p.record then
      some { p with cells := p.cells.flag, record := .flagged n :: p.record }
    else none
  | .fire =>
    match p.phase with
    | .idle => some { p with cells := p.cells.fire.2, record := .asked p.cells.fire.1 :: p.record }
    | _ => none
  | .take =>
    match p.phase with
    | .idle => some { p with cells := p.cells.takeFired.2, record := .took p.cells.takeFired.1 :: p.record }
    | _ => none
  | .forget =>
    match p.phase with
    | .idle => some ⟨p.cells.clearRequested,.lowered,.clearedRequested :: p.record⟩
    | .lowered => some ⟨p.cells.clearFired,.settled,.clearedFired :: p.record⟩
    | .settled => some ⟨p.cells.clearReason,.idle,.clearedReason :: p.record⟩

/-- States that requests and the worker can bring about. -/
inductive Reachable : Session → Prop where
  | start : Reachable {}
  | act {p q : Session} (t : Turn) (reached : Reachable p) (taken : p.act t = some q) : Reachable q

theorem Reachable.run {p q : Session} (reached : Reachable p) (ts : List Turn) (ran : ts.foldlM Session.act p = some q) :
    Reachable q := by
  induction ts generalizing p with
  | nil =>
    cases ran
    exact reached
  | cons t ts ih =>
    rw [List.foldlM_cons] at ran
    obtain ⟨middle,taken,ran⟩ := Option.bind_eq_some_iff.mp ran
    exact ih (.act t reached taken) ran

/-- The cells hold what the record says, and every request takes its two steps in order. -/
structure Agreed (p : Session) : Prop where
  requested : p.cells.requested = (since Event.lowers p.record).any Event.raises
  fired : p.cells.fired = (since Event.settles p.record).any Event.aborts
  reason : p.cells.reason = (newest? p.record).map (·.2)
  distinct : (stores p.record).Nodup
  founded : ∀ n newer older, p.record = newer ++ .flagged n :: older → n ∈ stores older

namespace Agreed
variable {p q : Session} {t : Turn}

/-- What is known of older flags stays known. -/
theorem founded_cons (agreed : Agreed p) {e : Event} (ours : ∀ n, e = .flagged n → n ∈ stores p.record) :
    ∀ n newer older, e :: p.record = newer ++ .flagged n :: older → n ∈ stores older := by
  intro n newer older split
  cases newer with
  | nil =>
    obtain ⟨here,rest⟩ := List.cons.inj split
    exact rest ▸ ours n here
  | cons first newer => exact agreed.founded n newer older (List.cons.inj split).2

theorem store (agreed : Agreed p) {n : Nat} {reason : String} (taken : p.act (.store n reason) = some q) : Agreed q := by
  simp only [act] at taken
  split at taken
  · cases taken
  · next new =>
    cases taken
    refine ⟨?_,?_,?_,List.nodup_cons.mpr ⟨new,agreed.distinct⟩,agreed.founded_cons nofun⟩
    · rw [since_cons rfl]
      exact agreed.requested
    · rw [since_cons rfl]
      exact agreed.fired
    · unfold newest?
      rw [since_cons rfl]
      rfl

theorem flag (agreed : Agreed p) {n : Nat} (taken : p.act (.flag n) = some q) : Agreed q := by
  simp only [act] at taken
  split at taken
  · next mine =>
    cases taken
    refine ⟨?_,?_,?_,agreed.distinct,agreed.founded_cons fun m same => ?_⟩
    · rw [since_cons rfl]
      rfl
    · rw [since_cons rfl]
      exact agreed.fired
    · rw [newest_cons rfl rfl]
      exact agreed.reason
    · cases same
      exact mine.1
  · cases taken

theorem fire (agreed : Agreed p) (taken : p.act .fire = some q) : Agreed q := by
  simp only [act] at taken
  split at taken
  · cases taken
    refine ⟨?_,?_,?_,agreed.distinct,agreed.founded_cons nofun⟩
    · cases up : p.cells.requested with
      | true =>
        rw [since_cons_of_ends up]
        rfl
      | false =>
        rw [since_cons up]
        exact (agreed.requested.symm.trans up).symm
    · rw [since_cons rfl,List.any_cons,← agreed.fired]
      exact Bool.or_comm _ _
    · rw [newest_cons rfl rfl]
      exact agreed.reason
  · cases taken

/-- A reason is taken only if there was an abortion. -/
theorem take (agreed : Agreed p) (taken : p.act .take = some q) : Agreed q := by
  simp only [act] at taken
  split at taken
  · cases taken
    have distinct : (stores (.took p.cells.takeFired.1 :: p.record)).Nodup := agreed.distinct
    cases up : p.cells.fired with
    | true =>
      have told : p.cells.takeFired = (some (p.cells.reason.getD "interrupted"),{ p.cells with fired := false, reason := none }) := by
        unfold takeFired
        rw [up,if_pos rfl]
      rw [told] at distinct ⊢
      refine ⟨?_,?_,?_,distinct,agreed.founded_cons nofun⟩
      · rw [since_cons rfl]
        exact agreed.requested
      · rw [since_cons_of_ends rfl]
        rfl
      · rw [newest_cons_of_wipes rfl]
        rfl
    | false =>
      have told : p.cells.takeFired = (none,p.cells) := by
        unfold takeFired
        rw [up]
        rfl
      rw [told] at distinct ⊢
      refine ⟨?_,?_,?_,distinct,agreed.founded_cons nofun⟩
      · rw [since_cons rfl]
        exact agreed.requested
      · rw [since_cons rfl]
        exact agreed.fired
      · rw [newest_cons rfl rfl]
        exact agreed.reason
  · cases taken

theorem forget (agreed : Agreed p) (taken : p.act .forget = some q) : Agreed q := by
  simp only [act] at taken
  split at taken
  · cases taken
    refine ⟨?_,?_,?_,agreed.distinct,agreed.founded_cons nofun⟩
    · rw [since_cons_of_ends rfl]
      rfl
    · rw [since_cons rfl]
      exact agreed.fired
    · rw [newest_cons rfl rfl]
      exact agreed.reason
  · cases taken
    refine ⟨?_,?_,?_,agreed.distinct,agreed.founded_cons nofun⟩
    · rw [since_cons rfl]
      exact agreed.requested
    · rw [since_cons_of_ends rfl]
      rfl
    · rw [newest_cons rfl rfl]
      exact agreed.reason
  · cases taken
    refine ⟨?_,?_,?_,agreed.distinct,agreed.founded_cons nofun⟩
    · rw [since_cons rfl]
      exact agreed.requested
    · rw [since_cons rfl]
      exact agreed.fired
    · rw [newest_cons_of_wipes rfl]
      rfl

theorem act (agreed : Agreed p) (taken : p.act t = some q) : Agreed q := by
  cases t with
  | store n reason => exact agreed.store taken
  | flag n => exact agreed.flag taken
  | fire => exact agreed.fire taken
  | take => exact agreed.take taken
  | forget => exact agreed.forget taken

end Agreed

theorem Reachable.agreed {p : Session} (reached : Reachable p) : Agreed p := by
  induction reached with
  | start => exact ⟨rfl,rfl,rfl,.nil,fun n newer older split => by cases newer <;> cases split⟩
  | act t _ taken ih => exact ih.act taken

/-! ### What is told -/

theorem mem_stores {record : List Event} {n : Nat} : n ∈ stores record ↔ ∃ reason, .stored n reason ∈ record := by
  unfold stores
  simp only [List.mem_map,List.mem_filterMap]
  constructor
  · rintro ⟨⟨m,reason⟩,⟨e,member,stored⟩,rfl⟩
    exact ⟨reason,Event.reason_eq_some stored ▸ member⟩
  · rintro ⟨reason,member⟩
    exact ⟨(n,reason),⟨_,member,rfl⟩,rfl⟩

theorem stores_append (newer older : List Event) : stores (newer ++ older) = stores newer ++ stores older := by
  simp [stores]

theorem newest_eq_some {record : List Event} {n : Nat} {reason : String} (newest : newest? record = some (n,reason)) :
    ∃ newer older, record = newer ++ .stored n reason :: older ∧
      ∀ e ∈ newer, e.wipes = false ∧ ∀ m r, e ≠ .stored m r := by
  obtain ⟨newer,e,rest,split,stored,silent⟩ := List.findSome?_eq_some_iff.mp newest
  cases Event.reason_eq_some stored
  have kept : ∀ e ∈ since Event.wipes record, e.wipes = false := fun e recent => by
    simpa using List.all_eq_true.mp List.all_takeWhile e recent
  have whole := List.takeWhile_append_dropWhile (p := fun e => !Event.wipes e) (l := record)
  refine ⟨newer,rest ++ record.dropWhile fun e => !e.wipes,?_,fun e member => ⟨kept e ?_,fun m r same => ?_⟩⟩
  · rw [← List.cons_append,← List.append_assoc,← split]
    exact whole.symm
  · rw [split]
    exact List.mem_append_left _ member
  · have nothing := silent e member
    rw [same] at nothing
    cases nothing

/-- Nothing was stored since the last reason was taken or forgotten. -/
theorem newest_eq_none {record : List Event} (none : newest? record = none) (n : Nat) (reason : String) :
    .stored n reason ∉ since Event.wipes record := by
  intro member
  cases List.findSome?_eq_none_iff.mp none _ member

theorem stores_of_newest {record : List Event} {n : Nat} {reason : String} (newest : newest? record = some (n,reason)) :
    n ∈ stores record := by
  obtain ⟨newer,older,rfl,-⟩ := newest_eq_some newest
  exact mem_stores.mpr ⟨reason,List.mem_append_right _ List.mem_cons_self⟩

theorem stores_of_reported {record : List Event} {n : Nat} (told : n ∈ reported record) : n ∈ stores record := by
  induction record with
  | nil => cases told
  | cons e record ih =>
    have older (mine : n ∈ stores record) : n ∈ stores (e :: record) := by
      obtain ⟨reason,member⟩ := mem_stores.mp mine
      exact mem_stores.mpr ⟨reason,List.mem_cons_of_mem e member⟩
    cases e with
    | took r =>
      cases r with
      | none => exact older (ih told)
      | some r =>
        rcases List.mem_append.mp told with here | before
        · obtain ⟨⟨m,reason⟩,newest,rfl⟩ := Option.map_eq_some_iff.mp (Option.mem_toList.mp here)
          exact older (stores_of_newest newest)
        · exact older (ih before)
    | _ => exact older (ih told)

/-- The newest reason belongs to a request of which nothing was told. -/
theorem not_reported_of_newest {record : List Event} (distinct : (stores record).Nodup) {n : Nat} {reason : String}
    (newest : newest? record = some (n,reason)) : n ∉ reported record := by
  induction record with
  | nil => exact List.not_mem_nil
  | cons e record ih =>
    have other (kept : e.wipes = false) (silent : e.reason? = none) (same : reported (e :: record) = reported record) :
        n ∉ reported (e :: record) := by
      rw [newest_cons kept silent] at newest
      have distinct : (stores record).Nodup := by
        simpa [stores,silent] using distinct
      exact same ▸ ih distinct newest
    cases e with
    | stored m r =>
      cases newest
      intro told
      exact (List.nodup_cons.mp distinct).1 (stores_of_reported told)
    | took r =>
      cases r with
      | none => exact other rfl rfl rfl
      | some r => cases newest
    | clearedReason => cases newest
    | _ => exact other rfl rfl rfl

/-- The reason that is told, by what has happened up to then. It is told if a script was aborted since the last reset and
    since the last reason was told. If no request has stored a reason since the last one was taken or forgotten, the
    stand-in is told. Otherwise it is the last one stored, by a request of which nothing was told; if that request has
    raised the flag, it did so after that. -/
def Tells (record : List Event) : Option String → Prop
  | none => .asked true ∉ since Event.settles record
  | some reason => .asked true ∈ since Event.settles record ∧
    ((reason = "interrupted" ∧ ∀ n r, .stored n r ∉ since Event.wipes record) ∨
      ∃ n newer older, record = newer ++ .stored n reason :: older ∧
        (∀ e ∈ newer, e.wipes = false ∧ ∀ m r, e ≠ .stored m r) ∧ n ∉ reported record ∧
        (.flagged n ∈ record → .flagged n ∈ newer))

theorem any_aborts {record : List Event} : record.any Event.aborts = true ↔ .asked true ∈ record := by
  rw [List.any_eq_true]
  constructor
  · rintro ⟨e,member,aborted⟩
    exact Event.aborts_eq_true aborted ▸ member
  · exact fun member => ⟨_,member,rfl⟩

/-- A request raises the flag after it has stored its reason. -/
theorem Agreed.flagged_after {p : Session} (agreed : Agreed p) {n : Nat} {reason : String} {newer older : List Event}
    (split : p.record = newer ++ .stored n reason :: older) (flagged : .flagged n ∈ p.record) : .flagged n ∈ newer := by
  rw [split] at flagged
  rcases List.mem_append.mp flagged with here | later
  · exact here
  · have before : .flagged n ∈ older := (List.mem_cons.mp later).resolve_left nofun
    obtain ⟨between,oldest,rfl⟩ := List.append_of_mem before
    have early : n ∈ stores oldest := agreed.founded n (newer ++ .stored n reason :: between) oldest (by rw [split]; simp)
    have distinct := agreed.distinct
    rw [split,stores_append] at distinct
    refine absurd ?_ (List.nodup_cons.mp (List.nodup_append.mp distinct).2.1).1
    show n ∈ stores (between ++ .flagged n :: oldest)
    rw [stores_append]
    exact List.mem_append_right _ early

theorem Agreed.tells {p : Session} (agreed : Agreed p) : Tells p.record p.cells.takeFired.1 := by
  have fired := agreed.fired
  unfold takeFired
  cases up : p.cells.fired with
  | false =>
    rw [up] at fired
    exact fun aborted => Bool.false_ne_true (fired.trans (any_aborts.mpr aborted))
  | true =>
    rw [up] at fired
    refine ⟨any_aborts.mp fired.symm,?_⟩
    rw [agreed.reason]
    cases newest : newest? p.record with
    | none => exact .inl ⟨rfl,newest_eq_none newest⟩
    | some stored =>
      obtain ⟨n,reason⟩ := stored
      obtain ⟨newer,older,split,quiet⟩ := newest_eq_some newest
      exact .inr ⟨n,newer,older,split,quiet,not_reported_of_newest agreed.distinct newest,agreed.flagged_after split⟩

theorem Agreed.asks {p : Session} (agreed : Agreed p) :
    p.cells.fire.1 = true ↔ ∃ n, .flagged n ∈ since Event.lowers p.record := by
  show p.cells.requested = true ↔ _
  rw [agreed.requested,List.any_eq_true]
  constructor
  · rintro ⟨e,recent,raised⟩
    obtain ⟨n,rfl⟩ := Event.raises_eq_true raised
    exact ⟨n,recent⟩
  · rintro ⟨n,recent⟩
    exact ⟨_,recent,rfl⟩

end Session

end ScriptHost.Interrupt
