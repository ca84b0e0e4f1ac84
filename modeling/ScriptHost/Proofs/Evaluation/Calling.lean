import Mathlib.Data.List.Infix
import Mathlib.Logic.Function.Basic
import ScriptHost.Proofs.Evaluation.Settling
/-!
A completion among its callers. Threads resolve it, cancel it, wait for it and look at it, each of them in steps that
come in any order with those of the others and of the watcher; and the signal it is bound to may close at any time.
Which offers were taken is written down (`Gathering.takings`), so that what callers were told can be compared with it
later.
-/
namespace ScriptHost.Completion
variable {α : Type}

/-- What a thread calls for. -/
inductive Request (α : Type) where
  | resolve (r : Except Failure α)
  | wait
  | get
  | isReady
  | cancel

/-- Where a call stands. -/
inductive Visit (α : Type) where
  | offers (r : Except Failure α)
  /-- Its offer was taken and is not announced yet. -/
  | announces (r : Except Failure α)
  | resolved (r : Except Failure α) (taken : Bool)
  | waits
  /-- It has seen that the outcome was announced. -/
  | reads
  | waited (r : Except Failure α)
  | gets
  | got (r : Option (Except Failure α))
  | asks
  | asked (ready : Bool)
  | cancels
  | cancelled

/-- A call begins. -/
def Request.visit : Request α → Visit α
  | .resolve r => .offers r
  | .wait => .waits
  | .get => .gets
  | .isReady => .asks
  | .cancel => .cancels

namespace Visit

/-- What a call does next; nothing while it waits and when it has returned. -/
def next (c : Completion α) : Visit α → Option (Visit α × Completion α)
  | .offers r =>
    match c.offer r with
    | (true, c) => some (.announces r, c)
    | (false, c) => some (.resolved r false, c)
  | .announces r => some (.resolved r true, c.announce)
  | .waits => if c.ready then some (.reads, c) else none
  | .reads => some (.waited c.told, c)
  | .gets => some (.got c.get?, c)
  | .asks => some (.asked c.ready, c)
  | .cancels => some (.cancelled, c.cancel)
  | .resolved _ _ | .waited _ | .got _ | .asked _ | .cancelled => none

/-- A call that resolves, wherever it stands. -/
def resolves : Visit α → Bool
  | .offers _ | .announces _ | .resolved _ _ => true
  | _ => false

/-- A call that nobody gets between resolves the completion at once. -/
theorem next_offers (c : Completion α) (r : Except Failure α) :
    ((Visit.offers r).next c = some (.resolved r false,(c.resolve r).2) ∧ (c.resolve r).1 = false) ∨
      ∃ d, (Visit.offers r).next c = some (.announces r,d) ∧
        (Visit.announces r).next d = some (.resolved r true,(c.resolve r).2) ∧ (c.resolve r).1 = true := by
  unfold resolve
  cases offered : c.offer r with
  | mk taken d =>
    cases taken with
    | false => exact .inl ⟨by simp [next,offered],rfl⟩
    | true => exact .inr ⟨d,by simp [next,offered],rfl,rfl⟩

/-- A step of a call. -/
inductive Goes (c : Completion α) : Visit α → Visit α → Completion α → Prop where
  | takes (r : Except Failure α) (empty : c.slot = none) : Goes c (.offers r) (.announces r) { c with slot := some r }
  | loses (r : Except Failure α) (full : c.slot.isSome = true) : Goes c (.offers r) (.resolved r false) c
  | announces (r : Except Failure α) : Goes c (.announces r) (.resolved r true) c.announce
  | sees (ready : c.ready = true) : Goes c .waits .reads c
  | reads : Goes c .reads (.waited c.told) c
  | gets : Goes c .gets (.got c.slot) c
  | asks : Goes c .asks (.asked c.ready) c
  | cancels : Goes c .cancels .cancelled c.cancel

theorem goes_of_next {c d : Completion α} {v w : Visit α} (next : v.next c = some (w,d)) : Goes c v w d := by
  cases v with
  | offers r =>
    cases slot : c.slot with
    | none =>
      have offered : c.offer r = (true,{ c with slot := some r }) := by simp [offer,slot]
      simp only [Visit.next,offered,Option.some.injEq,Prod.mk.injEq] at next
      obtain ⟨rfl,rfl⟩ := next
      exact .takes r slot
    | some s =>
      have offered : c.offer r = (false,c) := by simp [offer,slot]
      simp only [Visit.next,offered,Option.some.injEq,Prod.mk.injEq] at next
      obtain ⟨rfl,rfl⟩ := next
      exact .loses r (by rw [slot]; rfl)
  | waits =>
    simp only [Visit.next] at next
    split at next
    · next ready =>
      cases next
      exact .sees ready
    · cases next
  | announces r =>
    cases next
    exact .announces r
  | reads =>
    cases next
    exact .reads
  | gets =>
    cases next
    exact .gets
  | asks =>
    cases next
    exact .asks
  | cancels =>
    cases next
    exact .cancels
  | resolved r taken | waited r | got r | asked ready | cancelled => cases next

end Visit

/-- A completion and its callers. -/
structure Gathering (α : Type) where
  completion : Completion α
  signal : Signal
  /-- Calls by number. -/
  visits : Nat → Option (Visit α) := fun _ => none
  /-- The offers that were taken, the last one first, with the number of the call; those without one are the watcher's. -/
  takings : List (Option Nat × Except Failure α) := []

/-- One step of one thread. -/
inductive Move (α : Type) where
  | call (n : Nat) (q : Request α)
  | go (n : Nat)
  | watch (choice : Nat)
  | close

namespace Gathering

/-- A completion that was just made, bound to a signal. -/
def made (signal : Signal) : Gathering α where
  completion := .bound signal
  signal := signal
  takings := if signal.closed then [(none,.error .cancelled)] else []

/-- What a call has had taken by a step. -/
def earned (n : Nat) : Visit α → List (Option Nat × Except Failure α)
  | .announces r => [(some n,r)]
  | _ => []

/-- A call stands there now. -/
def went (g : Gathering α) (n : Nat) (v : Visit α) (c : Completion α) : Gathering α :=
  { g with completion := c, visits := Function.update g.visits n (some v), takings := earned n v ++ g.takings }

/-- What comes of a move, if it can be made. -/
def act (g : Gathering α) : Move α → Option (Gathering α)
  | .call n q => if (g.visits n).isNone then some (g.went n q.visit g.completion) else none
  | .go n => (g.visits n).bind fun v => (v.next g.completion).map fun (w,c) => g.went n w c
  | .watch choice => (g.completion.watchNext g.signal)[choice]?.map fun c =>
      { g with
        completion := c
        takings := (if c.watcher = .announces then [(none,.error .cancelled)] else []) ++ g.takings }
  | .close => some { g with signal := g.signal.close.2 }

/-- Some interleaving of moves leads from one gathering to another. -/
inductive Leads (g : Gathering α) : Gathering α → Prop where
  | start : Leads g g
  | act {h i : Gathering α} (m : Move α) (leads : Leads g h) (taken : h.act m = some i) : Leads g i

/-- A call owes the announcement of what it has had taken. -/
def Owes (g : Gathering α) : Prop := ∃ n r, g.visits n = some (.announces r)

/-- What is true where a call stands. -/
def Fits (g : Gathering α) (n : Nat) : Visit α → Prop
  | .announces r | .resolved r true => (some n,r) ∈ g.takings
  | .resolved _ false => g.completion.slot.isSome = true
  | .reads | .asked true => g.completion.ready = true
  | .waited r | .got (some r) => g.completion.slot = some r
  | .cancelled => g.completion.cancelled = true
  | .offers _ | .waits | .gets | .got none | .asks | .asked false | .cancels => True

/-- What is true of a completion and its callers, whatever order they come in. -/
structure Agreed (g : Gathering α) : Prop where
  /-- At most one offer was taken, and that is the outcome. -/
  slot : g.takings.map Prod.snd = g.completion.slot.toList
  kept : g.completion.Kept g.Owes
  fits : ∀ n v, g.visits n = some v → g.Fits n v
  /-- Whoever has had an offer taken is about to say so or has done so. -/
  owner : ∀ n r, (some n,r) ∈ g.takings → g.visits n = some (.announces r) ∨ g.visits n = some (.resolved r true)
  /-- The watcher offers nothing but a cancellation. -/
  watcher : ∀ r, (none,r) ∈ g.takings → r = .error .cancelled

section
variable {signal : Signal} {g h : Gathering α} {m : Move α} {n k : Nat} {v w : Visit α} {c : Completion α}

/-- What goes on among the callers: what was taken, announced or cancelled stays so, and a call that has returned. -/
structure Onward (g h : Gathering α) : Prop where
  takings : g.takings <:+ h.takings
  slot : ∀ r, g.completion.slot = some r → h.completion.slot = some r
  ready : g.completion.ready = true → h.completion.ready = true
  cancelled : g.completion.cancelled = true → h.completion.cancelled = true
  closed : g.signal.closed = true → h.signal.closed = true

theorem Onward.refl (g : Gathering α) : g.Onward g := ⟨List.suffix_rfl,fun _ => id,id,id,id⟩

theorem Onward.trans {i : Gathering α} (on : g.Onward h) (further : h.Onward i) : g.Onward i :=
  ⟨on.takings.trans further.takings,fun r full => further.slot r (on.slot r full),fun ready => further.ready (on.ready ready),
    fun cancelled => further.cancelled (on.cancelled cancelled),fun closed => further.closed (on.closed closed)⟩

/-- What fits a call goes on to fit it. -/
theorem Fits.onward (fits : g.Fits n v) (on : g.Onward h) : h.Fits n v := by
  cases v with
  | announces r => exact on.takings.mem fits
  | resolved r taken =>
    cases taken with
    | true => exact on.takings.mem fits
    | false =>
      obtain ⟨s,full⟩ := Option.isSome_iff_exists.mp fits
      exact Option.isSome_iff_exists.mpr ⟨s,on.slot s full⟩
  | reads => exact on.ready fits
  | asked ready =>
    cases ready with
    | true => exact on.ready fits
    | false => trivial
  | waited r => exact on.slot r fits
  | got r =>
    cases r with
    | some r => exact on.slot r fits
    | none => trivial
  | cancelled => exact on.cancelled fits
  | _ => trivial

theorem visits_went (g : Gathering α) (n : Nat) (w : Visit α) (c : Completion α) :
    (g.went n w c).visits n = some w := Function.update_self ..

theorem visits_went_of_ne (other : k ≠ n) : (g.went n w c).visits k = g.visits k := Function.update_of_ne other _ _

theorem onward_went (n : Nat) (w : Visit α) (slot : ∀ r, g.completion.slot = some r → c.slot = some r)
    (ready : g.completion.ready = true → c.ready = true) (cancelled : g.completion.cancelled = true → c.cancelled = true) :
    g.Onward (g.went n w c) :=
  ⟨List.suffix_append _ _,slot,ready,cancelled,id⟩

theorem onward_act (taken : g.act m = some h) : g.Onward h := by
  cases m with
  | call n q =>
    simp only [act] at taken
    split at taken <;> cases taken
    exact onward_went n _ (fun _ => id) id id
  | go n =>
    obtain ⟨v,-,taken⟩ := Option.bind_eq_some_iff.mp taken
    obtain ⟨⟨w,c⟩,next,rfl⟩ := Option.map_eq_some_iff.mp taken
    cases Visit.goes_of_next next with
    | takes r empty =>
      refine onward_went n _ (fun s full => ?_) id id
      cases empty.symm.trans full
    | announces r => exact onward_went n _ (fun _ => id) (fun _ => rfl) id
    | cancels => exact onward_went n _ (fun _ => id) id fun _ => rfl
    | loses r full | sees ready | reads | gets | asks => exact onward_went n _ (fun _ => id) id id
  | watch choice =>
    obtain ⟨c,chosen,rfl⟩ := Option.map_eq_some_iff.mp taken
    have next := List.mem_of_getElem? chosen
    refine ⟨List.suffix_append _ _,fun r full => slot_watchNext_of_slot next full,ready_watchNext next,?_,id⟩
    cases watches_of_mem next <;> exact id
  | close =>
    cases taken
    exact ⟨List.suffix_rfl,fun _ => id,id,id,fun _ => rfl⟩

theorem onward_of_leads (leads : Leads g h) : g.Onward h := by
  induction leads with
  | start => exact .refl g
  | act m leads taken ih => exact ih.trans (onward_act taken)

/-! ### What they agree on -/

/-- A call takes a step. What it had taken is still its own if it has been announced since. -/
theorem Agreed.went (agreed : g.Agreed) (on : g.Onward (g.went n w c))
    (slot : (earned n w ++ g.takings).map Prod.snd = c.slot.toList) (kept : c.Kept (g.went n w c).Owes)
    (fits : (g.went n w c).Fits n w)
    (owner : ∀ r, (some n,r) ∈ earned n w ++ g.takings → w = .announces r ∨ w = .resolved r true) :
    (g.went n w c).Agreed := by
  have mine : ∀ k r, (some k,r) ∈ earned n w ++ g.takings → k = n ∨ (some k,r) ∈ g.takings := by
    intro k r member
    rcases List.mem_append.mp member with new | old
    · cases w with
      | announces s =>
        cases List.mem_singleton.mp new
        exact .inl rfl
      | _ => cases new
    · exact .inr old
  refine ⟨slot,kept,fun k v stands => ?_,fun k r member => ?_,fun r member => ?_⟩
  · by_cases own : k = n
    · subst own
      cases (visits_went g k w c).symm.trans stands
      exact fits
    · exact (agreed.fits k v ((visits_went_of_ne own).symm.trans stands)).onward on
  · by_cases own : k = n
    · subst own
      simpa [visits_went] using owner r member
    · rw [visits_went_of_ne own]
      exact agreed.owner k r ((mine k r member).resolve_left own)
  · rcases List.mem_append.mp member with new | old
    · cases w <;> simp [earned] at new
    · exact agreed.watcher r old

/-- Somebody else owes an announcement as before. -/
theorem owes_went (before : ∀ r, g.visits n ≠ some (.announces r)) (after : ∀ r, w ≠ .announces r) :
    g.Owes ↔ (g.went n w c).Owes := by
  constructor
  · rintro ⟨k,r,stands⟩
    have other : k ≠ n := by
      rintro rfl
      exact before r stands
    exact ⟨k,r,(visits_went_of_ne other).trans stands⟩
  · rintro ⟨k,r,stands⟩
    by_cases own : k = n
    · subst own
      cases (visits_went g k w c).symm.trans stands
      exact absurd rfl (after r)
    · exact ⟨k,r,(visits_went_of_ne own).symm.trans stands⟩

/-- A call that neither announces nor has announced anything takes a step. -/
theorem Agreed.idle (agreed : g.Agreed) (on : g.Onward (g.went n w c)) (slot : c.slot = g.completion.slot)
    (kept : c.Kept g.Owes) (before : ∀ r, g.visits n ≠ some (.announces r) ∧ g.visits n ≠ some (.resolved r true))
    (after : ∀ r, w ≠ .announces r) (fits : (g.went n w c).Fits n w) : (g.went n w c).Agreed := by
  have none : earned n w = [] := by
    cases w with
    | announces r => exact absurd rfl (after r)
    | _ => rfl
  refine agreed.went on ?_ (kept.congr (owes_went (fun r => (before r).1) after)) fits fun r member => ?_
  · rw [none,List.nil_append,agreed.slot,slot]
  · rw [none,List.nil_append] at member
    rcases agreed.owner n r member with announces | resolved
    · exact absurd announces (before r).1
    · exact absurd resolved (before r).2

/-- A call goes on. -/
theorem Agreed.go (agreed : g.Agreed) (stands : g.visits n = some v) (next : v.next g.completion = some (w,c)) :
    (g.went n w c).Agreed := by
  have on : g.Onward (g.went n w c) := onward_act (m := .go n) (by simp [act,stands,next])
  have here := agreed.fits n v stands
  cases Visit.goes_of_next next with
  | takes r empty =>
    have none : g.takings = [] := by simpa [empty] using agreed.slot
    have offered : g.completion.offer r = (true,{ g.completion with slot := some r }) := by simp [offer,empty]
    have owes : (g.went n (.announces r) { g.completion with slot := some r }).Owes := ⟨n,r,visits_went ..⟩
    refine agreed.went on (by simp [earned,none]) ((kept_offer offered).congr ⟨fun _ => owes,fun _ => trivial⟩)
      List.mem_cons_self fun s member => ?_
    simp only [earned,none,List.append_nil,List.mem_singleton,Prod.mk.injEq] at member
    exact .inl (congrArg Visit.announces member.2.symm)
  | announces r =>
    have full : g.completion.slot.isSome = true := agreed.kept.debt ⟨n,r,stands⟩
    refine agreed.went on agreed.slot (kept_announce full) here fun s member => ?_
    rcases agreed.owner n s member with announces | resolved
    · cases stands.symm.trans announces
      exact .inr rfl
    · cases stands.symm.trans resolved
  | loses r full => exact agreed.idle on rfl agreed.kept (fun r => by simp [stands]) (by simp) full
  | sees ready => exact agreed.idle on rfl agreed.kept (fun r => by simp [stands]) (by simp) ready
  | reads =>
    refine agreed.idle on rfl agreed.kept (fun r => by simp [stands]) (by simp) ?_
    obtain ⟨r,full⟩ := Option.isSome_iff_exists.mp (agreed.kept.ready here)
    have same : g.completion.told = r := by simp [told,full]
    exact full.trans (congrArg some same.symm)
  | gets =>
    refine agreed.idle on rfl agreed.kept (fun r => by simp [stands]) (by simp) ?_
    cases slot : g.completion.slot with
    | none => trivial
    | some r => exact slot
  | asks =>
    refine agreed.idle on rfl agreed.kept (fun r => by simp [stands]) (by simp) ?_
    cases ready : g.completion.ready with
    | false => trivial
    | true => exact ready
  | cancels => exact agreed.idle on rfl agreed.kept.cancel (fun r => by simp [stands]) (by simp) rfl

theorem Agreed.act (agreed : g.Agreed) (taken : g.act m = some h) : h.Agreed := by
  have on := onward_act taken
  cases m with
  | call n q =>
    simp only [Gathering.act] at taken
    split at taken
    · next free =>
      cases taken
      have free := Option.isNone_iff_eq_none.mp free
      refine agreed.idle on rfl agreed.kept (fun r => by simp [free]) ?_ ?_
      · cases q <;> rintro r ⟨⟩
      · cases q <;> trivial
    · cases taken
  | go n =>
    obtain ⟨v,stands,taken⟩ := Option.bind_eq_some_iff.mp taken
    obtain ⟨⟨w,c⟩,next,rfl⟩ := Option.map_eq_some_iff.mp taken
    exact agreed.go stands next
  | watch choice =>
    obtain ⟨c,chosen,rfl⟩ := Option.map_eq_some_iff.mp taken
    have next := List.mem_of_getElem? chosen
    have kept := (agreed.kept.watch next).1
    refine ⟨?_,kept,fun n v stands => (agreed.fits n v stands).onward on,fun n r member => ?_,fun r member => ?_⟩
    · cases watches_of_mem next with
      | offers looks stirred empty =>
        have none : g.takings = [] := by simpa [empty] using agreed.slot
        simp [none]
      | stops | yields | announces => exact agreed.slot
    · refine agreed.owner n r ?_
      rcases List.mem_append.mp member with new | old
      · split at new
        · cases List.mem_singleton.mp new
        · cases new
      · exact old
    · rcases List.mem_append.mp member with new | old
      · split at new
        · cases List.mem_singleton.mp new
          rfl
        · cases new
      · exact agreed.watcher r old
  | close =>
    cases taken
    exact ⟨agreed.slot,agreed.kept,fun n v stands => (agreed.fits n v stands).onward on,agreed.owner,agreed.watcher⟩

/-- Whatever order the callers come in, they agree. -/
theorem agreed_of_leads (leads : (made signal).Leads g) : g.Agreed := by
  induction leads with
  | start =>
    have takings : (made signal : Gathering α).takings = [] ∨ (made signal : Gathering α).takings = [(none,.error .cancelled)] := by
      unfold made
      cases signal.closed
      · exact .inl rfl
      · exact .inr rfl
    have quiet : ¬(made signal : Gathering α).Owes := by
      rintro ⟨n,r,stands⟩
      cases stands
    refine ⟨?_,(kept_bound signal).congr ⟨False.elim,quiet⟩,fun n v stands => (by cases stands),fun n r member => ?_,
      fun r member => ?_⟩
    · unfold made bound
      cases signal.closed <;> rfl
    · rcases takings with none | watcher
      · simp [none] at member
      · simp [watcher] at member
    · rcases takings with none | watcher
      · simp [none] at member
      · simpa [watcher] using member
  | act m leads taken ih => exact ih.act taken

theorem Leads.trans {i : Gathering α} (leads : g.Leads h) (on : h.Leads i) : g.Leads i := by
  induction on with
  | start => exact leads
  | act m on taken ih => exact .act m ih taken

/-- Either nothing was taken, or one offer, which is the outcome. -/
theorem Agreed.taken (agreed : g.Agreed) : g.takings = [] ∧ g.completion.slot = none ∨
    ∃ who r, g.takings = [(who,r)] ∧ g.completion.slot = some r := by
  have same := agreed.slot
  cases slot : g.completion.slot with
  | none =>
    rw [slot] at same
    exact .inl ⟨List.map_eq_nil_iff.mp same,rfl⟩
  | some r =>
    rw [slot] at same
    obtain ⟨⟨who,s⟩,single,rfl⟩ := List.map_eq_singleton_iff.mp same
    exact .inr ⟨who,s,single,rfl⟩

theorem Agreed.taken_of_slot (agreed : g.Agreed) {r : Except Failure α} (full : g.completion.slot = some r) :
    ∃ who, g.takings = [(who,r)] := by
  rcases agreed.taken with ⟨-,empty⟩ | ⟨who,s,single,same⟩
  · cases empty.symm.trans full
  · cases same.symm.trans full
    exact ⟨who,single⟩

theorem Agreed.same (agreed : g.Agreed) {x y : Option Nat × Except Failure α} (one : x ∈ g.takings) (other : y ∈ g.takings) :
    x = y := by
  rcases agreed.taken with ⟨none,-⟩ | ⟨who,r,single,-⟩
  · rw [none] at one
    cases one
  · rw [single] at one other
    exact (List.mem_singleton.mp one).trans (List.mem_singleton.mp other).symm

/-- A completion is assigned once. Among any callers, and however the watcher and the closing of the signal come between
    them, at most one offer is ever taken, and a call to resolve is told so only if it was its own; whoever waits or looks
    is told of that one, at any time; what is ready stays so; and it is not ready before there is an outcome. -/
theorem single_assignment (came : (made signal).Leads g) (later : g.Leads h) :
    g.takings.length ≤ 1 ∧ g.takings <:+ h.takings ∧
    (∀ n r, g.visits n = some (.resolved r true) → (some n,r) ∈ g.takings) ∧
    (∀ n k r s, g.visits n = some (.resolved r true) → g.visits k = some (.resolved s true) → n = k) ∧
    (∀ n r, g.visits n = some (.waited r) → ∃ who, g.takings = [(who,r)]) ∧
    (∀ n r, g.visits n = some (.got (some r)) → ∃ who, g.takings = [(who,r)]) ∧
    (∀ n, g.visits n = some (.asked true) → g.completion.ready = true) ∧
    (g.completion.ready = true → h.completion.ready = true) ∧
    (g.completion.ready = true → ∃ who r, g.takings = [(who,r)] ∧ g.completion.slot = some r) := by
  have agreed := agreed_of_leads came
  have on := onward_of_leads later
  refine ⟨?_,on.takings,fun n r => agreed.fits n _,fun n k r s one other => ?_,
    fun n r stands => agreed.taken_of_slot (agreed.fits n _ stands),
    fun n r stands => agreed.taken_of_slot (agreed.fits n _ stands),fun n => agreed.fits n _,on.ready,fun ready => ?_⟩
  · rcases agreed.taken with ⟨none,-⟩ | ⟨who,r,single,-⟩
    · rw [none]
      exact Nat.zero_le 1
    · rw [single]
      exact Nat.le_refl 1
  · have same := agreed.same (agreed.fits n _ one) (agreed.fits k _ other)
    exact Option.some.inj (congrArg Prod.fst same)
  · rcases agreed.taken with ⟨-,empty⟩ | taken
    · have full := agreed.kept.ready ready
      rw [empty] at full
      cases full
    · exact taken

/-! ### Runs -/

/-- What comes of moves one after another. -/
def run (g : Gathering α) : List (Move α) → Option (Gathering α)
  | [] => some g
  | m :: rest => (g.act m).bind (·.run rest)

theorem leads_of_run (moves : List (Move α)) (ran : g.run moves = some h) : g.Leads h := by
  suffices ∀ {f : Gathering α}, f.Leads g → f.Leads h from this .start
  intro f leads
  induction moves generalizing g with
  | nil =>
    cases ran
    exact leads
  | cons m rest ih =>
    obtain ⟨i,taken,ran⟩ := Option.bind_eq_some_iff.mp ran
    exact ih ran (.act m leads taken)

end

/-- Two calls resolve the completion while a third one waits; it is cancelled and its signal closes before the outcome is
    announced. -/
def race : List (Move Bool) :=
  [.call 0 (.resolve (.ok true)),.call 1 (.resolve (.ok false)),.call 2 .wait,.call 3 .cancel,.go 0,.go 3,.go 1,.close,
    .watch 0,.go 0,.go 2]

theorem single_assignment_of_race : ∃ g h : Gathering Bool, (made ⟨false⟩).Leads g ∧ g.Leads h ∧
    g.visits 0 = some (.resolved (.ok true) true) ∧ g.visits 1 = some (.resolved (.ok false) false) ∧
    g.takings.length ≤ 1 ∧ g.completion.ready = true ∧ h.completion.ready = true ∧
    h.visits 2 = some (.waited (.ok true)) ∧ ∃ who, h.takings = [(who,.ok true)] := by
  have came : (made ⟨false⟩).Leads _ := leads_of_run race rfl
  have later : ((made ⟨false⟩ : Gathering Bool).run race |>.get rfl).Leads _ := leads_of_run [.go 2] rfl
  obtain ⟨single,-,-,-,-,-,-,stays,-⟩ := single_assignment came later
  obtain ⟨-,-,-,-,told,-⟩ := single_assignment (came.trans later) .start
  exact ⟨_,_,came,later,rfl,rfl,single,rfl,stays rfl,rfl,told 2 _ rfl⟩

end Gathering

end ScriptHost.Completion
