import ScriptHost.Engine.Machine
/-!
How computations end. A computation asks questions, and whoever answers hands over the world as it is by then,
which anything may have been done to. `Tree.Ends` is an end with the answers that led to it, and every end that
the machine comes to is one of these (`Comes.ends`). `Yields` is what is true of the value of a computation
whatever the answers are.
-/
namespace ScriptHost.Engine
variable {α β : Type}

/-- An answer to a question, with the world as it is then. -/
abbrev Answer := Reply × World

/-- With these answers to its questions a computation comes to an end. -/
inductive Tree.Ends : Tree α → List Answer → Except Thrown α → World → Prop where
  | ok {a : α} {w : World} : Ends (.ok a w) [] (.ok a) w
  | thrown {t : Thrown} {w : World} : Ends (.thrown t w) [] (.error t) w
  | ask {q : Request} {w back last : World} {next : Reply → World → Tree α} {reply : Reply}
      {answers : List Answer} {r : Except Thrown α} (rest : Ends (next reply back) answers r last) :
    Ends (.ask q w next) ((reply,back) :: answers) r last

namespace Tree

/-- The value of a computation is gone on with, and what it throws is thrown. -/
theorem ends_bind {t : Tree α} {f : α → World → Tree β} {answers : List Answer} {r : Except Thrown β} {last : World} :
    (t.bind f).Ends answers r last ↔
      (∃ first rest a back, answers = first ++ rest ∧ t.Ends first (.ok a) back ∧ (f a back).Ends rest r last) ∨
      ∃ e, r = .error e ∧ t.Ends answers (.error e) last := by
  constructor
  · intro ends
    induction t generalizing answers with
    | ok a w => exact .inl ⟨[],answers,a,w,rfl,.ok,ends⟩
    | thrown e w =>
      cases ends
      exact .inr ⟨e,rfl,.thrown⟩
    | ask q w next ih =>
      cases ends with
      | ask ends =>
        rcases ih _ _ ends with ⟨first,rest,a,back,rfl,before,after⟩ | ⟨e,rfl,before⟩
        · exact .inl ⟨_ :: first,rest,a,back,rfl,.ask before,after⟩
        · exact .inr ⟨e,rfl,.ask before⟩
  · rintro (⟨first,rest,a,back,rfl,before,after⟩ | ⟨e,rfl,before⟩)
    · induction t generalizing first with
      | ok a w =>
        cases before
        exact after
      | thrown e w => cases before
      | ask q w next ih =>
        cases before with
        | ask before => exact .ask (ih _ _ _ before)
    · induction t generalizing answers with
      | ok a w => cases before
      | thrown e w =>
        cases before
        exact .thrown
      | ask q w next ih =>
        cases before with
        | ask before => exact .ask (ih _ _ before)

/-- A computation comes to one end with one beginning of the answers. -/
theorem Ends.unique {t : Tree α} {answers others first rest : List Answer} {r s : Except Thrown α} {last back : World}
    (ends : t.Ends answers r last) (again : t.Ends first s back) (same : answers ++ others = first ++ rest) :
    answers = first ∧ r = s ∧ last = back := by
  induction ends generalizing first with
  | ok | thrown =>
    cases again
    exact ⟨rfl,rfl,rfl⟩
  | ask ends ih =>
    cases again with
    | ask again =>
      obtain ⟨head,tail⟩ := List.cons.inj same
      cases head
      obtain ⟨rfl,rest⟩ := ih again tail
      exact ⟨rfl,rest⟩

/-- What is left of a computation after a value of which the answers are known. -/
theorem Ends.bind_rest {t : Tree α} {f : α → World → Tree β} {first rest : List Answer} {a : α} {back last : World}
    {r : Except Thrown β} (ends : (t.bind f).Ends (first ++ rest) r last) (before : t.Ends first (.ok a) back) :
    (f a back).Ends rest r last := by
  rcases ends_bind.mp ends with ⟨start,others,a',middle,same,again,after⟩ | ⟨e,rfl,thrown⟩
  · obtain ⟨rfl,value,rfl⟩ := before.unique again same
    cases value
    cases List.append_cancel_left same
    exact after
  · obtain ⟨-,same,-⟩ := before.unique thrown (List.append_nil _).symm
    cases same

/-- What a computation ends with is gone on with. -/
theorem ends_settle {t : Tree α} {f : Except Thrown α → World → Tree β} {answers : List Answer}
    {r : Except Thrown β} {last : World} :
    (t.settle f).Ends answers r last ↔ ∃ first rest s back,
      answers = first ++ rest ∧ t.Ends first s back ∧ (f s back).Ends rest r last := by
  constructor
  · intro ends
    induction t generalizing answers with
    | ok a w => exact ⟨[],answers,.ok a,w,rfl,.ok,ends⟩
    | thrown e w => exact ⟨[],answers,.error e,w,rfl,.thrown,ends⟩
    | ask q w next ih =>
      cases ends with
      | ask ends =>
        obtain ⟨first,rest,s,back,rfl,before,after⟩ := ih _ _ ends
        exact ⟨_ :: first,rest,s,back,rfl,.ask before,after⟩
  · rintro ⟨first,rest,s,back,rfl,before,after⟩
    induction t generalizing first with
    | ok a w =>
      cases before
      exact after
    | thrown e w =>
      cases before
      exact after
    | ask q w next ih =>
      cases before with
      | ask before => exact .ask (ih _ _ _ before)

end Tree

/-! ### Ends of the machine -/

/-- How the outermost computation of a stack goes on. -/
def Stack.base : Stack α → Answering α
  | .bottom next => next
  | .frame _ _ rest => rest.base

/-- Some answers lead what runs to an end. -/
def Current.Ends (r : Except Thrown α) (last : World) : Current α → Prop
  | .outer t => ∃ answers, t.Ends answers r last
  | .inner _ _ stack => ∃ reply back answers, (stack.base reply back).Ends answers r last

/-- Some answers lead to an end from where a step leads. -/
def Step.Ends (r : Except Thrown α) (last : World) : Step α → Prop
  | .goes c _ => c.Ends r last
  | .asks _ _ next => ∃ goesOn back, (next goesOn back).Ends r last

/-- Some answers lead to an end from where a run has come to. -/
def Run.Ends (r : Except Thrown α) (last : World) : Run α → Prop
  | .ended s w _ => s = r ∧ w = last
  | .asks _ _ next => ∃ goesOn back, (next goesOn back).Ends r last

/-- A run comes to an end. At every pause the host answers, and hands over the world as it is by then. -/
inductive Comes (limit : Nat) : Current α → Parked → Except Thrown α → World → Prop where
  | ended {fuel : Nat} {c : Current α} {parked left : Parked} {r : Except Thrown α} {last : World}
      (run : runFor limit fuel c parked = .ended r last left) : Comes limit c parked r last
  | asks {fuel : Nat} {c : Current α} {parked left : Parked} {w last : World} {next : Bool → World → Current α}
      {r : Except Thrown α} (goesOn : Bool) (back : World) (run : runFor limit fuel c parked = .asks w left next)
      (rest : Comes limit (next goesOn back) left r last) : Comes limit c parked r last

section
variable {limit : Nat} {r : Except Thrown α} {last : World} {parked : Parked}

theorem Current.ends_replyTo {stack : Stack α} {reply : Reply} {w : World}
    (ends : (replyTo stack reply w).Ends r last) : ∃ reply back answers, (stack.base reply back).Ends answers r last := by
  cases stack with
  | bottom next =>
    obtain ⟨answers,ends⟩ := ends
    exact ⟨reply,w,answers,ends⟩
  | frame next owner rest => exact ends

/-- A question is answered, or what answers it runs above `below`. -/
inductive Answered (again : Reply → World → Current α) (below : Stack α) : Step α → Prop where
  | reply (reply : Reply) (w : World) (parked : Parked) : Answered again below (.goes (again reply w) parked)
  | call (t : Tree Value) (owner : Option Nat) (parked : Parked) : Answered again below (.goes (.inner t owner below) parked)
  | poll (w : World) (parked : Parked) (reply : Bool → Reply) :
    Answered again below (.asks w parked fun goesOn w => again (reply goesOn) w)

theorem answered (limit : Nat) (q : Request) (w : World) (again : Reply → World → Current α) (below : Stack α)
    (parked : Parked) : Answered again below (answer limit q w again below parked) := by
  cases q with
  | poll => exact .poll w parked fun goesOn => if goesOn then .ok .undefined else .thrown .abort
  | suspend waits v => exact .reply _ _ _
  | call f this args | construct f args newTarget =>
    simp only [answer]
    split
    · exact .reply _ _ _
    · exact .call _ _ _
  | resume id mode v =>
    simp only [answer]
    split
    · exact .reply _ _ _
    · split
      · exact .call _ _ _
      · split
        · exact .call _ _ _
        · exact .reply _ _ _

/-- An answer that leads to an end is a reply to whoever asked, or to whoever is below what answers. -/
theorem Answered.ends {again : Reply → World → Current α} {below : Stack α} {step : Step α}
    (answered : Answered again below step) (ends : step.Ends r last) :
    (∃ reply w, (again reply w).Ends r last) ∨ ∃ reply back answers, (below.base reply back).Ends answers r last := by
  cases answered with
  | reply reply w parked => exact .inl ⟨reply,w,ends⟩
  | call t owner parked => exact .inr ends
  | poll w parked reply =>
    obtain ⟨goesOn,back,ends⟩ := ends
    exact .inl ⟨reply goesOn,back,ends⟩

/-- How a run goes on after a step. -/
def Step.follow (limit fuel : Nat) : Step α → Run α
  | .goes c parked => runFor limit fuel c parked
  | .asks w parked next => .asks w parked next

theorem runFor_outer {fuel : Nat} {q : Request} {w : World} {next : Answering α} :
    runFor limit (fuel+1) (.outer (.ask q w next)) parked =
      (answer limit q w (fun r w => .outer (next r w)) (.bottom next) parked).follow limit fuel := by
  simp only [runFor]
  cases answer limit q w (fun r w => .outer (next r w)) (.bottom next) parked <;> rfl

/-- A body that suspends itself gives a value to whoever went on with it; all other questions are answered. -/
theorem runFor_inner {fuel : Nat} (q : Request) {w : World} {next : Answering Value} (owner : Option Nat)
    {stack : Stack α} :
    (∃ reply back left, runFor limit (fuel+1) (.inner (.ask q w next) owner stack) parked =
        runFor limit fuel (replyTo stack reply back) left) ∨
      runFor limit (fuel+1) (.inner (.ask q w next) owner stack) parked =
        (answer limit q w (fun r w => .inner (next r w) owner stack) (.frame next owner stack) parked).follow limit fuel := by
  cases step : answer limit q w (fun r w => .inner (next r w) owner stack) (.frame next owner stack) parked <;>
    cases q with
    | suspend waits v =>
      cases owner with
      | some id => exact .inl ⟨_,_,_,rfl⟩
      | none =>
        refine .inr ?_
        simp only [runFor,step,Step.follow]
    | _ =>
      refine .inr ?_
      simp only [runFor,step,Step.follow]

theorem Step.ends_follow {fuel : Nat} {step : Step α}
    (run : ∀ {c : Current α} {parked : Parked}, (runFor limit fuel c parked).Ends r last → c.Ends r last)
    (ends : (step.follow limit fuel).Ends r last) : step.Ends r last := by
  cases step with
  | goes c parked => exact run ends
  | asks w parked next => exact ends

theorem Run.ends {fuel : Nat} {c : Current α} (ends : (runFor limit fuel c parked).Ends r last) : c.Ends r last := by
  induction fuel generalizing c parked with
  | zero =>
    obtain ⟨goesOn,back,ends⟩ := ends
    exact ends
  | succ fuel ih =>
    cases c with
    | outer t =>
      cases t with
      | ok a w =>
        obtain ⟨rfl,rfl⟩ := ends
        exact ⟨[],.ok⟩
      | thrown t w =>
        obtain ⟨rfl,rfl⟩ := ends
        exact ⟨[],.thrown⟩
      | ask q w next =>
        rw [runFor_outer] at ends
        have asked := answered limit q w (fun r w => .outer (next r w)) (.bottom next) parked
        rcases asked.ends (Step.ends_follow ih ends) with ⟨reply,back,answers,ends⟩ | ⟨reply,back,answers,ends⟩
        · exact ⟨_,.ask ends⟩
        · exact ⟨_,.ask ends⟩
    | inner t owner stack =>
      cases t with
      | ok v w => exact Current.ends_replyTo (ih ends)
      | thrown t w => exact Current.ends_replyTo (ih ends)
      | ask q w next =>
        rcases runFor_inner q owner with ⟨reply,back,left,same⟩ | same
        · exact Current.ends_replyTo (ih (same ▸ ends))
        · have asked := answered limit q w (fun r w => .inner (next r w) owner stack) (.frame next owner stack) parked
          rcases asked.ends (Step.ends_follow ih (same ▸ ends)) with ⟨reply,back,ends⟩ | ends
          · exact ends
          · exact ends

/-- Whatever end the machine comes to, there are answers that lead to it. -/
theorem Comes.ends {c : Current α} (comes : Comes limit c parked r last) : c.Ends r last := by
  induction comes with
  | @ended fuel c parked left r last run =>
    have ends : (runFor limit fuel c parked).Ends r last := by
      rw [run]
      exact ⟨rfl,rfl⟩
    exact Run.ends ends
  | @asks fuel c parked left w last next r goesOn back run rest ih =>
    have ends : (runFor limit fuel c parked).Ends r last := by
      rw [run]
      exact ⟨goesOn,back,ih⟩
    exact Run.ends ends

end

/-! ### Values whatever the answers are -/

/-- Whatever the answers are, the computation throws nothing, and `P` is true of the value that it ends with. -/
def Yields (m : M α) (P : α → Prop) : Prop :=
  ∀ w answers r last, (m w).Ends answers r last → ∃ a, r = .ok a ∧ P a

theorem M.bind_apply (m : M α) (f : α → M β) (w : World) : (m >>= f) w = (m w).bind f := by
  show M.bind m f w = (m w).bind f
  unfold M.bind
  cases m w <;> rfl

theorem M.bind_of_ok {m : M α} {f : α → M β} {w back : World} {a : α} (ends : m w = .ok a back) :
    (m >>= f) w = f a back := by
  rw [M.bind_apply,ends]
  rfl

theorem M.bind_assoc {γ : Type} (m : M α) (f : α → M β) (g : β → M γ) :
    (m >>= f) >>= g = m >>= fun a => f a >>= g := by
  funext w
  have inner : (fun a => f a >>= g) = fun a w => (f a w).bind g := funext fun a => funext fun w => M.bind_apply (f a) g w
  calc ((m >>= f) >>= g) w = ((m >>= f) w).bind g := M.bind_apply _ g w
    _ = ((m w).bind f).bind g := congrArg (Tree.bind · g) (M.bind_apply m f w)
    _ = (m w).bind fun a w => (f a w).bind g := Tree.bind_assoc (m w) f g
    _ = (m w).bind fun a => f a >>= g := congrArg (m w).bind inner.symm
    _ = (m >>= fun a => f a >>= g) w := (M.bind_apply m _ w).symm

section
variable {m : M α} {f : α → M β} {P : β → Prop} {Q : α → Prop}

theorem yields_pure {a : α} (holds : Q a) : Yields (pure a) Q := by
  intro w answers r last ends
  cases ends
  exact ⟨a,rfl,holds⟩

theorem yields_update (f : World → α × World) (holds : ∀ w, Q (f w).1) : Yields (update f) Q := by
  intro w answers r last ends
  cases ends
  exact ⟨_,rfl,holds w⟩

theorem yields_look (f : World → α) (holds : ∀ w, Q (f w)) : Yields (look f) Q := by
  intro w answers r last ends
  cases ends
  exact ⟨_,rfl,holds w⟩

theorem Yields.bind (first : Yields m Q) (rest : ∀ a, Q a → Yields (f a) P) : Yields (m >>= f) P := by
  intro w answers r last ends
  rw [M.bind_apply] at ends
  rcases Tree.ends_bind.mp ends with ⟨before,after,a,back,-,first',rest'⟩ | ⟨e,-,thrown⟩
  · obtain ⟨b,same,holds⟩ := first _ _ _ _ first'
    cases same
    exact rest _ holds _ _ _ _ rest'
  · obtain ⟨b,same,-⟩ := first _ _ _ _ thrown
    cases same

/-- What a computation throws is part of its outcome. -/
theorem yields_outcome (m : M α) : Yields (outcome m) fun _ => True := by
  intro w answers r last ends
  obtain ⟨before,after,s,back,-,-,rest⟩ := Tree.ends_settle.mp ends
  cases rest
  exact ⟨s,rfl,trivial⟩

/-- The outcome of a computation is gone on with. -/
theorem ends_outcome {f : Except Thrown α → M β} {w last : World} {answers : List Answer} {r : Except Thrown β}
    (ends : ((outcome m >>= f) w).Ends answers r last) : ∃ first rest s back,
      answers = first ++ rest ∧ (m w).Ends first s back ∧ (f s back).Ends rest r last := by
  rw [M.bind_apply] at ends
  rcases Tree.ends_bind.mp ends with ⟨before,after,s,back,rfl,first,rest⟩ | ⟨e,-,thrown⟩
  · obtain ⟨start,none,t,middle,rfl,first,done⟩ := Tree.ends_settle.mp first
    cases done
    exact ⟨start,after,s,back,by simp,first,rest⟩
  · obtain ⟨s,same,-⟩ := yields_outcome m w answers _ _ thrown
    cases same

/-- A computation that throws nothing after one of any kind. -/
theorem Yields.then (first : Yields m fun _ => True) (rest : ∀ a, Yields (f a) P) : Yields (m >>= f) P :=
  first.bind fun a _ => rest a

end
end ScriptHost.Engine
