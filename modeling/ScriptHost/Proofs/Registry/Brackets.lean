import ScriptHost.Proofs.Registry.Exports
/-!
Generations in which every body asks its own `require`. Its chain has the keys of the modules that are being
evaluated, so no evaluation of one of these begins before they end (`Adds`), and between the two reports on an
evaluation there is none on the end of another one of its key (`Bracketed`). Then no evaluation encloses another one
of the same key, and all requires that lead to one record answer the same value (`one_value_of_own_requires`).
-/
namespace ScriptHost.Registry
variable {σ Value : Type}

/-- The code asks no `require` but the one for a record below the modules of a chain. -/
def Code.Asks (parent : Nat) (chain : List String) : Code σ Value → Prop
  | .ends _ => True
  | .requires other below _ next => other = parent ∧ below = chain ∧ ∀ result, (next result).Asks parent chain
  | .registers _ _ _ next => next.Asks parent chain
  | .lists next => ∀ keys, (next keys).Asks parent chain
  | .looks next => ∀ world, (next world).Asks parent chain
  | .changes _ next => next.Asks parent chain

/-- Bodies ask their own `require`, getters and setters ask none. -/
structure Realm.Modest (e : Realm σ Value) : Prop where
  body : ∀ p i chain, (e.body p i chain).Asks i chain
  inherits : ∀ w key code, e.inherits w key = some code → ∀ parent chain, code.Asks parent chain
  assigns : ∀ w key v code, e.assigns w key v = some code → ∀ parent chain, code.Asks parent chain

/-! ### Brackets -/

/-- Between the reports on an evaluation no other one of its key ends. -/
def Bracketed : List (Report Value) → Prop
  | [] => True
  | .ended n i key _ :: earlier =>
    (∃ inner before, earlier = inner ++ .began n i key :: before ∧ ∀ m j v, .ended m j key v ∉ inner) ∧
    Bracketed earlier
  | .began .. :: earlier => Bracketed earlier
  | .answered .. :: earlier => Bracketed earlier

/-- What is reported on top of a log: no evaluation of a module of the chain begins, and what ends has begun on top of
that log as well. -/
structure Adds (chain : List String) (new : List (Report Value)) : Prop where
  apart : ∀ {n i key}, .began n i key ∈ new → key ∉ chain
  begun : ∀ {n i key v}, .ended n i key v ∈ new → .began n i key ∈ new

theorem Bracketed.suffix {later earlier : List (Report Value)} (bracketed : Bracketed (later ++ earlier)) :
    Bracketed earlier := by
  induction later with
  | nil => exact bracketed
  | cons report later ih =>
    cases report with
    | ended n i key v => exact ih bracketed.2
    | _ => exact ih bracketed

/-- Where evaluations have numbers of their own, brackets do not enclose others of the key. -/
theorem Bracketed.not_enclosed {log : List (Report Value)} (bracketed : Bracketed log)
    (distinct : (log.filterMap Report.began?).Nodup) (i : Nat) (key : String) : ¬ Enclosed log i key := by
  rintro ⟨n,j,v,m,u,after,between,before,rfl,began⟩
  rw [List.append_assoc] at bracketed
  obtain ⟨⟨inner,rest,same,free⟩,-⟩ := bracketed.suffix
  rcases List.append_eq_append_iff.mp same with ⟨more,rfl,split⟩ | ⟨more,rfl,split⟩
  · -- The enclosed evaluation would end within the brackets.
    cases more with
    | nil => cases split
    | cons report more =>
      cases split
      exact free m i u (List.mem_append_right _ List.mem_cons_self)
  · -- The enclosing one would begin twice.
    cases more with
    | nil => cases split
    | cons report more =>
      cases split
      have again : [Report.began n j key].Sublist (more ++ .ended m i key u :: before) :=
        List.singleton_sublist.mpr (List.mem_append_right _ (List.mem_cons_of_mem _ began))
      have twice : [Report.began n j key,.began n j key].Sublist
          (after ++ .ended n j key v :: (inner ++ .began n j key :: more) ++ .ended m i key u :: before) := by
        have split : after ++ .ended n j key v :: (inner ++ .began n j key :: more) ++ .ended m i key u :: before =
            (after ++ .ended n j key v :: inner) ++ (.began n j key :: (more ++ .ended m i key u :: before)) := by simp
        rw [split]
        exact (again.cons_cons _).trans (List.sublist_append_right _ _)
      have numbers : [n,n].Nodup := distinct.sublist (twice.filterMap Report.began?)
      exact (List.nodup_cons.mp numbers).1 List.mem_cons_self

/-! ### Runs -/

/-- A run puts brackets on top of a log that respect a chain. -/
def Brackets (chain : List String) (s t : Era σ Value) : Prop :=
  (Bracketed s.log → Bracketed t.log) ∧ ∃ new, t.log = new ++ s.log ∧ Adds chain new

section
variable {e : Realm σ Value} {chain : List String} {s t u : Era σ Value} {i : Nat}

theorem Brackets.of_log (same : t.log = s.log) : Brackets chain s t :=
  ⟨fun bracketed => same ▸ bracketed,[],same,⟨fun member => absurd member List.not_mem_nil,
    fun member => absurd member List.not_mem_nil⟩⟩

theorem Brackets.trans (first : Brackets chain s t) (second : Brackets chain t u) : Brackets chain s u := by
  obtain ⟨left,new,same,adds⟩ := first
  obtain ⟨right,more,also,adds'⟩ := second
  refine ⟨right ∘ left,more ++ new,by rw [also,same,List.append_assoc],fun member => ?_,fun member => ?_⟩
  · rcases List.mem_append.mp member with later | earlier
    · exact adds'.apart later
    · exact adds.apart earlier
  · rcases List.mem_append.mp member with later | earlier
    · exact List.mem_append_left _ (adds'.begun later)
    · exact List.mem_append_right _ (adds.begun earlier)

theorem Brackets.answered (brackets : Brackets chain s t) (key : String) (v : Value) :
    Brackets chain s { t with log := .answered i key v :: t.log } := by
  obtain ⟨bracketed,new,same,adds⟩ := brackets
  refine ⟨bracketed,.answered i key v :: new,congrArg (_ :: ·) same,fun member => ?_,fun member => ?_⟩
  · exact adds.apart ((List.mem_cons.mp member).resolve_left nofun)
  · exact List.mem_cons_of_mem _ (adds.begun ((List.mem_cons.mp member).resolve_left nofun))

/-- An evaluation of a module that is not in the chain, as far as its body runs. -/
theorem Brackets.began {n : Nat} {key : String} (new : key ∉ chain)
    (inside : Brackets (chain ++ [key]) { s with begun := n+1, log := .began n i key :: s.log } t) :
    Brackets chain s t := by
  obtain ⟨bracketed,inner,same,adds⟩ := inside
  refine ⟨bracketed,inner ++ [.began n i key],by simp [same],fun member => ?_,fun member => ?_⟩
  · rcases List.mem_append.mp member with later | here
    · exact fun active => adds.apart later (List.mem_append_left _ active)
    · cases List.mem_singleton.mp here
      exact new
  · rcases List.mem_append.mp member with later | here
    · exact List.mem_append_left _ (adds.begun later)
    · cases List.mem_singleton.mp here

/-- The evaluation ends when its body does. -/
theorem Brackets.ended {n : Nat} {key : String} (new : key ∉ chain)
    (inside : Brackets (chain ++ [key]) { s with begun := n+1, log := .began n i key :: s.log } t) (v : Value) :
    Brackets chain s { t with log := .ended n i key v :: t.log } := by
  obtain ⟨bracketed,outer,same,adds⟩ := inside.began new
  obtain ⟨-,inner,also,own⟩ := inside
  -- The chain of the body has the key, so the body ends no evaluation of it.
  have free : ∀ m j w, .ended m j key w ∉ inner := fun m j w member =>
    own.apart (own.begun member) (List.mem_append_right _ List.mem_cons_self)
  have began : .began n i key ∈ outer := by
    have split : outer ++ s.log = (inner ++ [.began n i key]) ++ s.log := by
      rw [← same,also,List.append_assoc]
      rfl
    rw [List.append_cancel_right split]
    exact List.mem_append_right _ List.mem_cons_self
  refine ⟨fun before => ⟨⟨inner,s.log,also,free⟩,bracketed before⟩,.ended n i key v :: outer,congrArg (_ :: ·) same,
    fun member => ?_,fun member => ?_⟩
  · exact adds.apart ((List.mem_cons.mp member).resolve_left nofun)
  · rcases List.mem_cons.mp member with here | earlier
    · cases here
      exact List.mem_cons_of_mem _ began
    · exact List.mem_cons_of_mem _ (adds.begun earlier)

theorem brackets_play {ask : Nat → List String → String → Deed σ Value Value} {parent : Nat}
    (asks : ∀ specifier s, Brackets chain s ((ask parent chain specifier).outcome s).2) (code : Code σ Value)
    (own : code.Asks parent chain) (s : Era σ Value) : Brackets chain s ((code.play ask).outcome s).2 := by
  induction code generalizing s with
  | ends result => exact .of_log rfl
  | requires other below specifier next ih =>
    obtain ⟨rfl,rfl,own⟩ := own
    exact (asks specifier s).trans (ih _ (own _) _)
  | registers name body directory next ih =>
    have first : Brackets chain s { s with registry := s.registry.setModule (.named name body directory) } := .of_log rfl
    exact first.trans (ih own _)
  | lists next ih => exact ih _ (own _) s
  | looks next ih => exact ih _ (own _) s
  | changes world next ih =>
    have first : Brackets chain s { s with world } := .of_log rfl
    exact first.trans (ih own _)

section
variable {ask : Nat → List String → String → Deed σ Value Value} (modest : e.Modest)
  (asks : ∀ parent chain specifier s, Brackets chain s ((ask parent chain specifier).outcome s).2)
include modest asks

theorem brackets_keep (key : String) (v : Value) : Brackets chain s (((e.runner ask).keep e.table key v).outcome s).2 := by
  rcases Realm.keep_cases (s := s) (e := e) ask key v with kept | ⟨code,assigns,assigned⟩
  · rw [kept]
    exact .of_log rfl
  · rw [assigned,Deed.state_map]
    exact brackets_play (asks 0 chain) code (modest.assigns _ _ _ _ assigns 0 chain) s

theorem brackets_renew : Brackets chain s ((e.renew ask chain i (s.registry.record i)).outcome s).2 := by
  rcases compiled : s.registry.compileModule e.check i with ⟨found,r⟩
  have first : Brackets chain s { s with registry := r } := .of_log rfl
  cases found with
  | error f =>
    rw [Realm.outcome_renew_uncompiled ask compiled]
    exact first
  | ok p =>
    by_cases active : (s.registry.record i).key ∈ chain
    · rw [Realm.outcome_renew_loops ask compiled active]
      exact first
    · have named : (r.record i).key = (s.registry.record i).key := by
        have keeps := (compile_keeps e.check s.registry i i).1
        rw [compiled] at keeps
        exact keeps
      rw [Realm.outcome_renew ask compiled active,Realm.outcome_evaluate,named]
      generalize (s.registry.record i).key = key at *
      have inside := brackets_play (asks i (chain ++ [key])) _ (modest.body p i (chain ++ [key]))
        { s with registry := r, begun := s.begun+1, log := .began s.begun i key :: s.log }
      revert inside
      rcases ((e.body p i (chain ++ [key])).play ask).outcome
        { s with registry := r, begun := s.begun+1, log := .began s.begun i key :: s.log } with ⟨x | v,u⟩
      · exact fun inside => first.trans (Brackets.began (s := { s with registry := r }) active inside)
      · intro inside
        have ended := first.trans (Brackets.ended (s := { s with registry := r }) active inside v)
        have kept : Brackets chain { u with log := .ended s.begun i key v :: u.log } _ := brackets_keep modest asks key v
        revert kept
        simp only
        rcases ((e.runner ask).keep e.table key v).outcome { u with log := .ended s.begun i key v :: u.log } with ⟨x | y,w⟩
        · exact fun kept => ended.trans kept
        · exact fun kept => ended.trans (kept.trans (.of_log rfl))

theorem brackets_serve : Brackets chain s ((e.serve ask chain i).outcome s).2 := by
  rcases Realm.serve_cases (e := e) (s := s) ask chain i with ⟨v,-,-,served⟩ | ⟨code,-,-,inherits,served⟩ | ⟨-,served⟩
  · rw [served]
    exact .of_log rfl
  · rw [served]
    exact brackets_play (asks 0 chain) code (modest.inherits _ _ _ inherits 0 chain) s
  · rw [served]
    exact brackets_renew modest asks

end

theorem brackets_ask (modest : e.Modest) (depth parent : Nat) (chain : List String) (specifier : String)
    (s : Era σ Value) : Brackets chain s ((e.ask depth parent chain specifier).outcome s).2 := by
  induction depth generalizing parent chain specifier s with
  | zero => exact .of_log rfl
  | succ depth asks =>
    cases blank : Text.allBlank specifier with
    | true =>
      rw [Realm.outcome_ask_blank blank]
      exact .of_log rfl
    | false =>
      rcases resolved : s.registry.resolve (e.files s.world) parent specifier with ⟨found,r,accesses⟩
      have first : Brackets chain s { s with registry := r } := .of_log rfl
      cases found with
      | error f =>
        rw [Realm.outcome_ask_unresolved blank resolved]
        exact first
      | ok i =>
        have served : Brackets chain { s with registry := r } ((e.serve (e.ask depth) chain i).outcome _).2 :=
          brackets_serve modest asks
        rw [Realm.outcome_ask blank resolved]
        revert served
        rcases (e.serve (e.ask depth) chain i).outcome { s with registry := r } with ⟨x | v,t⟩
        · exact first.trans
        · exact fun served => (first.trans served).answered _ v

/-- In a generation in which every body asks its own `require` and the main script that of its record: where a key is a
plain property of the table of exports, all requires that lead to one record answer the exports of one evaluation
of it. -/
theorem one_value_of_own_requires {key : String} (begins : Begins e s) (plain : ∀ w v, e.assigns w key v = none)
    (modest : e.Modest) (depth : Nat) {parent : Nat} {code : Code σ Value} (own : code.Asks parent []) {v w : Value}
    (first : .answered i key v ∈ (e.after depth code s).log) (second : .answered i key w ∈ (e.after depth code s).log) :
    v = w ∧ ∃ n, .ended n i key v ∈ (e.after depth code s).log := by
  have told := begins.told_after plain depth code
  have brackets := brackets_play (brackets_ask modest depth parent []) code own s
  have bracketed : Bracketed (e.after depth code s).log := brackets.1 (begins.log ▸ trivial)
  exact (told.orderly.one_value first second).resolve_right (bracketed.not_enclosed told.numbered.2 i key)

end

end ScriptHost.Registry
