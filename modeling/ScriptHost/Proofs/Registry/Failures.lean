import ScriptHost.Proofs.Registry.Brackets
/-!
What a failed require leaves behind. In a generation whose bodies ask their own `require` and register nothing, a key
leads to one record for as long as a require lasts, and at most one evaluation of a key ends in that time (`Steady`).
So after a require, whether it fails or not, the marks and the exports are those from before and those of the
evaluations that ended in it. `Inside` are the requires that are made in a require, at any depth: if one fails whose
module was being evaluated, that module has neither mark nor exports then (`unmarked_of_failing`).
-/
namespace ScriptHost.Registry
variable {σ Value : Type}

/-- The code registers no modules. -/
def Code.Quiet : Code σ Value → Prop
  | .ends _ => True
  | .requires _ _ _ next => ∀ result, (next result).Quiet
  | .registers .. => False
  | .lists next => ∀ keys, (next keys).Quiet
  | .looks next => ∀ world, (next world).Quiet
  | .changes _ next => next.Quiet

structure Realm.Quiet (e : Realm σ Value) : Prop where
  body : ∀ p i chain, (e.body p i chain).Quiet
  inherits : ∀ w key code, e.inherits w key = some code → code.Quiet
  assigns : ∀ w key v code, e.assigns w key v = some code → code.Quiet

/-! ### Runs that register nothing -/

theorem Bracketed.append {later earlier : List (Report Value)} (bracketed : Bracketed later)
    (bracketed' : Bracketed earlier) : Bracketed (later ++ earlier) := by
  induction later with
  | nil => exact bracketed'
  | cons report later ih =>
    cases report with
    | ended n i key v =>
      obtain ⟨⟨inner,before,rfl,free⟩,rest⟩ := bracketed
      exact ⟨⟨inner,before ++ earlier,by simp,free⟩,ih rest⟩
    | _ => exact ih bracketed

/-- A run in which a key keeps its record: what it reports is in brackets, and evaluations of the key that end are of
that record. -/
structure Steady (key : String) (s t : Era σ Value) : Prop where
  sound : Sound t.registry
  kept : ∀ i, s.registry.find? key = some i → t.registry.find? key = some i
  log : ∃ new, t.log = new ++ s.log ∧ Bracketed new ∧
    ∀ n i v, .ended n i key v ∈ new → t.registry.find? key = some i

section
variable {e : Realm σ Value} {key : String} {s t u : Era σ Value} {i depth : Nat} {chain : List String}

theorem Steady.of_log (sound : Sound t.registry)
    (kept : ∀ i, s.registry.find? key = some i → t.registry.find? key = some i) (same : t.log = s.log) :
    Steady key s t :=
  ⟨sound,kept,[],same,trivial,fun _ _ _ member => absurd member List.not_mem_nil⟩

theorem Steady.refl (sound : Sound s.registry) : Steady key s s := .of_log sound (fun _ found => found) rfl

theorem Steady.trans (first : Steady key s t) (second : Steady key t u) : Steady key s u := by
  obtain ⟨new,same,bracketed,ended⟩ := first.log
  obtain ⟨more,also,bracketed',ended'⟩ := second.log
  refine ⟨second.sound,fun i found => second.kept i (first.kept i found),more ++ new,
    by rw [also,same,List.append_assoc],bracketed'.append bracketed,fun n i v member => ?_⟩
  rcases List.mem_append.mp member with later | earlier
  · exact ended' n i v later
  · exact second.kept i (ended n i v earlier)

/-- A report that is none of the end of an evaluation. -/
theorem Steady.report (sound : Sound s.registry) {x : Report Value} {begun : Nat} (other : ∀ n i k v, x ≠ .ended n i k v) :
    Steady key s { s with begun, log := x :: s.log } := by
  refine ⟨sound,fun _ found => found,[x],rfl,?_,fun n i v member => ?_⟩
  · cases x with
    | ended n i k v => exact absurd rfl (other n i k v)
    | _ => trivial
  · exact absurd (List.mem_singleton.mp member).symm (other n i key v)

/-- A step in which a key keeps its record, from registries that are sound. -/
def Settles {α : Type} (key : String) (x : Deed σ Value α) : Prop :=
  ∀ s, Sound s.registry → Steady key s (x.outcome s).2

theorem settles_play {ask : Nat → List String → String → Deed σ Value Value}
    (asks : ∀ parent chain specifier, Settles key (ask parent chain specifier)) (code : Code σ Value)
    (quiet : code.Quiet) : Settles key (code.play ask) := by
  induction code with
  | ends result => exact fun s sound => .refl sound
  | requires parent chain specifier next ih =>
    intro s sound
    have first := asks parent chain specifier s sound
    exact first.trans (ih _ (quiet _) _ first.sound)
  | registers name body directory next ih => exact quiet.elim
  | lists next ih => exact fun s sound => ih _ (quiet _) s sound
  | looks next ih => exact fun s sound => ih _ (quiet _) s sound
  | changes world next ih =>
    intro s sound
    have first : Steady key s { s with world } := .of_log sound (fun _ found => found) rfl
    exact first.trans (ih quiet _ sound)

section
variable (modest : e.Modest) (quiet : e.Quiet)
  (asks : ∀ parent chain specifier, Settles key (e.ask depth parent chain specifier))
include quiet asks

theorem settles_keep (k : String) (v : Value) : Settles key ((e.runner (e.ask depth)).keep e.table k v) := by
  intro s sound
  rcases Realm.keep_cases (s := s) (e := e) (e.ask depth) k v with kept | ⟨code,assigns,assigned⟩
  · rw [kept]
    exact .of_log sound (fun _ found => found) rfl
  · rw [assigned,Deed.state_map]
    exact settles_play asks code (quiet.assigns _ _ _ _ assigns) s sound

include modest

theorem steady_renew (chain : List String) (sound : Sound s.registry)
    (leads : s.registry.find? (s.registry.record i).key = some i) :
    Steady key s ((e.renew (e.ask depth) chain i (s.registry.record i)).outcome s).2 := by
  rcases compiled : s.registry.compileModule e.check i with ⟨found,r⟩
  have find : ∀ k, r.find? k = s.registry.find? k := fun k => by simpa [compiled] using compile_find e.check s.registry i k
  have first : Steady key s { s with registry := r } := by
    refine .of_log ?_ (fun j found => (find key).trans found) rfl
    simpa [compiled] using sound_compile sound e.check i
  cases found with
  | error f =>
    rw [Realm.outcome_renew_uncompiled _ compiled]
    exact first
  | ok p =>
    by_cases active : (s.registry.record i).key ∈ chain
    · rw [Realm.outcome_renew_loops _ compiled active]
      exact first
    · have named : (r.record i).key = (s.registry.record i).key := by
        simpa [compiled] using (compile_keeps e.check s.registry i i).1
      rw [Realm.outcome_renew _ compiled active,Realm.outcome_evaluate,named]
      generalize (s.registry.record i).key = k at *
      have began : Steady key { s with registry := r }
          { s with registry := r, begun := s.begun+1, log := .began s.begun i k :: s.log } := .report first.sound nofun
      have inside := settles_play asks (e.body p i (chain ++ [k])) (quiet.body p i _) _ began.sound
      have brackets := brackets_play (brackets_ask modest depth i (chain ++ [k])) _ (modest.body p i _)
        { s with registry := r, begun := s.begun+1, log := .began s.begun i k :: s.log }
      have before := first.trans (began.trans inside)
      revert inside brackets before
      rcases ((e.body p i (chain ++ [k])).play (e.ask depth)).outcome
        { s with registry := r, begun := s.begun+1, log := .began s.begun i k :: s.log } with ⟨x | v,u⟩
      · exact fun _ _ before => before
      · rintro inside ⟨-,inner,same,own⟩ before
        -- The key of the module is in the chain of its body, so no evaluation of it ends in there.
        have free : ∀ m j w, .ended m j k w ∉ inner := fun m j w member =>
          own.apart (own.begun member) (List.mem_append_right _ List.mem_cons_self)
        have ended : Steady key s { u with log := .ended s.begun i k v :: u.log } := by
          obtain ⟨new,split,bracketed,found⟩ := before.log
          have cut : new = inner ++ [.began s.begun i k] := by
            refine List.append_cancel_right (split.symm.trans (same.trans ?_))
            simp
          refine ⟨before.sound,before.kept,.ended s.begun i k v :: new,congrArg (_ :: ·) split,
            ⟨⟨inner,[],cut,free⟩,bracketed⟩,fun m j w member => ?_⟩
          rcases List.mem_cons.mp member with here | older
          · cases here
            exact before.kept i leads
          · exact found m j w older
        have kept := settles_keep quiet asks k v _ ended.sound
        revert kept
        simp only
        rcases ((e.runner (e.ask depth)).keep e.table k v).outcome
          { u with log := .ended s.begun i k v :: u.log } with ⟨x | y,w⟩
        · exact fun kept => ended.trans kept
        · intro kept
          exact ended.trans (kept.trans (.of_log (sound_mark kept.sound i e.generation) (fun _ found => found) rfl))

theorem steady_serve (chain : List String) (sound : Sound s.registry)
    (leads : s.registry.find? (s.registry.record i).key = some i) :
    Steady key s ((e.serve (e.ask depth) chain i).outcome s).2 := by
  rcases Realm.serve_cases (e := e) (s := s) (e.ask depth) chain i with
    ⟨v,-,-,served⟩ | ⟨code,-,-,inherits,served⟩ | ⟨-,served⟩
  · rw [served]
    exact .refl sound
  · rw [served]
    exact settles_play asks code (quiet.inherits _ _ _ inherits) s sound
  · rw [served]
    exact steady_renew modest quiet asks chain sound leads

end

theorem settles_ask (modest : e.Modest) (quiet : e.Quiet) (depth parent : Nat) (chain : List String)
    (specifier : String) : Settles key (e.ask depth parent chain specifier) := by
  induction depth generalizing parent chain specifier with
  | zero => exact fun s sound => .refl sound
  | succ depth asks =>
    intro s sound
    cases blank : Text.allBlank specifier with
    | true =>
      rw [Realm.outcome_ask_blank blank]
      exact .refl sound
    | false =>
      rcases resolved : s.registry.resolve (e.files s.world) parent specifier with ⟨found,r,accesses⟩
      obtain ⟨grows,leads⟩ := resolve_grows sound resolved
      have first : Steady key s { s with registry := r } := .of_log (grows.sound sound) (grows.kept key) rfl
      cases found with
      | error f =>
        rw [Realm.outcome_ask_unresolved blank resolved]
        exact first
      | ok i =>
        have served : Steady key { s with registry := r } ((e.serve (e.ask depth) chain i).outcome _).2 :=
          steady_serve modest quiet asks chain first.sound (leads i rfl)
        rw [Realm.outcome_ask blank resolved]
        revert served
        rcases (e.serve (e.ask depth) chain i).outcome { s with registry := r } with ⟨x | v,t⟩
        · exact fun served => first.trans served
        · exact fun served => first.trans (served.trans (.report served.sound nofun))

end

/-! ### Requires inside a require -/

/-- A require that is made: how many calls can nest in it, and what it asks. -/
structure Call where
  depth : Nat
  parent : Nat
  chain : List String
  specifier : String

def Realm.call (e : Realm σ Value) (c : Call) : Deed σ Value Value := e.ask c.depth c.parent c.chain c.specifier

/-- Code makes a require in an era, the calls from it on being at most so deep. -/
inductive Code.Makes (e : Realm σ Value) (depth : Nat) : Code σ Value → Era σ Value → Call → Era σ Value → Prop where
  | here {parent : Nat} {chain : List String} {specifier : String} {next : Except (Thrown Value) Value → Code σ Value}
    {s : Era σ Value} : Makes e depth (.requires parent chain specifier next) s ⟨depth,parent,chain,specifier⟩ s
  | later {parent : Nat} {chain : List String} {specifier : String} {next : Except (Thrown Value) Value → Code σ Value}
    {s t : Era σ Value} {c : Call}
    (makes : Makes e depth (next ((e.ask depth parent chain specifier).outcome s).1)
      ((e.ask depth parent chain specifier).outcome s).2 c t) : Makes e depth (.requires parent chain specifier next) s c t
  | registers {name body : String} {directory : Option Path} {next : Code σ Value} {s t : Era σ Value} {c : Call}
    (makes : Makes e depth next { s with registry := s.registry.setModule (.named name body directory) } c t) :
    Makes e depth (.registers name body directory next) s c t
  | lists {next : List String → Code σ Value} {s t : Era σ Value} {c : Call}
    (makes : Makes e depth (next s.registry.keys) s c t) : Makes e depth (.lists next) s c t
  | looks {next : σ → Code σ Value} {s t : Era σ Value} {c : Call} (makes : Makes e depth (next s.world) s c t) :
    Makes e depth (.looks next) s c t
  | changes {world : σ} {next : Code σ Value} {s t : Era σ Value} {c : Call}
    (makes : Makes e depth next { s with world } c t) : Makes e depth (.changes world next) s c t

/-- A require comes to the body of a module: the module is found, the generation has no exports of it, it compiles and
is not in the chain. -/
inductive Enters (e : Realm σ Value) : Call → Era σ Value → Nat → Code σ Value → Era σ Value → Prop where
  | evaluation {s : Era σ Value} {depth parent i : Nat} {chain : List String} {specifier : String} {r t : Registry}
    {accesses : List Access} {p : Program} (visible : Text.allBlank specifier = false)
    (resolved : s.registry.resolve (e.files s.world) parent specifier = (.ok i,r,accesses))
    (missing : (r.record i).evaluatedIn = e.generation →
      s.exports.lookup (r.record i).key = none ∧ e.inherits s.world (r.record i).key = none)
    (compiled : r.compileModule e.check i = (.ok p,t)) (apart : (r.record i).key ∉ chain) :
    Enters e ⟨depth+1,parent,chain,specifier⟩ s depth (e.body p i (chain ++ [(r.record i).key]))
      { s with registry := t, begun := s.begun+1, log := .began s.begun i (r.record i).key :: s.log }

/-- A require is made inside another one, by a body that it runs or inside a require of such a body. -/
inductive Inside (e : Realm σ Value) : Call → Era σ Value → Call → Era σ Value → Prop where
  | self (c : Call) (s : Era σ Value) : Inside e c s c s
  | deeper {c c' c'' : Call} {s t s' s'' : Era σ Value} {depth : Nat} {code : Code σ Value}
    (enters : Enters e c s depth code t) (makes : code.Makes e depth t c' s') (inside : Inside e c' s' c'' s'') :
    Inside e c s c'' s''

section
variable {e : Realm σ Value} {key : String} {s t u : Era σ Value} {i depth : Nat} {c c' : Call} {code : Code σ Value}

theorem Enters.told (enters : Enters e c s depth code t) (told : Told e key s) : Told e key t := by
  cases enters with
  | @evaluation s depth parent i chain specifier r t accesses p visible resolved missing compiled apart =>
    obtain ⟨grows,leads⟩ := resolve_grows told.sound resolved
    have first := told.evolve (.of_grows told.sound grows)
    have second : Told e key { s with registry := t } := by
      have evolves := Evolves.compile first.told.sound e.check i
      simp only [compiled] at evolves
      exact (first.told.evolve evolves).told
    refine (second.begin fun same => ?_).told
    exact first.told.newer (same ▸ leads i rfl) same fun evaluated => same ▸ (missing evaluated).1

theorem Enters.steady (enters : Enters e c s depth code t) (sound : Sound s.registry) : Steady key s t := by
  cases enters with
  | @evaluation s depth parent i chain specifier r t accesses p visible resolved missing compiled apart =>
    obtain ⟨grows,-⟩ := resolve_grows sound resolved
    have first : Steady key s { s with registry := t } := by
      refine .of_log ?_ (fun j found => ?_) rfl
      · simpa [compiled] using sound_compile (grows.sound sound) e.check i
      · have same : t.find? key = r.find? key := by simpa [compiled] using compile_find e.check r i key
        exact same.trans (grows.kept key j found)
    exact first.trans (.report first.sound nofun)

theorem Enters.quiet (enters : Enters e c s depth code t) (quiet : e.Quiet) : code.Quiet := by
  cases enters
  exact quiet.body _ _ _

theorem Code.Makes.told (makes : code.Makes e depth s c t) (plain : ∀ w v, e.assigns w key v = none)
    (told : Told e key s) : Told e key t := by
  induction makes with
  | here => exact told
  | later makes ih => exact ih (keeps_ask plain depth _ _ _ _ told).told
  | registers makes ih => exact ih (told.evolve (.register told.sound rfl)).told
  | lists makes ih => exact ih told
  | looks makes ih => exact ih told
  | changes makes ih => exact ih ⟨told.sound,told.own,told.marked,told.ended,told.orderly,told.numbered⟩

theorem Code.Makes.steady (makes : code.Makes e depth s c t) (modest : e.Modest) (quiet : e.Quiet) (own : code.Quiet)
    (sound : Sound s.registry) : Steady key s t := by
  induction makes with
  | here => exact .refl sound
  | @later parent chain specifier next s t c makes ih =>
    have first : Steady key s ((e.ask depth parent chain specifier).outcome s).2 :=
      settles_ask modest quiet depth parent chain specifier s sound
    exact first.trans (ih (own _) first.sound)
  | registers makes ih => exact own.elim
  | lists makes ih => exact ih (own _) sound
  | looks makes ih => exact ih (own _) sound
  | @changes world next s t c makes ih =>
    have first : Steady key s { s with world } := .of_log sound (fun _ found => found) rfl
    exact first.trans (ih own sound)

theorem Inside.told (inside : Inside e c s c' t) (plain : ∀ w v, e.assigns w key v = none) (told : Told e key s) :
    Told e key t := by
  induction inside with
  | self => exact told
  | deeper enters makes inside ih => exact ih (makes.told plain (enters.told told))

theorem Inside.steady (inside : Inside e c s c' t) (modest : e.Modest) (quiet : e.Quiet) (sound : Sound s.registry) :
    Steady key s t := by
  induction inside with
  | self => exact .refl sound
  | deeper enters makes inside ih =>
    have first : Steady key _ _ := enters.steady sound
    have second : Steady key _ _ := makes.steady modest quiet (enters.quiet quiet) first.sound
    exact first.trans (second.trans (ih second.sound))

end

/-! ### Failures -/

/-- A record of the key is marked as evaluated in the generation. -/
def Realm.Marked (e : Realm σ Value) (key : String) (s : Era σ Value) (i : Nat) : Prop :=
  (s.registry.record i).key = key ∧ (s.registry.record i).evaluatedIn = e.generation

/-- The modules of the key that have been evaluated are the one to which the key leads. -/
def Unreplaced (key : String) (s : Era σ Value) : Prop := ∀ n i v, .ended n i key v ∈ s.log → s.registry.find? key = some i

section
variable {e : Realm σ Value} {key : String} {s t u : Era σ Value} {i n depth : Nat} {c : Call} {code : Code σ Value}
  {x : Thrown Value} {inner new : List (Report Value)}

/-- Code that asks no `require` at all reports nothing. -/
theorem log_play_of_silent {ask : Nat → List String → String → Deed σ Value Value}
    (silent : ∀ parent chain, code.Asks parent chain) (s : Era σ Value) : ((code.play ask).outcome s).2.log = s.log := by
  induction code generalizing s with
  | ends result => rfl
  | requires parent chain specifier next ih =>
    have here := (silent (parent+1) chain).1
    omega
  | registers name body directory next ih => exact ih silent { s with registry := _ }
  | lists next ih => exact ih _ (fun parent chain => silent parent chain _) s
  | looks next ih => exact ih _ (fun parent chain => silent parent chain _) s
  | changes world next ih => exact ih silent { s with world }

/-- An evaluation that fails ends none of its own key. -/
theorem renew_fails (modest : e.Modest) {chain : List String}
    (fails : (e.renew (e.ask depth) chain i (s.registry.record i)).outcome s = (.error x,t)) :
    t.log = s.log ∨ ∃ inner, t.log = inner ++ .began s.begun i (s.registry.record i).key :: s.log ∧
      ((∀ w v, e.assigns w (s.registry.record i).key v = none) →
        ∀ m j v, .ended m j (s.registry.record i).key v ∉ inner) := by
  rcases compiled : s.registry.compileModule e.check i with ⟨found,r⟩
  cases found with
  | error f =>
    rw [Realm.outcome_renew_uncompiled _ compiled] at fails
    cases fails
    exact .inl rfl
  | ok p =>
    by_cases active : (s.registry.record i).key ∈ chain
    · rw [Realm.outcome_renew_loops _ compiled active] at fails
      cases fails
      exact .inl rfl
    · right
      have named : (r.record i).key = (s.registry.record i).key := by
        simpa [compiled] using (compile_keeps e.check s.registry i i).1
      rw [Realm.outcome_renew _ compiled active,Realm.outcome_evaluate,named] at fails
      generalize (s.registry.record i).key = k at *
      obtain ⟨-,inner,same,own⟩ := brackets_play (brackets_ask modest depth i (chain ++ [k])) _ (modest.body p i _)
        { s with registry := r, begun := s.begun+1, log := .began s.begun i k :: s.log }
      -- The chain of the body has the key.
      have free : ∀ m j v, .ended m j k v ∉ inner := fun m j v member =>
        own.apart (own.begun member) (List.mem_append_right _ List.mem_cons_self)
      revert fails same
      rcases ((e.body p i (chain ++ [k])).play (e.ask depth)).outcome
        { s with registry := r, begun := s.begun+1, log := .began s.begun i k :: s.log } with ⟨y | v,u⟩
      · intro fails same
        cases fails
        exact ⟨inner,same,fun _ => free⟩
      · intro fails same
        simp only at fails
        rcases Realm.keep_cases (s := { u with log := .ended s.begun i k v :: u.log }) (e := e) (e.ask depth) k v with
          kept | ⟨code,assigns,assigned⟩
        · -- A value that is kept does not fail.
          rw [kept] at fails
          cases fails
        · have silent : ((code.play (e.ask depth)).outcome { u with log := .ended s.begun i k v :: u.log }).2.log =
              .ended s.begun i k v :: u.log := log_play_of_silent (modest.assigns _ _ _ _ assigns) _
          rw [assigned,Deed.outcome_map] at fails
          revert fails silent
          rcases (code.play (e.ask depth)).outcome { u with log := .ended s.begun i k v :: u.log } with ⟨z | w,t'⟩
          · intro fails silent
            cases fails
            refine ⟨.ended s.begun i k v :: inner,silent.trans (congrArg (_ :: ·) same),fun plain => ?_⟩
            rw [plain] at assigns
            cases assigns
          · intro fails silent
            cases fails

theorem serve_fails (modest : e.Modest) {chain : List String}
    (fails : (e.serve (e.ask depth) chain i).outcome s = (.error x,t)) :
    t.log = s.log ∨ ∃ inner, t.log = inner ++ .began s.begun i (s.registry.record i).key :: s.log ∧
      ((∀ w v, e.assigns w (s.registry.record i).key v = none) →
        ∀ m j v, .ended m j (s.registry.record i).key v ∉ inner) := by
  rcases Realm.serve_cases (e := e) (s := s) (e.ask depth) chain i with
    ⟨v,-,-,served⟩ | ⟨code,-,-,inherits,served⟩ | ⟨-,served⟩
  · rw [served] at fails
    cases fails
  · rw [served] at fails
    have silent : ((code.play (e.ask depth)).outcome s).2.log = s.log :=
      log_play_of_silent (modest.inherits _ _ _ inherits) s
    rw [fails] at silent
    exact .inl silent
  · rw [served] at fails
    exact renew_fails modest fails

/-- A require that fails has reported nothing, or it has begun an evaluation of the record to which the key leads. The
body has not ended any evaluation of that key then. -/
theorem call_fails (modest : e.Modest) (sound : Sound s.registry) (fails : (e.call c).outcome s = (.error x,t)) :
    t.log = s.log ∨ ∃ inner i k, t.log = inner ++ .began s.begun i k :: s.log ∧
      (∀ j, s.registry.find? k = some j → j = i) ∧
      ((∀ w v, e.assigns w k v = none) → ∀ m j v, .ended m j k v ∉ inner) := by
  obtain ⟨depth,parent,chain,specifier⟩ := c
  unfold Realm.call at fails
  cases depth with
  | zero =>
    cases fails
    exact .inl rfl
  | succ depth =>
    cases blank : Text.allBlank specifier with
    | true =>
      rw [Realm.outcome_ask_blank blank] at fails
      cases fails
      exact .inl rfl
    | false =>
      rcases resolved : s.registry.resolve (e.files s.world) parent specifier with ⟨found,r,accesses⟩
      obtain ⟨grows,leads⟩ := resolve_grows sound resolved
      cases found with
      | error f =>
        rw [Realm.outcome_ask_unresolved blank resolved] at fails
        cases fails
        exact .inl rfl
      | ok i =>
        rw [Realm.outcome_ask blank resolved] at fails
        rcases served : (e.serve (e.ask depth) chain i).outcome { s with registry := r } with ⟨y | v,u⟩
        · rw [served] at fails
          cases fails
          refine (serve_fails modest served).imp_right ?_
          rintro ⟨inner,same,free⟩
          refine ⟨inner,i,_,same,fun j found => ?_,free⟩
          exact Option.some.inj ((grows.kept _ j found).symm.trans (leads i rfl))
        · rw [served] at fails
          cases fails

theorem Told.called (told : Told e key s) (plain : ∀ w v, e.assigns w key v = none) {result : Except (Thrown Value) Value}
    (called : (e.call c).outcome s = (result,t)) : Onward e key s t := by
  have onward := keeps_ask plain c.depth c.parent c.chain c.specifier s told
  unfold Realm.call at called
  rw [called] at onward
  exact onward

/-- Where a require fails that was evaluating a module, the module is left without a mark, and without exports unless
those of one that it has replaced. -/
theorem unmarked_of_failing (modest : e.Modest) (plain : ∀ w v, e.assigns w key v = none) (told : Told e key s)
    (fails : (e.call c).outcome s = (.error x,t)) (split : t.log = inner ++ .began n i key :: s.log) :
    ¬ e.Marked key t i ∧ (Unreplaced key s → t.exports.lookup key = none) := by
  have last := (told.called plain fails).told
  obtain ⟨leads,free⟩ : (∀ j, s.registry.find? key = some j → j = i) ∧ ∀ m j v, .ended m j key v ∉ inner := by
    rcases call_fails modest told.sound fails with same | ⟨inner',i',k,same,leads,free⟩
    · have lengths := congrArg List.length (split.symm.trans same)
      simp at lengths
      omega
    · have both : (inner ++ [.began n i key]) ++ s.log = (inner' ++ [.began s.begun i' k]) ++ s.log := by
        simpa using split.symm.trans same
      have cut := List.append_cancel_right both
      obtain ⟨rfl,began⟩ := List.append_inj' cut rfl
      cases began
      exact ⟨leads,free plain⟩
  have older : ∀ m j v, .ended m j key v ∈ s.log → j < i := by
    have orderly := last.orderly
    rw [split] at orderly
    exact orderly.suffix.1 rfl
  -- What has ended of the key has ended before the require.
  have before : ∀ m j v, .ended m j key v ∈ t.log → .ended m j key v ∈ s.log := by
    intro m j v member
    rw [split] at member
    rcases List.mem_append.mp member with here | there
    · exact absurd here (free m j v)
    · exact (List.mem_cons.mp there).resolve_left nofun
  refine ⟨fun marked => ?_,fun unreplaced => ?_⟩
  · obtain ⟨m,v,ended⟩ := last.marked i marked.1 marked.2
    exact Nat.lt_irrefl i (older m i v (before m i v ended))
  · rw [last.own]
    cases found : latest key t.log with
    | none => rfl
    | some v =>
      obtain ⟨m,j,after,rest,same,-⟩ := latest_eq_some found
      have ended := before m j v (same ▸ List.mem_append_right _ List.mem_cons_self)
      have replaced := older m j v ended
      rw [leads j (unreplaced m j v ended)] at replaced
      exact absurd replaced (Nat.lt_irrefl i)

/-- In a require an evaluation of a record of the key failed, which left an era. -/
def FailedIn (e : Realm σ Value) (key : String) (c : Call) (s : Era σ Value) (i : Nat) (t : Era σ Value) : Prop :=
  ∃ c' s' x n inner, Inside e c s c' s' ∧ (e.call c').outcome s' = (.error x,t) ∧
    t.log = inner ++ .began n i key :: s'.log

theorem Unreplaced.of_steady (unreplaced : Unreplaced key s) (steady : Steady key s t) : Unreplaced key t := by
  obtain ⟨new,same,-,ended⟩ := steady.log
  intro n i v member
  rw [same] at member
  rcases List.mem_append.mp member with here | there
  · exact ended n i v here
  · exact steady.kept i (unreplaced n i v there)

theorem Bracketed.began {v : Value} (bracketed : Bracketed new) (ended : .ended n i key v ∈ new) : .began n i key ∈ new := by
  obtain ⟨later,earlier,rfl⟩ := List.append_of_mem ended
  obtain ⟨⟨inner,rest,rfl,-⟩,-⟩ := bracketed.suffix
  simp

/-- No body of a module that is marked is run again. -/
theorem Told.not_began (told : Told e key t) (split : t.log = new ++ s.log) (before : Told e key s)
    (marked : e.Marked key s i) (n : Nat) : .began n i key ∉ new := by
  intro member
  obtain ⟨m,v,ended⟩ := before.marked i marked.1 marked.2
  obtain ⟨later,earlier,rfl⟩ := List.append_of_mem member
  have orderly := told.orderly
  rw [split,List.append_assoc] at orderly
  exact Nat.lt_irrefl i (orderly.suffix.1 rfl m i v (List.mem_append_right earlier ended))

theorem latest_append {later earlier : List (Report Value)} (free : ∀ n i v, .ended n i key v ∉ later) :
    latest key (later ++ earlier) = latest key earlier := by
  induction later with
  | nil => rfl
  | cons report later ih =>
    have rest := ih fun n i v member => free n i v (List.mem_cons_of_mem _ member)
    cases report with
    | ended n i k v =>
      have other : k ≠ key := by
        rintro rfl
        exact free n i v List.mem_cons_self
      rw [List.cons_append,latest,if_neg other,rest]
    | _ => exact rest

/-- Of two evaluations of a key that end one after the other, the later one does not begin in between. -/
theorem ended_before_began {later between earlier : List (Report Value)} {m j : Nat} {v w : Value}
    (orderly : Orderly key (later ++ .ended m j key w :: between ++ .ended n i key v :: earlier ++ s.log))
    (bracketed : Bracketed (later ++ .ended m j key w :: between ++ .ended n i key v :: earlier)) : i < j := by
  rw [List.append_assoc] at bracketed
  obtain ⟨⟨inner,rest,same,free⟩,-⟩ := bracketed.suffix
  rcases List.append_eq_append_iff.mp same with ⟨more,rfl,split⟩ | ⟨more,rfl,split⟩
  · cases more with
    | nil => cases split
    | cons report more =>
      cases split
      exact absurd (List.mem_append_right _ List.mem_cons_self) (free n i v)
  · cases more with
    | nil => cases split
    | cons report more =>
      cases split
      have began : Orderly key ((later ++ .ended m j key w :: inner) ++
          .began m j key :: (more ++ .ended n i key v :: earlier ++ s.log)) := by simpa using orderly
      exact began.suffix.1 rfl n i v (by simp)

/-- In one require no two evaluations of a key end, so the exports of one that ends are the latest then. -/
theorem latest_of_ended (told : Told e key t) (split : t.log = new ++ s.log) (bracketed : Bracketed new)
    (leads : ∀ n i v, .ended n i key v ∈ new → t.registry.find? key = some i) {v : Value}
    (ended : .ended n i key v ∈ new) : latest key t.log = some v := by
  have orderly := told.orderly
  rw [split] at orderly
  cases found : latest key t.log with
  | none =>
    have member : .ended n i key v ∈ t.log := split ▸ List.mem_append_left _ ended
    exact absurd member (ended_of_latest found)
  | some w =>
    obtain ⟨m,j,after,before,last,free⟩ := latest_eq_some found
    obtain ⟨later,earlier,rfl⟩ := List.append_of_mem ended
    rw [split,List.append_assoc] at last
    rcases List.append_eq_append_iff.mp last with ⟨more,rfl,rest⟩ | ⟨more,rfl,rest⟩
    · cases more with
      | nil =>
        cases rest
        rfl
      | cons report more =>
        obtain ⟨rfl,-⟩ := List.cons.inj rest
        exact absurd (List.mem_append_right _ List.mem_cons_self) (free n i v)
    · cases more with
      | nil =>
        cases rest
        rfl
      | cons report more =>
        cases rest
        have less : i < j := ended_before_began (s := s) (by simpa using orderly) (by simpa using bracketed)
        have same : j = i := by
          refine Option.some.inj ((leads m j w ?_).symm.trans (leads n i v ended))
          simp
        omega

/-- A require that fails, in a generation whose bodies ask their own `require` and register nothing. The records of the
key that are marked afterwards are those from before and those whose bodies have run to their end, and the table has the
exports of these. Exports of a module from before are unchanged. A module whose evaluation failed, in the require itself
or in one inside it, has neither a mark nor exports then, nor in the end if nothing was evaluated or answered since. And
no body of a module that is marked is ever run again. -/
theorem failed_require {s₀ : Era σ Value} (begins : Begins e s₀) (plain : ∀ w v, e.assigns w key v = none)
    (modest : e.Modest) (quiet : e.Quiet) {before : Code σ Value} (came : e.after depth before s₀ = s)
    (fails : (e.call c).outcome s = (.error x,t)) :
    ∃ new, t.log = new ++ s.log ∧
      (∀ i, e.Marked key t i ↔ e.Marked key s i ∨ ∃ n v, .ended n i key v ∈ new) ∧
      (∀ n i v, .ended n i key v ∈ new → t.exports.lookup key = some v) ∧
      (∀ i, e.Marked key s i → s.registry.find? key = some i → t.exports.lookup key = s.exports.lookup key) ∧
      (∀ i u, FailedIn e key c s i u →
        (¬ e.Marked key u i ∧ (Unreplaced key s → u.exports.lookup key = none)) ∧
        (u.log = t.log → ¬ e.Marked key t i ∧ (Unreplaced key s → t.exports.lookup key = none))) ∧
      ∀ depth later i new', e.Marked key t i → (e.after depth later t).log = new' ++ t.log →
        ∀ n, .began n i key ∉ new' := by
  have told : Told e key s := came ▸ begins.told_after plain depth before
  have last := (told.called plain fails).told
  have steady : Steady key s t := by
    have steady : Steady key s ((e.call c).outcome s).2 := settles_ask modest quiet _ _ _ _ s told.sound
    rwa [fails] at steady
  obtain ⟨new,split,bracketed,leads⟩ := steady.log
  have orderly := last.orderly
  refine ⟨new,split,fun i => ⟨?_,?_⟩,?_,?_,?_,?_⟩
  · rintro ⟨named,marked⟩
    obtain ⟨n,v,ended⟩ := last.marked i named marked
    rw [split] at ended
    rcases List.mem_append.mp ended with here | there
    · exact .inr ⟨n,v,here⟩
    · obtain ⟨-,named,marked,-⟩ := told.ended n i v there
      exact .inl ⟨named,marked⟩
  · intro marked
    have ended : ∃ n v, .ended n i key v ∈ t.log := by
      rcases marked with ⟨named,marked⟩ | ⟨n,v,ended⟩
      · obtain ⟨n,v,ended⟩ := told.marked i named marked
        exact ⟨n,v,split ▸ List.mem_append_right _ ended⟩
      · exact ⟨n,v,split ▸ List.mem_append_left _ ended⟩
    obtain ⟨n,v,ended⟩ := ended
    obtain ⟨-,named,marked,-⟩ := last.ended n i v ended
    exact ⟨named,marked⟩
  · intro n i v ended
    rw [last.own]
    exact latest_of_ended last split bracketed leads ended
  · intro i marked found
    have free : ∀ n j v, .ended n j key v ∉ new := by
      intro n j v ended
      obtain rfl : j = i := Option.some.inj ((leads n j v ended).symm.trans (steady.kept i found))
      exact last.not_began split told marked n (bracketed.began ended)
    rw [last.own,told.own,split,latest_append free]
  · rintro i u ⟨c',s',y,n,inner,inside,failed,began⟩
    have there := inside.told plain told
    have left := unmarked_of_failing modest plain there failed began
    have unreplaced (current : Unreplaced key s) : Unreplaced key s' :=
      current.of_steady (inside.steady modest quiet told.sound)
    refine ⟨⟨left.1,fun current => left.2 (unreplaced current)⟩,fun same => ⟨fun marked => ?_,fun current => ?_⟩⟩
    · obtain ⟨m,v,ended⟩ := last.marked i marked.1 marked.2
      obtain ⟨-,named,marked,-⟩ := (there.called plain failed).told.ended m i v (same ▸ ended)
      exact left.1 ⟨named,marked⟩
    · rw [last.own,← same,← (there.called plain failed).told.own]
      exact left.2 (unreplaced current)
  · intro depth later i new' marked same
    have ends : Told e key (e.after depth later t) := (keeps_play (keeps_ask plain depth) later t last).told
    exact ends.not_began same last marked

end

/-! ### A module that fails -/

/-- A generation in which one body requires `b` and then `c`, the body of `c` fails, and every other one ends with a
number. -/
def faltering : Realm Unit Nat where
  files _ := .none
  check _ _ := .ok ()
  generation := 1
  started := Nat.one_pos
  body program i chain :=
    if program.source = Module.wrap "both" then .requires i chain "b" fun _ => .requires i chain "c" .ends
    else if program.source = Module.wrap "fails" then .ends (.error .overflow)
    else .ends (.ok 5)
  table := 0
  inherits _ _ := none
  assigns _ _ _ := none

/-- It begins with three modules. -/
def falteringStart : Era Unit Nat where
  registry := (((Registry.new ⟨"/"⟩).setModule (.named "b" "")).setModule (.named "c" "fails")).setModule (.named "a" "both")
  world := ()
  exports := []
  begun := 0
  log := []

/-- The require of the first of them by the main script. -/
def falteringCall : Call := ⟨3,1,[],"a"⟩

def falteringEnd : Era Unit Nat := ((faltering.call falteringCall).outcome falteringStart).2

theorem faltering_begins : Begins faltering falteringStart where
  made := .setModule _ (.setModule _ (.setModule _ (.new _)))
  unmarked i := by
    have unmarked : ∀ j < 5, (falteringStart.registry.record j).evaluatedIn = 0 := by decide +kernel
    have zero : (falteringStart.registry.record i).evaluatedIn = 0 := by
      by_cases old : i < 5
      · exact unmarked i old
      · have size : falteringStart.registry.records.size = 5 := by decide +kernel
        rw [Registry.record,Array.getElem?_eq_none (by omega)]
        rfl
    rw [zero]
    exact Nat.zero_ne_one
  exports := rfl
  log := rfl

theorem faltering_modest : faltering.Modest := by
  refine ⟨fun p i chain => ?_,nofun,nofun⟩
  unfold faltering
  simp only
  split
  · exact ⟨rfl,rfl,fun _ => ⟨rfl,rfl,fun _ => trivial⟩⟩
  · split <;> trivial

theorem faltering_quiet : faltering.Quiet := by
  refine ⟨fun p i chain => ?_,nofun,nofun⟩
  unfold faltering
  simp only
  split
  · exact fun _ _ => trivial
  · split <;> trivial

theorem faltering_log : falteringEnd.log =
    [.began 2 3 "c",.answered 2 "b" 5,.ended 1 2 "b" 5,.began 1 2 "b",.began 0 4 "a"] := by decide +kernel

theorem failed_require_of_faltering : Begins faltering falteringStart ∧ faltering.Modest ∧ faltering.Quiet ∧
    (∃ x, (faltering.call falteringCall).outcome falteringStart = (.error x,falteringEnd)) ∧
    faltering.Marked "b" falteringEnd 2 ∧ falteringEnd.exports.lookup "b" = some 5 ∧
    FailedIn faltering "a" falteringCall falteringStart 4 falteringEnd ∧
    ¬ faltering.Marked "a" falteringEnd 4 ∧ falteringEnd.exports.lookup "a" = none := by
  have fails : ∃ x, (faltering.call falteringCall).outcome falteringStart = (.error x,falteringEnd) := by
    have none : ((faltering.call falteringCall).outcome falteringStart).1.toOption = none := by decide +kernel
    rcases called : (faltering.call falteringCall).outcome falteringStart with ⟨x | v,t⟩
    · exact ⟨x,by rw [falteringEnd,called]⟩
    · rw [called] at none
      cases none
  obtain ⟨x,fails⟩ := fails
  have begun : faltering.after 0 (.ends (.ok 0)) falteringStart = falteringStart := rfl
  have nothing : falteringStart.log = [] := rfl
  have aftermath (key : String) :=
    @failed_require _ _ faltering key _ _ _ _ _ _ faltering_begins (fun _ _ => rfl) faltering_modest faltering_quiet _
      begun fails
  have failed : FailedIn faltering "a" falteringCall falteringStart 4 falteringEnd :=
    ⟨_,_,x,0,[.began 2 3 "c",.answered 2 "b" 5,.ended 1 2 "b" 5,.began 1 2 "b"],.self _ _,fails,faltering_log⟩
  obtain ⟨new,split,marks,exports,-⟩ := aftermath "b"
  obtain ⟨-,-,-,-,-,left,-⟩ := aftermath "a"
  have ended : .ended 1 2 "b" 5 ∈ new := by
    rw [nothing,List.append_nil] at split
    rw [← split,faltering_log]
    decide
  obtain ⟨unmarked,unkept⟩ := (left 4 falteringEnd failed).1
  refine ⟨faltering_begins,faltering_modest,faltering_quiet,⟨x,fails⟩,(marks 2).mpr (.inr ⟨1,5,ended⟩),
    exports 1 2 5 ended,failed,unmarked,unkept fun n i v member => ?_⟩
  rw [nothing] at member
  cases member

end ScriptHost.Registry
