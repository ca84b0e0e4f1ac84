import ScriptHost.Proofs.Scheduler.Isolation
import ScriptHost.Proofs.Scheduler.Order
/-!
What a worker begins with. A start puts the first envelope of a generation into the queue before anyone else
knows of the generation, so that it is ahead of all others of the generation. It stays ahead unless a stop
takes it out of the queue: a stop that empties the queue does not look at generations, and it may still be at
that when its own generation has ended and the next one has been opened.
-/
namespace ScriptHost
variable {J : Type}

/-- What a thread can count on is true of where envelopes are. -/
structure Outlook.Tells (x : Outlook) (m : Traffic J) : Prop where
  none : x.ended 0 = true
  newest : ∀ g, x.ended g = false → g = m.generation
  /-- What no party has handed in belongs to a start, which has the lock and has opened its generation. -/
  holds : ∀ who e, m.held who = some e →
    (∃ other, (other,e) ∈ m.calls) ∨ x.holder = some who ∧ x.ended e.generation = false

/-- What threads can count on after a step. -/
structure Outlook.Leads (generation : Nat) (x y : Outlook) : Prop where
  ended : ∀ g ≤ generation, x.ended g = true → y.ended g = true
  /-- One gets to know the newest generation, while nobody has the lock. -/
  told : ∀ g, y.known g → x.known g ∨ x.holder = none ∧ g = generation

theorem Stopping.Step.target {finished : Nat → Bool} {s t : Scheduler J} {p q : Stopping} (step : p.Step finished s q t)
    {g : Nat} (target : q.target? = some g) : p.target? = some g ∨ s.locked = false ∧ g = s.generation := by
  cases step with
  | enter free runs =>
    cases target
    exact .inr ⟨free,rfl⟩
  | _ => first | exact .inl target | cases target

namespace System
variable {σ τ : System J} {first : J} {j : Journal J}

theorem tells (sound : Sound σ) (inPlace : σ.InPlace j) : σ.outlook.Tells (σ.traffic j) := by
  refine ⟨sound.steady.first,sound.steady.newest,fun who e holds => ?_⟩
  obtain ⟨c,called,holds⟩ := Option.bind_eq_some_iff.mp holds
  have place := inPlace who c called
  have fits := sound.calls who c called
  cases c with
  | start p found =>
    cases p with
    | submits p =>
      obtain ⟨locks,-,live,-,newest⟩ := fits
      have own : e.generation = σ.situation.control.generation := (place.2 e holds).trans newest.symm
      exact .inr ⟨locks,own ▸ live⟩
    | _ => cases holds
  | stop p => cases holds
  | submit p => exact .inl (place.2.2 e holds)

theorem handles_setCall (σ : System J) (c : Option (Call J)) (who : Party) :
    (σ.setCall c who).handles = σ.handles := by
  cases who <;> rfl

theorem knows_setCall {g : Nat} {who : Party} {c : Option (Call J)} (knows : (σ.setCall c who).Knows g) :
    σ.Knows g ∨ ∃ p, c = some (.stop p) ∧ p.target? = some g := by
  rcases knows with handle | ⟨other,p,called,target⟩
  · exact .inl (.inl (handles_setCall σ c who ▸ handle))
  · by_cases own : other = who
    · subst own
      exact .inr ⟨p,call_setCall_self called,target⟩
    · exact .inl (.inr ⟨other,p,(call_setCall_other σ c own).symm.trans called,target⟩)

theorem knows_arrive {g : Nat} {who : Party} {s : Scheduler J} {events : List (Event J)}
    (knows : (σ.arrive who s events).Knows g) : σ.Knows g := by
  rcases knows with handle | ⟨other,p,called,target⟩
  · exact .inl handle
  · exact .inr ⟨other,p,call_arrive called,target⟩

theorem knows_place {g h : Nat} {p : Worker J (Option (Call J))} (before : (σ.workers h).call? = none)
    (after : p.call? = none) (knows : Knows { σ with workers := Function.update σ.workers h p } g) : σ.Knows g := by
  rcases knows with handle | ⟨who,q,called,target⟩
  · exact .inl handle
  · exact .inr ⟨who,q,(call_place before after who).symm.trans called,target⟩

theorem knows_step (sound : Sound σ) {a : Action J} (step : Step first σ a τ) {g : Nat} (knows : τ.Knows g) :
    σ.Knows g ∨ σ.holder = none ∧ g = σ.scheduler.generation := by
  have unheld : σ.scheduler.locked = false → σ.holder = none := by
    intro free
    have held : σ.scheduler.locked = σ.holder.isSome := sound.steady.held
    exact Option.isNone_iff_eq_none.mp (by simpa [free] using held)
  cases step with
  | takeHandle free =>
    rcases knows with handle | called
    · rcases List.mem_cons.mp handle with new | old
      · exact .inr ⟨unheld free,new⟩
      · exact .inl (.inl old)
    · exact .inl (.inr called)
  | start free | «return» called past =>
    refine .inl ((knows_setCall knows).resolve_right ?_)
    rintro ⟨p,same,-⟩
    cases same
  | stop free =>
    refine .inl ((knows_setCall knows).resolve_right ?_)
    rintro ⟨p,same,target⟩
    cases same
    cases target
  | submit free taken | failToHandOver called =>
    refine .inl ((knows_setCall (knows_arrive knows)).resolve_right ?_)
    rintro ⟨p,same,-⟩
    cases same
  | @go who made choice c d t events called step =>
    rcases knows_setCall (knows_arrive knows) with knows | ⟨q,same,target⟩
    · exact .inl knows
    · cases same
      cases step with
      | stop step =>
        rcases step.target target with before | ⟨free,newest⟩
        · exact .inl (.inr ⟨who,_,called,before⟩)
        · exact .inr ⟨unheld free,newest⟩
  | handOver called free =>
    have knows := (knows_setCall knows).resolve_right (by rintro ⟨p,same,-⟩; cases same)
    exact .inl ((knows_setCall knows).resolve_right (by rintro ⟨p,same,-⟩; cases same))
  | work step => exact .inl (knows_place step.quiet step.call (knows_arrive knows))
  | finish place => exact .inl (knows_place (by rw [place]; rfl) rfl knows)
  | settle place => exact .inl (knows_place (by rw [place]; rfl) rfl knows)
  | interrupt free => exact .inl knows

/-- What has ended has ended for good. -/
theorem ended_step (before : Orderly σ) (after : Orderly τ) (sound : Sound τ) {a : Action J} (step : Step first σ a τ)
    {g : Nat} (le : g ≤ σ.scheduler.generation) (past : σ.scheduler.isOver g = true) :
    τ.scheduler.isOver g = true := by
  rcases Nat.eq_zero_or_pos g with rfl | some
  · exact sound.steady.first
  · obtain ⟨events,same⟩ := history_step step
    have closed : .closed g ∈ σ.history := (before.recorded.closed g).mpr ⟨some,le,past⟩
    have kept : .closed g ∈ τ.history := same ▸ List.mem_append_right events closed
    exact ((after.recorded.closed g).mp kept).2.2

end System

/-! ### The first envelope of a generation -/

/-- All envelopes are of generations that there have been. -/
structure Dated (x : Outlook) (m : Traffic J) : Prop where
  known : ∀ g, x.known g → g ≤ m.generation
  held : ∀ who e, m.held who = some e → e.generation ≤ m.generation
  entered : ∀ e ∈ m.entered, e.generation ≤ m.generation
  firsts : ∀ f ∈ m.firsts, f.generation ≤ m.generation

/-- Every generation has got one first envelope. -/
structure Founded (first : J) (m : Traffic J) : Prop where
  task : ∀ f ∈ m.firsts, f.task = .job first
  bound : ∀ f ∈ m.firsts, f.serial < m.serial
  apart : ∀ f ∈ m.firsts, ∀ who, (who,f) ∉ m.calls
  covers : ∀ g, 1 ≤ g → g ≤ m.generation → ∃ f ∈ m.firsts, f.generation = g
  one : ∀ f ∈ m.firsts, ∀ f' ∈ m.firsts, f.generation = f'.generation → f = f'

/-- The first envelope of a generation is ahead of all others in the queue. -/
def Ahead (entered : List (Envelope J)) (f : Envelope J) : Prop :=
  f ∈ entered ∧ ∀ e ∈ entered, e.generation = f.generation → e = f ∨ Before entered f e

/-- The start that has made the first envelope of a generation is alone with the generation. -/
structure Pending (x : Outlook) (m : Traffic J) (f : Envelope J) : Prop where
  held : ∃ who, m.held who = some f
  secret : ¬ x.known f.generation
  outside : ∀ e ∈ m.entered, e.generation ≠ f.generation
  alone : ∀ who e, m.held who = some e → e.generation = f.generation → e = f

/-- An envelope of a generation has left the queue without being dropped by a stop or taken by its own worker. -/
def Exit.Strays (g : Nat) : Exit → Prop
  | .taken h => h ≠ g
  | .cleared => True
  | .drained _ => False

/-- An envelope strays only once its generation has ended, and then its worker takes nothing any more. A worker
    begins with all that it takes of its own generation. -/
structure Kept (x : Outlook) (m : Traffic J) : Prop where
  proper : ∀ g e, (.taken g,e) ∈ m.left → g ≠ 0
  stray : ∀ exit e, (exit,e) ∈ m.left → exit.Strays e.generation → x.ended e.generation = true
  line : m.left.Pairwise fun later earlier =>
    later.1 = .taken earlier.2.generation → ¬earlier.1.Strays earlier.2.generation
  begun : ∀ g, ∀ e ∈ takenBy g m.left, e.generation = g → e ∈ m.begun g ∨ m.hand g = some e

section
variable {first : J} {x y : Outlook} {m n : Traffic J}

theorem Dated.step (dated : Dated x m) (leads : x.Leads m.generation y) (step : Traffic.Step first x m n) :
    Dated y n := by
  obtain ⟨known,held,entered,firsts⟩ := dated
  have told : ∀ g, y.known g → g ≤ m.generation := by
    intro g knows
    rcases leads.told g knows with before | ⟨-,newest⟩
    · exact known g before
    · exact Nat.le_of_eq newest
  have drop : ∀ who other e, Function.update m.held who none other = some e → e.generation ≤ m.generation :=
    fun who other e holds => held other e (holds_of_drop holds).2
  cases step with
  | still | take | discard | begin => exact ⟨told,held,entered,firsts⟩
  | submit who e free new is_known =>
    refine ⟨told,fun other f holds => ?_,entered,firsts⟩
    rcases holds_of_update holds with ⟨-,same⟩ | ⟨-,holds⟩
    · cases same
      exact known _ is_known
    · exact held other f holds
  | «open» who e free new next task locks =>
    have le : m.generation ≤ e.generation := by omega
    refine ⟨fun g knows => Nat.le_trans (told g knows) le,fun other f holds => ?_,
      fun f member => Nat.le_trans (entered f member) le,
      List.forall_mem_cons.mpr ⟨Nat.le_refl _,fun f member => Nat.le_trans (firsts f member) le⟩⟩
    rcases holds_of_update holds with ⟨-,same⟩ | ⟨-,holds⟩
    · cases same
      exact Nat.le_refl _
    · exact Nat.le_trans (held other f holds) le
  | drop who lost => exact ⟨told,drop who,entered,firsts⟩
  | enter who e holds =>
    exact ⟨told,drop who,List.forall_mem_cons.mpr ⟨held who e holds,entered⟩,firsts⟩
  | order e new is_known => exact ⟨told,held,List.forall_mem_cons.mpr ⟨known _ is_known,entered⟩,firsts⟩
  | overflow g e holds => exact ⟨told,held,entered,firsts⟩
  | handOver g t e holds full called free =>
    refine ⟨told,fun other f held' => ?_,entered,firsts⟩
    rcases holds_of_update held' with ⟨-,same⟩ | ⟨-,held'⟩
    · cases same
      exact held _ e holds
    · exact drop _ other f held'
  | clear | drain => exact ⟨told,held,entered,firsts⟩

theorem Founded.step (founded : Founded first m) (dated : Dated x m) (ordered : m.Ordered)
    (step : Traffic.Step first x m n) : Founded first n := by
  obtain ⟨task,bound,apart,covers,one⟩ := founded
  have later : ∀ f ∈ m.firsts, f.serial < m.serial+1 := fun f member => Nat.lt_succ_of_lt (bound f member)
  cases step with
  | submit who e free new told =>
    refine ⟨task,later,fun f member other called => ?_,covers,one⟩
    rcases List.mem_cons.mp called with same | called
    · cases same
      have less := bound e member
      omega
    · exact apart f member other called
  | «open» who e free new next job locks =>
    have newer : e.serial < m.serial+1 := by omega
    refine ⟨List.forall_mem_cons.mpr ⟨job,task⟩,List.forall_mem_cons.mpr ⟨newer,later⟩,
      List.forall_mem_cons.mpr ⟨fun other called => ?_,apart⟩,fun g some le => ?_,?_⟩
    · have less := ordered.inTurn.bound other e called
      omega
    · rcases Nat.eq_or_lt_of_le le with newest | older
      · exact ⟨e,List.mem_cons_self,newest.symm⟩
      · have older : g < e.generation := older
        obtain ⟨f,member,own⟩ := covers g some (by omega)
        exact ⟨f,List.mem_cons_of_mem e member,own⟩
    · have apart : ∀ f ∈ m.firsts, f.generation ≠ e.generation := by
        intro f member same
        have le := dated.firsts f member
        omega
      intro f member f' member' same
      rcases List.mem_cons.mp member with own | old <;> rcases List.mem_cons.mp member' with own' | old'
      · exact own.trans own'.symm
      · exact absurd (same.symm.trans (congrArg Envelope.generation own)) (apart f' old')
      · exact absurd (same.trans (congrArg Envelope.generation own')) (apart f old)
      · exact one f old f' old' same
  | order e new told => exact ⟨task,later,apart,covers,one⟩
  | _ => exact ⟨task,bound,apart,covers,one⟩

theorem Ahead.cons {entered : List (Envelope J)} {f : Envelope J} (ahead : Ahead entered f) (e : Envelope J) :
    Ahead (e :: entered) f := by
  refine ⟨List.mem_cons_of_mem e ahead.1,fun a member same => ?_⟩
  rcases List.mem_cons.mp member with new | old
  · exact .inr (before_cons.mpr (.inr ⟨new,ahead.1⟩))
  · exact (ahead.2 a old same).imp_right fun before => before_cons.mpr (.inl before)

theorem Ahead.step {f : Envelope J} (ahead : Ahead m.entered f) (step : Traffic.Step first x m n) :
    Ahead n.entered f := by
  cases step with
  | enter who e holds => exact ahead.cons e
  | order e new told => exact ahead.cons e
  | _ => exact ahead

theorem Pending.step {f : Envelope J} (pending : Pending x m f) (member : f ∈ m.firsts) (founded : Founded first m)
    (ordered : m.Ordered) (tells : x.Tells m) (leads : x.Leads m.generation y) (step : Traffic.Step first x m n) :
    Ahead n.entered f ∨ Pending y n f := by
  obtain ⟨⟨who,holds⟩,secret,outside,alone⟩ := pending
  have uncalled : ∀ other, (other,f) ∉ m.calls := founded.apart f member
  obtain ⟨locks,live⟩ : x.holder = some who ∧ x.ended f.generation = false := by
    rcases tells.holds who f holds with ⟨other,called⟩ | own
    · exact absurd called (uncalled other)
    · exact own
  have secret' : ¬y.known f.generation := by
    intro knows
    rcases leads.told _ knows with before | ⟨unheld,-⟩
    · exact secret before
    · cases locks.symm.trans unheld
  have stranger : ∀ e : Envelope J, x.known e.generation → e.generation ≠ f.generation :=
    fun e told same => secret (same ▸ told)
  cases step with
  | submit w e free new told =>
    have apart : who ≠ w := by
      rintro rfl
      cases holds.symm.trans free
    refine .inr ⟨⟨who,(Function.update_of_ne apart _ _).trans holds⟩,secret',outside,fun other a held same => ?_⟩
    rcases holds_of_update held with ⟨-,own⟩ | ⟨-,held⟩
    · cases own
      exact absurd same (stranger e told)
    · exact alone other a held same
  | «open» w e free new next task locks' =>
    cases locks.symm.trans locks'
    cases holds.symm.trans free
  | drop w lost =>
    have apart : who ≠ w := by
      rintro rfl
      rcases lost f holds with past | ⟨other,called⟩
      · cases live.symm.trans past
      · exact uncalled other called
    exact .inr ⟨⟨who,(Function.update_of_ne apart _ _).trans holds⟩,secret',outside,
      fun other a held => alone other a (holds_of_drop held).2⟩
  | enter w e holds' =>
    by_cases own : who = w
    · subst own
      cases holds.symm.trans holds'
      refine .inl ⟨List.mem_cons_self,fun a entered same => ?_⟩
      rcases List.mem_cons.mp entered with new | old
      · exact .inl new
      · exact absurd same (outside a old)
    · have apart : e.generation ≠ f.generation := by
        intro same
        have equal := alone w e holds' same
        exact own (ordered.single.one who w f e holds holds' (congrArg Envelope.serial equal.symm))
      exact .inr ⟨⟨who,(Function.update_of_ne own _ _).trans holds⟩,secret',
        List.forall_mem_cons.mpr ⟨apart,outside⟩,fun other a held => alone other a (holds_of_drop held).2⟩
  | order e new told =>
    exact .inr ⟨⟨who,holds⟩,secret',List.forall_mem_cons.mpr ⟨stranger e told,outside⟩,alone⟩
  | handOver g t e holds' full called free =>
    have other : who ≠ .worker g := by
      rintro rfl
      cases holds.symm.trans holds'
      obtain ⟨other,called⟩ := called
      exact uncalled other called
    have apart : who ≠ .thread t := by
      rintro rfl
      cases holds.symm.trans free
    have holds := (Function.update_of_ne other none m.held).trans holds
    refine .inr ⟨⟨who,(Function.update_of_ne apart _ _).trans holds⟩,secret',outside,fun party a held same => ?_⟩
    rcases holds_of_update held with ⟨-,own⟩ | ⟨-,held⟩
    · cases own
      exact alone _ e holds' same
    · exact alone party a (holds_of_drop held).2 same
  | _ => exact .inr ⟨⟨who,holds⟩,secret',outside,alone⟩

theorem Kept.step (kept : Kept x m) (dated : Dated x m) (ordered : m.Ordered) (tells : x.Tells m)
    (leads : x.Leads m.generation y) (step : Traffic.Step first x m n) : Kept y n := by
  obtain ⟨proper,stray,line,begun⟩ := kept
  have entered : ∀ e, e ∈ m.queue ∨ (∃ exit, (exit,e) ∈ m.left) → e.generation ≤ m.generation := by
    intro e place
    refine dated.entered e ?_
    rw [ordered.flows.line,List.mem_append,List.mem_reverse]
    exact place.imp_right fun ⟨exit,member⟩ => List.mem_map.mpr ⟨_,member,rfl⟩
  have stray' : ∀ exit e, (exit,e) ∈ m.left → exit.Strays e.generation → y.ended e.generation = true :=
    fun exit e member strays => leads.ended _ (entered e (.inr ⟨exit,member⟩)) (stray exit e member strays)
  cases step with
  | clear e rest queue past =>
    have le := entered e (.inl (queue ▸ List.mem_cons_self))
    refine ⟨fun g f member => ?_,fun exit f member strays => ?_,List.pairwise_cons.mpr ⟨nofun,line⟩,fun g => ?_⟩
    · exact proper g f ((List.mem_cons.mp member).resolve_left nofun)
    · rcases List.mem_cons.mp member with new | old
      · cases new
        exact leads.ended _ le (past _)
      · exact stray' exit f old strays
    · rw [takenBy_cons,if_neg nofun]
      exact begun g
  | drain h e rest queue =>
    refine ⟨fun g f member => ?_,fun exit f member strays => ?_,List.pairwise_cons.mpr ⟨nofun,line⟩,fun g => ?_⟩
    · exact proper g f ((List.mem_cons.mp member).resolve_left nofun)
    · rcases List.mem_cons.mp member with new | old
      · cases new
        cases strays
      · exact stray' exit f old strays
    · rw [takenBy_cons,if_neg nofun]
      exact begun g
  | take g e rest queue free live =>
    have le := entered e (.inl (queue ▸ List.mem_cons_self))
    have newest := tells.newest g live
    refine ⟨fun h f member => ?_,fun exit f member strays => ?_,List.pairwise_cons.mpr ⟨?_,line⟩,fun h f member own => ?_⟩
    · rcases List.mem_cons.mp member with new | old
      · cases new
        rintro rfl
        cases live.symm.trans tells.none
      · exact proper h f old
    · rcases List.mem_cons.mp member with new | old
      · cases new
        refine leads.ended _ le ?_
        by_contra open_
        exact strays (newest.trans (tells.newest _ (Bool.eq_false_iff.mpr open_)).symm)
      · exact stray' exit f old strays
    · rintro ⟨exit,f⟩ member same strays
      cases same
      cases live.symm.trans (stray exit f member strays)
    · rw [takenBy_cons] at member
      by_cases same : h = g
      · subst same
        rw [if_pos rfl] at member
        rcases List.mem_cons.mp member with rfl | old
        · exact .inr (Function.update_self ..)
        · exact (begun h f old own).imp_right fun hand => by cases hand.symm.trans free
      · have other : Exit.taken g ≠ .taken h := fun equal => same (Exit.taken.inj equal).symm
        rw [if_neg other] at member
        exact (begun h f member own).imp_right (Function.update_of_ne same _ _).trans
  | discard g e hand stale =>
    refine ⟨proper,stray',line,fun h f member own => ?_⟩
    rcases begun h f member own with began | holds
    · exact .inl began
    · have apart : h ≠ g := by
        rintro rfl
        cases hand.symm.trans holds
        exact stale own
      exact .inr ((Function.update_of_ne apart _ _).trans holds)
  | begin g e hand own =>
    refine ⟨proper,stray',line,fun h f member same => ?_⟩
    by_cases equal : h = g
    · subst equal
      refine .inl ?_
      show f ∈ Function.update m.begun h (e :: m.begun h) h
      rw [Function.update_self]
      rcases begun h f member same with began | holds
      · exact List.mem_cons_of_mem e began
      · cases hand.symm.trans holds
        exact List.mem_cons_self
    · show f ∈ Function.update m.begun g (e :: m.begun g) h ∨ Function.update m.hand g none h = some f
      rw [Function.update_of_ne equal,Function.update_of_ne equal]
      exact begun h f member same
  | _ => exact ⟨proper,stray',line,begun⟩

/-- What is true at any time of the first envelopes of generations. -/
structure Begins (first : J) (x : Outlook) (m : Traffic J) : Prop where
  dated : Dated x m
  founded : Founded first m
  entry : ∀ f ∈ m.firsts, Ahead m.entered f ∨ Pending x m f
  kept : Kept x m

theorem Begins.step (begins : Begins first x m) (ordered : m.Ordered) (tells : x.Tells m)
    (leads : x.Leads m.generation y) (step : Traffic.Step first x m n) : Begins first y n := by
  obtain ⟨dated,founded,entry,kept⟩ := begins
  have old : ∀ f ∈ m.firsts, Ahead n.entered f ∨ Pending y n f := by
    intro f member
    rcases entry f member with ahead | pending
    · exact .inl (ahead.step step)
    · exact pending.step member founded ordered tells leads step
  refine ⟨dated.step leads step,founded.step dated ordered step,?_,kept.step dated ordered tells leads step⟩
  cases step with
  | «open» who e free new next task locks =>
    refine List.forall_mem_cons.mpr ⟨.inr ⟨⟨who,Function.update_self ..⟩,fun knows => ?_,fun f entered same => ?_,
      fun other f held same => ?_⟩,old⟩
    · have le : e.generation ≤ m.generation := by
        rcases leads.told _ knows with before | ⟨-,newest⟩
        · exact dated.known _ before
        · exact Nat.le_of_eq newest
      omega
    · have le := dated.entered f entered
      omega
    · rcases holds_of_update held with ⟨-,own⟩ | ⟨-,held⟩
      · exact (Option.some.inj own).symm
      · have le := dated.held other f held
        omega
  | _ => exact old

end

theorem Journaled.begins {first : J} {capacity : Nat} {j : Journal J} {σ : System J}
    (journaled : Journaled first capacity j σ) : Begins first σ.outlook (σ.traffic j) := by
  induction journaled with
  | init =>
    refine ⟨⟨?_,fun who e holds => ?_,nofun,nofun⟩,⟨nofun,nofun,nofun,fun g some le => ?_,nofun⟩,nofun,
      ⟨nofun,nofun,.nil,nofun⟩⟩
    · rintro g (handle | ⟨who,p,called,-⟩)
      · cases handle
      · cases who <;> cases called
    · cases who <;> cases holds
    · have le : g ≤ 0 := le
      omega
  | @act j σ τ a before taken begins =>
    have step := System.step_of_act taken
    have after := System.Reachable.act a before.reachable taken
    have sound := System.sound_of_reachable before.reachable
    have leads : σ.outlook.Leads σ.scheduler.generation τ.outlook :=
      ⟨fun g le past => System.ended_step (System.orderly_of_reachable before.reachable)
          (System.orderly_of_reachable after) (System.sound_of_reachable after) step le past,
        fun g knows => System.knows_step sound step knows⟩
    exact begins.step before.ordered (System.tells sound before.inPlace) leads
      (System.traffic_step sound before.inPlace step)

/-! ### What comes first -/

/-- An entry that comes before one of the older entries is one of the older entries. -/
theorem Before.of_append {α : Type} {newer older : List α} {a b : α} (before : Before (newer ++ older) a b)
    (nodup : (newer ++ older).Nodup) (member : b ∈ older) : Before older a b := by
  induction newer with
  | nil => exact before
  | cons x rest ih =>
    obtain ⟨fresh,nodup⟩ := List.nodup_cons.mp nodup
    rcases before_cons.mp before with before | ⟨rfl,-⟩
    · exact ih before nodup
    · exact absurd (List.mem_append_right rest member) fresh

theorem mem_takenBy {left : List (Exit × Envelope J)} {g : Nat} {e : Envelope J} :
    e ∈ takenBy g left ↔ (.taken g,e) ∈ left := by
  induction left with
  | nil => simp [takenBy]
  | cons exit rest ih =>
    obtain ⟨x,f⟩ := exit
    rw [takenBy_cons]
    by_cases own : x = .taken g
    · simp [own,ih]
    · simp [own,Ne.symm own,ih]

namespace Traffic.Ordered
variable {m : Traffic J} {e f : Envelope J} {g : Nat}

theorem left_nodup (ordered : m.Ordered) : (m.left.map Prod.snd).Nodup :=
  (ordered.single.nodup.of_map _).sublist (ordered.flows.line ▸ List.sublist_append_right _ _)

/-- An envelope leaves the queue once. -/
theorem exit_unique (ordered : m.Ordered) {x y : Exit} (one : (x,e) ∈ m.left) (other : (y,e) ∈ m.left) : x = y :=
  congrArg Prod.fst (List.inj_on_of_nodup_map ordered.left_nodup one other rfl)

theorem taken_of_begun (ordered : m.Ordered) (began : e ∈ m.begun g) : (.taken g,e) ∈ m.left := by
  obtain ⟨past,taken,sub⟩ := ordered.flows.hands g
  refine mem_takenBy.mp ?_
  rw [taken]
  exact List.mem_append_right _ (sub.subset began)

/-- What came before an envelope that a worker has begun with left the queue before it. -/
theorem left_before (ordered : m.Ordered) (began : e ∈ m.begun g) (before : Before m.entered f e) :
    ∃ x, Before m.left (x,f) (.taken g,e) := by
  have taken := ordered.taken_of_begun began
  have nodup := ordered.single.nodup.of_map _
  rw [ordered.flows.line] at before nodup
  have before := before.of_append nodup (List.mem_map_of_mem taken)
  obtain ⟨pairs,sub,same⟩ := List.sublist_map_iff.mp before
  match pairs, same with
  | [(y,_),(x,_)], rfl =>
    have own : y = .taken g := ordered.exit_unique (sub.subset List.mem_cons_self) taken
    exact ⟨x,own ▸ sub⟩

end Traffic.Ordered

/-- What entered the queue before an envelope that a worker has begun with was begun with before it, if it is for
    the same generation and no stop has taken it out of the queue. -/
theorem Begins.begun_before {first : J} {x : Outlook} {m : Traffic J} {e f : Envelope J} (begins : Begins first x m)
    (ordered : m.Ordered) (ahead : Before m.entered f e) (began : e ∈ m.begun f.generation) (other : e ≠ f)
    (own : e.generation = f.generation) (kept : ∀ h, (.drained h,f) ∉ m.left) :
    Before (m.begun f.generation) f e := by
  obtain ⟨y,left⟩ := ordered.left_before began ahead
  have taken : y = .taken f.generation := by
    have stays : ¬y.Strays f.generation := by
      have pair := begins.kept.line.sublist left
      exact (List.pairwise_cons.mp pair).1 (y,f) List.mem_cons_self (own ▸ rfl)
    cases y with
    | taken h => exact congrArg Exit.taken (not_not.mp stays)
    | cleared => exact absurd trivial stays
    | drained h => exact absurd left.mem.1 (kept h)
  subst taken
  have order : Before (takenBy f.generation m.left) f e := by
    have picked := left.filterMap fun exit => if exit.1 = .taken f.generation then some exit.2 else none
    simpa [Before,takenBy] using picked
  have nodup : (takenBy f.generation m.left).Nodup := ordered.left_nodup.sublist (takenBy_sublist _ _)
  obtain ⟨past,split,sub⟩ := ordered.flows.hands f.generation
  have first_began : f ∈ m.begun f.generation := by
    refine (begins.kept.begun _ f order.mem.1 rfl).resolve_right fun hand => ?_
    rw [split,hand] at order nodup
    obtain ⟨fresh,-⟩ := List.nodup_cons.mp nodup
    rcases before_cons.mp order with before | ⟨same,-⟩
    · exact fresh before.mem.1
    · exact other same
  exact order.of_sublist (split ▸ sub.trans (List.sublist_append_right _ past)) nodup first_began began

/-- A worker begins with the first envelope of its generation before all others, unless a stop takes it out of
    the queue. -/
theorem Begins.before {first : J} {x : Outlook} {m : Traffic J} {e f : Envelope J} (begins : Begins first x m)
    (ordered : m.Ordered) (member : f ∈ m.firsts) (own : e.generation = f.generation)
    (began : e ∈ m.begun f.generation) (other : e ≠ f) (kept : ∀ h, (.drained h,f) ∉ m.left) :
    Before (m.begun f.generation) f e := by
  have sub := ordered.flows.sublist f.generation
  have ahead : Before m.entered f e := by
    rcases begins.entry f member with ahead | pending
    · exact (ahead.2 e (sub.subset began) own).resolve_left other
    · exact absurd own (pending.outside e (sub.subset began))
  exact begins.begun_before ordered ahead began other own kept

/-- What is for a generation that goes on is in the queue, in the hands of the worker or was begun with once it has
    entered the queue, unless a stop has taken it out. -/
theorem Begins.begun_of_entered {first : J} {x : Outlook} {m : Traffic J} {e : Envelope J} (begins : Begins first x m)
    (ordered : m.Ordered) (live : x.ended e.generation = false) (member : e ∈ m.entered)
    (kept : ∀ h, (.drained h,e) ∉ m.left) :
    e ∈ m.queue ∨ m.hand e.generation = some e ∨ e ∈ m.begun e.generation := by
  rw [ordered.flows.line] at member
  rcases List.mem_append.mp member with waits | left
  · exact .inl (List.mem_reverse.mp waits)
  · obtain ⟨⟨exit,f⟩,gone,same⟩ := List.mem_map.mp left
    cases same
    have stays : ¬exit.Strays f.generation := fun strays => by
      cases live.symm.trans (begins.kept.stray exit f gone strays)
    cases exit with
    | cleared => exact absurd trivial stays
    | drained h => exact absurd gone (kept h)
    | taken h =>
      have same : h = f.generation := not_not.mp stays
      subst same
      exact .inr (begins.kept.begun _ f (mem_takenBy.mpr gone) rfl).symm

namespace System

/-- What a worker begins with is the first envelope of its generation just if no stop has taken that out of the
    queue, and otherwise the worker never begins with it. -/
theorem begins_with_first_iff {first : J} {capacity : Nat} {j : Journal J} {σ : System J}
    (journaled : Journaled first capacity j σ) {later earlier : List (Event J)} {g : Nat} {e : Envelope J}
    (began : σ.history = later ++ .began g e :: earlier) (start : ∀ f, .began g f ∉ earlier) :
    ∃ f ∈ j.firsts, f.generation = g ∧ f.task = .job first ∧ (∀ f' ∈ j.firsts, f'.generation = g → f' = f) ∧
      (e = f ↔ ∀ h, (.drained h,f) ∉ j.left) ∧ (e ≠ f → ∀ w, .began w f ∉ σ.history) := by
  have begins := journaled.begins
  have ordered := journaled.ordered
  have member : e ∈ begun g σ.history := mem_begun.mpr (began ▸ by simp)
  have own : e.generation = g := by
    obtain ⟨-,-,-,allowed,-⟩ := (orderly_of_reachable journaled.reachable).recorded.lawful.of_mem (mem_begun.mp member)
    exact allowed
  have oldest : begun g σ.history = begun g later ++ [e] := by
    have none : begun g earlier = [] := List.eq_nil_iff_forall_not_mem.mpr fun f old => start f (mem_begun.mp old)
    rw [began,begun,List.filterMap_append,List.filterMap_cons_some (by simp [Event.begun?] : Event.begun? g (.began g e) = some e)]
    exact congrArg (begun g later ++ e :: ·) none
  have entered : e ∈ entered σ.history := (ordered.flows.sublist g).subset member
  obtain ⟨f,first,generation⟩ : ∃ f ∈ j.firsts, f.generation = g := by
    have some : g ≠ 0 := begins.kept.proper g e (ordered.taken_of_begun member)
    exact begins.founded.covers g (by omega) (own ▸ begins.dated.entered e entered)
  have lost : ∀ h, (.drained h,f) ∈ j.left → ∀ w, .began w f ∉ σ.history := by
    intro h drained w began
    cases ordered.exit_unique drained (ordered.taken_of_begun (mem_begun.mpr began))
  have drained_of_other : e ≠ f → ∃ h, (.drained h,f) ∈ j.left := by
    intro other
    by_contra kept
    have before : Before (begun f.generation σ.history) f e :=
      begins.before ordered first (own.trans generation.symm) (generation ▸ member) other fun h drained => kept ⟨h,drained⟩
    have nodup : (begun g σ.history).Nodup := (ordered.flows.sublist g).nodup (ordered.single.nodup.of_map _)
    rw [generation,oldest] at before
    rw [oldest] at nodup
    have last := (before.of_append nodup List.mem_cons_self).length_le
    simp at last
  refine ⟨f,first,generation,begins.founded.task f first,fun f' member' same =>
    begins.founded.one f' member' f first (same.trans generation.symm),⟨?_,?_⟩,fun other => ?_⟩
  · rintro rfl h drained
    exact lost h drained g (mem_begun.mp member)
  · intro kept
    by_contra other
    obtain ⟨h,drained⟩ := drained_of_other other
    exact kept h drained
  · obtain ⟨h,drained⟩ := drained_of_other other
    exact lost h drained

/-- A thread starts the scheduler, and a stop of it waits for too long: it is about to empty the queue when the
    worker does its task and ends the generation. The scheduler is started again and the stop takes the first
    envelope of the new generation out of the queue, so that the new worker begins with the next job. -/
def draining : List (Action Bool) :=
  List.flatten [
    [.start (.thread 0)],List.replicate 8 (.go (.thread 0) (.ok ()) 0),[.return (.thread 0)],
    List.replicate 6 (.work 1 0),[.finish 1 false,.work 1 0,.settle 1],
    [.stop 1],List.replicate 4 (.go (.thread 1) (.ok ()) 0),
    List.replicate 9 (.work 1 0),[.settle 1,.work 1 0],
    [.start (.thread 0)],List.replicate 8 (.go (.thread 0) (.ok ()) 0),[.return (.thread 0)],
    [.go (.thread 1) (.ok ()) 0,.takeHandle,.submit (.thread 2) 2 false],
    List.replicate 3 (.go (.thread 2) (.ok ()) 0),List.replicate 6 (.work 2 0)]

theorem draining_facts : ∃ j σ earlier, (init 2).trace true {} draining = some (j,σ) ∧
    σ.history = .began 2 ⟨3,2,.job false⟩ :: earlier ∧ ∀ f, .began 2 f ∉ earlier := by
  have facts : ((init 2).trace true {} draining).map (fun (_,σ) => (σ.history.head?,begun 2 σ.history.tail)) =
    some (some (.began 2 ⟨3,2,.job false⟩),[]) := rfl
  obtain ⟨⟨j,σ⟩,ran,values⟩ := Option.map_eq_some_iff.mp facts
  simp only [Prod.mk.injEq] at values
  obtain ⟨head,rest⟩ := values
  obtain ⟨earlier,split⟩ := List.head?_eq_some_iff.mp head
  refine ⟨j,σ,earlier,ran,split,fun f began => ?_⟩
  rw [split,List.tail_cons] at rest
  exact List.not_mem_nil (rest ▸ mem_begun.mpr began)

theorem begins_with_first_draining : ∃ j σ earlier, ∃ f ∈ j.firsts,
    (init 2).trace true {} draining = some (j,σ) ∧ σ.history = [] ++ .began 2 ⟨3,2,.job false⟩ :: earlier ∧
    (∀ f, .began 2 f ∉ earlier) ∧ f.generation = 2 ∧ f.task = .job true ∧
    (∀ f' ∈ j.firsts, f'.generation = 2 → f' = f) ∧
    (⟨3,2,.job false⟩ = f ↔ ∀ h, (.drained h,f) ∉ j.left) ∧ (⟨3,2,.job false⟩ ≠ f → ∀ w, .began w f ∉ σ.history) := by
  obtain ⟨j,σ,earlier,ran,latest,start⟩ := draining_facts
  have split : σ.history = [] ++ .began 2 ⟨3,2,.job false⟩ :: earlier := latest
  obtain ⟨f,first,facts⟩ := begins_with_first_iff (Journaled.init.trace draining ran) split start
  exact ⟨j,σ,earlier,f,first,ran,split,start,facts⟩

/-- The worker of generation 2 begins with a job that is not the first one of its generation. -/
theorem worker_begins_with_later_job : ∃ σ : System Bool, Reachable true 2 σ ∧ ∃ earlier,
    σ.history = .began 2 ⟨3,2,.job false⟩ :: earlier ∧ ∀ f, .began 2 f ∉ earlier := by
  obtain ⟨j,σ,earlier,ran,split,start⟩ := draining_facts
  exact ⟨σ,(Journaled.init.trace draining ran).reachable,earlier,split,start⟩

end System

end ScriptHost
