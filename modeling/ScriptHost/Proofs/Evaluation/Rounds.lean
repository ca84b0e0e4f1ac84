import ScriptHost.Proofs.Evaluation.Ending
import ScriptHost.Proofs.Evaluation.Loading
/-!
Scripts that are run one after another, each to its outcome, while everything else goes on. The one who runs them is a
further thread around evaluations: it has a script compiled and its evaluation made, hands the program in, starts the
follower, and waits until it is told the outcome. Between any two of its steps all other threads may take any of theirs.
-/
namespace ScriptHost

namespace Desk
variable {τ : Type} {d t u : Desk τ} {i : Nat} {r : Except Failure Json}

/-- An outcome that was announced. -/
def Tells (d : Desk τ) (i : Nat) (r : Except Failure Json) : Prop :=
  ∃ e, d.evaluations[i]? = some e ∧ e.outcome.slot = some r ∧ e.outcome.ready = true

theorem Tells.wait (tells : d.Tells i r) : (d.evaluation i).outcome.wait? = some r := by
  obtain ⟨e,found,full,ready⟩ := tells
  rw [evaluation_eq found,Completion.wait_of_slot full,if_pos ready]

/-- Outcomes stay as they are. -/
def Keeps (d t : Desk τ) : Prop := ∀ (i : Nat) (e : Evaluation), d.evaluations[i]? = some e → ∃ f, t.evaluations[i]? = some f ∧
  (∀ r, e.outcome.slot = some r → f.outcome.slot = some r) ∧ (e.outcome.ready = true → f.outcome.ready = true)

theorem Tells.keeps (tells : d.Tells i r) (keeps : d.Keeps t) : t.Tells i r := by
  obtain ⟨e,found,full,ready⟩ := tells
  obtain ⟨f,found',slot,ready'⟩ := keeps i e found
  exact ⟨f,found',slot r full,ready' ready⟩

theorem Keeps.refl (d : Desk τ) : d.Keeps d := fun _ e found => ⟨e,found,fun _ => id,id⟩

theorem keeps_push (d : Desk τ) (e : Evaluation) : d.Keeps { d with evaluations := d.evaluations.push e } := by
  intro i f found
  refine ⟨f,?_,fun _ => id,id⟩
  have inside : i < d.evaluations.size := (Array.getElem?_eq_some_iff.mp found).1
  rw [Array.getElem?_push,if_neg (Nat.ne_of_lt inside)]
  exact found

/-- One outcome is changed, if at all. -/
theorem keeps_change {f : Evaluation → Evaluation}
    (here : ∀ e, d.evaluations[i]? = some e → (∀ r, e.outcome.slot = some r → (f e).outcome.slot = some r) ∧
      (e.outcome.ready = true → (f e).outcome.ready = true)) : d.Keeps (d.change i f) := by
  intro j e found
  rw [change_get]
  split
  · next same =>
    subst same
    exact ⟨f e,by rw [found]; rfl,here e found⟩
  · exact ⟨e,found,fun _ => id,id⟩

theorem keeps_offerOutcome (d : Desk τ) (i : Nat) (o : Except Failure Json) : d.Keeps (d.offerOutcome i o).2 := by
  unfold offerOutcome
  refine keeps_change fun e found => ?_
  rw [evaluation_eq found]
  unfold Completion.offer
  split
  · next empty => exact ⟨fun r full => (Option.some_ne_none r (full.symm.trans empty)).elim,id⟩
  · exact ⟨fun _ => id,id⟩

end Desk

/-- A step of a follower keeps outcomes. -/
theorem Poller.keeps_next {τ : Type} {underway : Nat → Bool} {backoff : Backoff} {stateName : String} {i : Nat}
    {v w : View τ} {p q : Poller (Job (Desk τ))} (member : (q,w) ∈ p.next underway backoff stateName i v) :
    v.desk.Keeps w.desk := by
  have still {r : Poller (Job (Desk τ))} {s : Scheduler (Job (Desk τ))}
      (member : (q,w) ∈ [(r,{ v with scheduler := s })]) : v.desk.Keeps w.desk := by
    cases List.mem_singleton.mp member
    exact .refl _
  cases p with
  | awaitsScript =>
    simp only [next] at member
    split at member
    · cases List.mem_singleton.mp member
      exact Desk.keeps_change fun e _ => ⟨fun _ => id,id⟩
    · split at member
      · cases member
      · cases List.mem_singleton.mp member
        exact Desk.keeps_offerOutcome _ _ _
      · exact still member
  | awaitsCancelled =>
    simp only [next] at member
    split at member
    · cases member
    · exact still member
  | submits serial p value delay =>
    simp only [next] at member
    split at member
    · exact still member
    · exact still member
    · obtain ⟨⟨p',s⟩,-,same⟩ := List.mem_map.mp member
      cases same
      exact .refl _
  | awaitsJob serial value delay =>
    simp only [next] at member
    split at member
    · exact still member
    · cases member
  | turns value delay => exact still member
  | pauses value delay =>
    simp only [next,List.mem_append] at member
    rcases member with member | member
    · split at member
      · exact still member
      · cases member
    · split at member
      · cases List.mem_singleton.mp member
        exact Desk.keeps_offerOutcome _ _ _
      · cases member
  | announces value =>
    cases List.mem_singleton.mp member
    exact Desk.keeps_change fun e _ => ⟨fun _ => id,fun _ => rfl⟩
  | cleans value => exact still member
  | submitsCleaning p =>
    simp only [next] at member
    split at member
    · exact still member
    · obtain ⟨⟨p',s⟩,-,same⟩ := List.mem_map.mp member
      cases same
      exact .refl _
  | gone => cases member

namespace Scene
variable {τ α : Type} {s t : Scene τ α} {first : Work τ} {backoff : Backoff}

/-- A move keeps outcomes. -/
theorem keeps_act {m : Move τ α} (taken : s.act first backoff m = some t) : s.desk.Keeps t.desk := by
  cases m with
  | system a =>
    obtain ⟨system,-,rfl⟩ := Option.map_eq_some_iff.mp taken
    exact .refl _
  | create handle =>
    simp only [act] at taken
    split at taken
    · cases taken
      exact .refl _
    · cases taken
  | evaluate handle =>
    simp only [act] at taken
    split at taken
    · cases taken
      exact Desk.keeps_push _ _
    · cases taken
  | follow i stateName =>
    simp only [act] at taken
    split at taken
    · cases taken
      exact .refl _
    · cases taken
  | cancel i =>
    obtain ⟨e,found,rfl⟩ := Option.map_eq_some_iff.mp taken
    refine Desk.keeps_change fun f found' => ?_
    cases found.symm.trans found'
    exact ⟨fun _ => id,id⟩
  | cancelOther k =>
    obtain ⟨gc,-,rfl⟩ := Option.map_eq_some_iff.mp taken
    exact .refl _
  | watchScript i choice =>
    obtain ⟨e,-,taken⟩ := Option.bind_eq_some_iff.mp taken
    obtain ⟨c,-,rfl⟩ := Option.map_eq_some_iff.mp taken
    exact Desk.keeps_change fun f _ => ⟨fun _ => id,id⟩
  | watchOutcome i choice =>
    obtain ⟨e,found,taken⟩ := Option.bind_eq_some_iff.mp taken
    obtain ⟨c,chosen,rfl⟩ := Option.map_eq_some_iff.mp taken
    have next := List.mem_of_getElem? chosen
    refine Desk.keeps_change fun f found' => ?_
    cases found.symm.trans found'
    exact ⟨fun r => Completion.slot_watchNext_of_slot next,Completion.ready_watchNext next⟩
  | watchOther k choice =>
    obtain ⟨gc,-,taken⟩ := Option.bind_eq_some_iff.mp taken
    obtain ⟨c,-,rfl⟩ := Option.map_eq_some_iff.mp taken
    exact .refl _
  | poll i choice =>
    obtain ⟨⟨stateName,p⟩,-,taken⟩ := Option.bind_eq_some_iff.mp taken
    obtain ⟨⟨q,v⟩,chosen,rfl⟩ := Option.map_eq_some_iff.mp taken
    exact Poller.keeps_next (List.mem_of_getElem? chosen)
  | pollLate i =>
    obtain ⟨⟨stateName,p⟩,-,taken⟩ := Option.bind_eq_some_iff.mp taken
    obtain ⟨⟨q,v⟩,late,rfl⟩ := Option.map_eq_some_iff.mp taken
    cases p with
    | pauses value delay =>
      cases late
      exact .refl _
    | _ => cases late
  | offerScript g i r =>
    simp only [act] at taken
    split at taken
    · cases taken
      exact Desk.keeps_change fun f _ => ⟨fun _ => id,id⟩
    · cases taken
  | offerOutcome g i r =>
    simp only [act] at taken
    split at taken
    · cases taken
      exact Desk.keeps_offerOutcome _ _ _
    · cases taken
  | offerOther who k r =>
    simp only [act] at taken
    split at taken
    · obtain ⟨gc,-,rfl⟩ := Option.map_eq_some_iff.mp taken
      exact .refl _
    · cases taken
  | announce who spot =>
    simp only [act] at taken
    split at taken
    · cases taken
      cases spot with
      | script i => exact Desk.keeps_change fun f _ => ⟨fun _ => id,id⟩
      | outcome i => exact Desk.keeps_change fun f _ => ⟨fun _ => id,fun _ => rfl⟩
      | other k => exact .refl _
    · cases taken

/-- Who is told an outcome is told the one that was announced. -/
theorem Accounted.tells {i : Nat} {r : Except Failure Json} (accounted : s.Accounted) (inside : i < s.desk.evaluations.size)
    (told : (s.desk.evaluation i).outcome.wait? = some r) : s.desk.Tells i r := by
  have found := Array.getElem?_eq_getElem inside
  rw [Desk.evaluation_eq found] at told
  have kept := (accounted.evaluations i _ found).outcome
  refine ⟨_,found,kept.honest.slot_of_wait told,?_⟩
  unfold Completion.wait? at told
  split at told
  · assumption
  · cases told

end Scene

/-- Where the one who runs scripts is. -/
inductive Round.Place where
  /-- These scripts are to be run. -/
  | runs (rest : List ScriptFile)
  /-- An evaluation was made, and its program is to be handed in. -/
  | hands (i : Nat) (p : Program) (rest : List ScriptFile)
  /-- The program was handed in, and the follower is to be started. -/
  | follows (i : Nat) (rest : List ScriptFile)
  /-- It waits for an outcome. -/
  | waits (i : Nat) (rest : List ScriptFile)
  | ended (r : Except Failure Unit)

/-- Where it goes as it is told an outcome. -/
def Round.Place.after (rest : List ScriptFile) : Except Failure Json → Round.Place
  | .ok _ => .runs rest
  | .error e => .ended (.error e)

/-- All threads around evaluations, and one that runs scripts. -/
structure Round (τ α : Type) where
  scene : Scene τ α
  place : Round.Place
  /-- The scripts that were submitted, with their evaluations, in order. -/
  ran : List (ScriptFile × Nat) := []

namespace Round
variable {τ α : Type}

/-- What happens next. -/
inductive Turn (τ α : Type) where
  /-- A move of any other thread, or one of the call in which the program is handed in. -/
  | move (m : Move τ α)
  /-- The next script is compiled, as the registry is by then, and submitted to the generation of a handle. -/
  | submit (serial : Nat) (transform : Option Transform) (handle : Nat)
  /-- The program is handed in; its value will have this name. -/
  | hand (valueName : String)
  | follow (stateName : String)
  /-- It goes on as it is told the outcome, or comes to its end. -/
  | resume

/-- What an evaluation is said to have come to. -/
def told (p : Round τ α) (i : Nat) : Option (Except Failure Json) := (p.scene.desk.evaluation i).outcome.wait?

/-- It begins with what was loaded from a directory. -/
def start (s : Scene τ α) : Except Failure (List ScriptFile) → Round τ α
  | .ok scripts => ⟨s,.runs scripts,[]⟩
  | .error e => ⟨s,.ended (.error e),[]⟩

/-- What comes of a turn, if it can be taken; `who` is the one who runs the scripts. -/
def act (first : Work τ) (backoff : Backoff) (who : Party) (p : Round τ α) : Turn τ α → Option (Round τ α)
  | .move m => (p.scene.act first backoff m).map fun scene => { p with scene }
  | .submit serial transform handle =>
    match p.place with
    | .runs (s :: rest) =>
      let i := p.scene.desk.evaluations.size
      let ran := p.ran ++ [(s,i)]
      match Program.compile Script.check serial s.name s.body transform with
      | .ok program =>
        (p.scene.act first backoff (.evaluate handle)).map fun scene => ⟨scene,.hands i program rest,ran⟩
      | .error e =>
        let desk := { p.scene.desk with evaluations := p.scene.desk.evaluations.push (.failed e) }
        some ⟨{ p.scene with desk },.waits i rest,ran⟩
    | _ => none
  | .hand valueName =>
    match p.place with
    | .hands i program rest =>
      let handle := (p.scene.desk.evaluation i).generation
      (p.scene.act first backoff (.system (.submit who handle (Evaluation.scriptJob i program valueName)))).map
        fun scene => { p with scene, place := .follows i rest }
    | _ => none
  | .follow stateName =>
    match p.place with
    | .follows i rest =>
      if p.scene.isFree who then
        (p.scene.act first backoff (.follow i stateName)).map fun scene => { p with scene, place := .waits i rest }
      else none
    | _ => none
  | .resume =>
    match p.place with
    | .runs [] => some { p with place := .ended (.ok ()) }
    | .waits i rest => (p.told i).map fun r => { p with place := .after rest r }
    | _ => none

/-- What some interleaving leads to. -/
inductive Leads (first : Work τ) (backoff : Backoff) (who : Party) (p : Round τ α) : Round τ α → Prop where
  | start : Leads first backoff who p p
  | act {q r : Round τ α} (t : Turn τ α) (led : Leads first backoff who p q) (taken : q.act first backoff who t = some r) :
    Leads first backoff who p r

section
variable {first : Work τ} {backoff : Backoff} {who : Party} {p q : Round τ α} {scripts rest : List ScriptFile} {i : Nat}

/-- All of some scripts have come to values. -/
def Passed (p : Round τ α) (ran : List (ScriptFile × Nat)) : Prop := ∀ x ∈ ran, ∃ v, p.scene.desk.Tells x.2 (.ok v)

/-- The last script that was submitted has this evaluation, and those before it have come to values. -/
def Reaches (p : Round τ α) (i : Nat) : Prop := ∃ earlier s, p.ran = earlier ++ [(s,i)] ∧ p.Passed earlier

/-- What is known where. -/
def Fits (p : Round τ α) : Place → List ScriptFile → Prop
  | .runs rest, left => rest = left ∧ p.Passed p.ran
  | .hands i _ rest, left | .follows i rest, left | .waits i rest, left =>
    rest = left ∧ p.Reaches i ∧ i < p.scene.desk.evaluations.size
  | .ended (.ok _), left => [] = left ∧ p.Passed p.ran
  | .ended (.error e), _ => ∃ i, p.Reaches i ∧ p.scene.desk.Tells i (.error e)

/-- The scripts that were submitted are the first ones, and the rest is where it is expected. -/
structure Fair (scripts : List ScriptFile) (p : Round τ α) : Prop where
  accounted : p.scene.Accounted
  place : ∃ left, scripts = p.ran.map (·.1) ++ left ∧ p.Fits p.place left

theorem Passed.keeps {ran : List (ScriptFile × Nat)} (passed : p.Passed ran) (keeps : p.scene.desk.Keeps q.scene.desk) :
    q.Passed ran := fun x member => (passed x member).imp fun _ tells => tells.keeps keeps

theorem Reaches.keeps (reaches : p.Reaches i) (keeps : p.scene.desk.Keeps q.scene.desk) (same : q.ran = p.ran) :
    q.Reaches i := by
  obtain ⟨earlier,s,ran,passed⟩ := reaches
  exact ⟨earlier,s,same.trans ran,passed.keeps keeps⟩

theorem Desk.Keeps.size_le {d t : Desk τ} (keeps : d.Keeps t) (inside : i < d.evaluations.size) :
    i < t.evaluations.size := by
  obtain ⟨f,found,-⟩ := keeps i _ (Array.getElem?_eq_getElem inside)
  exact (Array.getElem?_eq_some_iff.mp found).1

/-- What is known stays known while the one who runs the scripts waits. -/
theorem Fits.keeps {place : Place} {left : List ScriptFile} (fits : p.Fits place left)
    (keeps : p.scene.desk.Keeps q.scene.desk) (same : q.ran = p.ran) : q.Fits place left := by
  cases place with
  | runs rest => exact ⟨fits.1,same ▸ fits.2.keeps keeps⟩
  | hands i program rest | follows i rest | waits i rest =>
    exact ⟨fits.1,fits.2.1.keeps keeps same,Desk.Keeps.size_le keeps fits.2.2⟩
  | ended r =>
    cases r with
    | ok v => exact ⟨fits.1,same ▸ fits.2.keeps keeps⟩
    | error e =>
      obtain ⟨i,reaches,tells⟩ := fits
      exact ⟨i,reaches.keeps keeps same,tells.keeps keeps⟩

/-- There is a further evaluation, of the next script. -/
theorem Fair.submit {s : ScriptFile} {e : Evaluation} {place : Place} {scene : Scene τ α} (fair : Fair scripts p)
    (here : p.place = .runs (s :: rest)) (pushed : scene.desk.evaluations = p.scene.desk.evaluations.push e)
    (accounted : scene.Accounted) (next : ∀ q : Round τ α, q.Reaches p.scene.desk.evaluations.size →
      p.scene.desk.evaluations.size < q.scene.desk.evaluations.size → q.Fits place rest) :
    Fair scripts ⟨scene,place,p.ran ++ [(s,p.scene.desk.evaluations.size)]⟩ := by
  obtain ⟨-,left,order,fits⟩ := fair
  rw [here] at fits
  obtain ⟨rfl,passed⟩ := fits
  have keeps : p.scene.desk.Keeps scene.desk := fun i f found => by
    obtain ⟨g,found,kept⟩ := Desk.keeps_push p.scene.desk e i f found
    exact ⟨g,by rw [pushed]; exact found,kept⟩
  refine ⟨accounted,rest,?_,next _ ⟨p.ran,s,rfl,passed.keeps keeps⟩ ?_⟩
  · rw [order,List.map_append,List.append_assoc]
    rfl
  · show p.scene.desk.evaluations.size < scene.desk.evaluations.size
    rw [pushed,Array.size_push]
    exact Nat.lt_succ_self _

theorem fair_act {t : Turn τ α} (fair : Fair scripts p) (taken : p.act first backoff who t = some q) : Fair scripts q := by
  cases t with
  | move m =>
    obtain ⟨scene,moved,rfl⟩ := Option.map_eq_some_iff.mp taken
    obtain ⟨accounted,left,order,fits⟩ := fair
    exact ⟨Scene.accounted_act accounted moved,left,order,fits.keeps (Scene.keeps_act moved) rfl⟩
  | submit serial transform handle =>
    simp only [act] at taken
    split at taken
    · next s rest here =>
      split at taken
      · obtain ⟨scene,moved,rfl⟩ := Option.map_eq_some_iff.mp taken
        have accounted := Scene.accounted_act fair.accounted moved
        simp only [Scene.act] at moved
        split at moved
        · cases moved
          exact fair.submit here rfl accounted fun q reaches inside => ⟨rfl,reaches,inside⟩
        · cases moved
      · next e refused =>
        cases taken
        have resolved : (Evaluation.failed e).script.Kept False ∧ (Evaluation.failed e).outcome.Kept False :=
          ⟨⟨fun _ => rfl,fun _ => rfl,False.elim,fun _ => .inl rfl⟩,⟨fun _ => rfl,fun _ => rfl,False.elim,fun _ => .inl rfl⟩⟩
        exact fair.submit here rfl (fair.accounted.push resolved.1 resolved.2) fun q reaches inside => ⟨rfl,reaches,inside⟩
    · cases taken
  | hand valueName =>
    simp only [act] at taken
    split at taken
    · next i program rest here =>
      obtain ⟨scene,moved,rfl⟩ := Option.map_eq_some_iff.mp taken
      obtain ⟨accounted,left,order,fits⟩ := fair
      rw [here] at fits
      have fits : p.Fits (.follows i rest) left := fits
      exact ⟨Scene.accounted_act accounted moved,left,order,fits.keeps (Scene.keeps_act moved) rfl⟩
    · cases taken
  | follow stateName =>
    simp only [act] at taken
    split at taken
    · next i rest here =>
      split at taken
      · obtain ⟨scene,moved,rfl⟩ := Option.map_eq_some_iff.mp taken
        obtain ⟨accounted,left,order,fits⟩ := fair
        rw [here] at fits
        have fits : p.Fits (.waits i rest) left := fits
        exact ⟨Scene.accounted_act accounted moved,left,order,fits.keeps (Scene.keeps_act moved) rfl⟩
      · cases taken
    · cases taken
  | resume =>
    simp only [act] at taken
    obtain ⟨accounted,left,order,fits⟩ := fair
    split at taken
    · next here =>
      cases taken
      rw [here] at fits
      exact ⟨accounted,left,order,fits⟩
    · next i rest here =>
      obtain ⟨r,told,rfl⟩ := Option.map_eq_some_iff.mp taken
      rw [here] at fits
      obtain ⟨rfl,⟨earlier,s,ran,passed⟩,inside⟩ := fits
      have tells := accounted.tells inside told
      refine ⟨accounted,rest,order,?_⟩
      cases r with
      | ok v =>
        refine ⟨rfl,fun x member => ?_⟩
        rcases List.mem_append.mp (ran ▸ member) with before | last
        · exact passed x before
        · cases List.mem_singleton.mp last
          exact ⟨v,tells⟩
      | error e => exact ⟨i,⟨earlier,s,ran,passed⟩,tells⟩
    · cases taken

theorem Leads.fair {s : Scene τ α} (led : Leads first backoff who (Round.start s (.ok scripts)) p) (accounted : s.Accounted) :
    Fair scripts p := by
  induction led with
  | start => exact ⟨accounted,scripts,rfl,rfl,fun x member => nomatch member⟩
  | act t _ taken ih => exact fair_act ih taken

/-- A round whose directory could not be loaded is over before it begins. -/
theorem Leads.ended {s : Scene τ α} {e : Failure} (led : Leads first backoff who (Round.start s (.error e)) p) :
    p.place = .ended (.error e) ∧ p.ran = [] := by
  induction led with
  | start => exact ⟨rfl,rfl⟩
  | @act q r t _ taken ih =>
    obtain ⟨place,ran⟩ := ih
    cases t with
    | move m =>
      obtain ⟨scene,-,rfl⟩ := Option.map_eq_some_iff.mp taken
      exact ⟨place,ran⟩
    | _ =>
      simp only [Round.act,place] at taken
      cases taken

/-- What is true of the one who runs `scripts`, whatever all others do. -/
structure Orderly (first : Work τ) (backoff : Backoff) (who : Party) (scripts : List ScriptFile) (p : Round τ α) : Prop where
  /-- The scripts that were submitted are the first ones, in order. -/
  order : ∃ left, scripts = p.ran.map (·.1) ++ left
  /-- All of them but the last have come to values. -/
  passed : ∀ earlier x, p.ran = earlier ++ [x] → ∀ y ∈ earlier, ∃ v, p.told y.2 = some (.ok v)
  /-- A further one is submitted only when all of them have. -/
  submits : ∀ t q, p.act first backoff who t = some q → q.ran ≠ p.ran → ∀ x ∈ p.ran, ∃ v, p.told x.2 = some (.ok v)
  /-- One that does not compile has that for its outcome at once. -/
  refused : ∀ serial transform handle s rest e, p.place = .runs (s :: rest) →
    Program.compile Script.check serial s.name s.body transform = .error e →
      ∃ q i, p.act first backoff who (.submit serial transform handle) = some q ∧ q.ran = p.ran ++ [(s,i)] ∧
        q.place = .waits i rest ∧ q.told i = some (.error e)
  /-- It waits for the last one. -/
  waits : ∀ i rest, p.place = .waits i rest → ∃ earlier s, p.ran = earlier ++ [(s,i)]
  /-- It goes on as soon as it is told, whatever that is. -/
  resumes : ∀ i rest r, p.place = .waits i rest → p.told i = some r →
    ∃ q, p.act first backoff who .resume = some q ∧ q.place = .after rest r
  ends : p.place = .runs [] → ∃ q, p.act first backoff who .resume = some q ∧ q.place = .ended (.ok ())
  /-- It ends well only when all scripts were run and have come to values. -/
  finished : p.place = .ended (.ok ()) → p.ran.map (·.1) = scripts ∧ ∀ x ∈ p.ran, ∃ v, p.told x.2 = some (.ok v)
  /-- It ends with the failure of the last one that was run. -/
  failed : ∀ e, p.place = .ended (.error e) → ∃ earlier x, p.ran = earlier ++ [x] ∧ p.told x.2 = some (.error e)

theorem Passed.told {ran : List (ScriptFile × Nat)} (passed : p.Passed ran) :
    ∀ x ∈ ran, ∃ v, p.told x.2 = some (.ok v) := fun x member => (passed x member).imp fun _ tells => tells.wait

/-- All but the last have come to values. -/
theorem Fair.passed (fair : Fair scripts p) {earlier : List (ScriptFile × Nat)} {x : ScriptFile × Nat}
    (ran : p.ran = earlier ++ [x]) : p.Passed earlier := by
  obtain ⟨-,left,-,fits⟩ := fair
  have all (passed : p.Passed p.ran) : p.Passed earlier := fun y member =>
    passed y (ran ▸ List.mem_append_left _ member)
  have last {i : Nat} (reaches : p.Reaches i) : p.Passed earlier := by
    obtain ⟨before,s,same,passed⟩ := reaches
    exact (List.append_inj_left' (ran.symm.trans same) rfl) ▸ passed
  cases place : p.place with
  | runs rest =>
    rw [place] at fits
    exact all fits.2
  | hands i program rest | follows i rest | waits i rest =>
    rw [place] at fits
    exact last fits.2.1
  | ended r =>
    rw [place] at fits
    cases r with
    | ok v => exact all fits.2
    | error e => exact last fits.choose_spec.1

theorem Fair.orderly (fair : Fair scripts p) : Orderly first backoff who scripts p := by
  have fits := fair.place
  refine ⟨fits.imp fun _ => And.left,fun earlier x ran => (fair.passed ran).told,fun t q taken more => ?_,
    fun serial transform handle s rest e here refused => ?_,fun i rest here => ?_,fun i rest r here told => ?_,
    fun here => ?_,fun here => ?_,fun e here => ?_⟩
  · cases t with
    | submit serial transform handle =>
      simp only [act] at taken
      split at taken
      · next s rest here =>
        obtain ⟨left,-,fits⟩ := fits
        rw [here] at fits
        exact fits.2.told
      · cases taken
    | move m =>
      obtain ⟨scene,-,rfl⟩ := Option.map_eq_some_iff.mp taken
      exact absurd rfl more
    | hand valueName =>
      simp only [act] at taken
      split at taken
      · obtain ⟨scene,-,rfl⟩ := Option.map_eq_some_iff.mp taken
        exact absurd rfl more
      · cases taken
    | follow stateName =>
      simp only [act] at taken
      split at taken
      · split at taken
        · obtain ⟨scene,-,rfl⟩ := Option.map_eq_some_iff.mp taken
          exact absurd rfl more
        · cases taken
      · cases taken
    | resume =>
      simp only [act] at taken
      split at taken
      · cases taken
        exact absurd rfl more
      · obtain ⟨r,-,rfl⟩ := Option.map_eq_some_iff.mp taken
        exact absurd rfl more
      · cases taken
  · have found : (p.scene.desk.evaluations.push (Evaluation.failed e))[p.scene.desk.evaluations.size]? = some (.failed e) := by
      simp
    let desk := { p.scene.desk with evaluations := p.scene.desk.evaluations.push (.failed e) }
    have tells : Desk.Tells desk p.scene.desk.evaluations.size (.error e) := ⟨_,found,rfl,rfl⟩
    refine ⟨⟨{ p.scene with desk },.waits _ rest,_⟩,p.scene.desk.evaluations.size,?_,rfl,rfl,tells.wait⟩
    simp only [act,here,refused]
    rfl
  · obtain ⟨left,-,fits⟩ := fits
    rw [here] at fits
    obtain ⟨-,⟨earlier,s,ran,-⟩,-⟩ := fits
    exact ⟨earlier,s,ran⟩
  · exact ⟨{ p with place := .after rest r },by simp only [act,here,told,Option.map_some],rfl⟩
  · exact ⟨{ p with place := .ended (.ok ()) },by simp only [act,here],rfl⟩
  · obtain ⟨left,order,fits⟩ := fits
    rw [here] at fits
    obtain ⟨rfl,passed⟩ := fits
    exact ⟨by rw [order,List.append_nil],passed.told⟩
  · obtain ⟨left,-,fits⟩ := fits
    rw [here] at fits
    obtain ⟨i,⟨earlier,s,ran,-⟩,tells⟩ := fits
    exact ⟨earlier,_,ran,tells.wait⟩

end

/-! ### On one host -/

section
variable {h h' : Host τ} {scripts : List ScriptFile} {e : Failure}

/-- Scripts are run on a host one after another, each to a value. -/
inductive Plays : Host τ → List ScriptFile → Host τ → Prop where
  | nil {h : Host τ} : Plays h [] h
  | cons {h h' h'' : Host τ} {s : ScriptFile} {rest : List ScriptFile} {v : Json} (first : h.play s = (.ok v,h'))
    (others : Plays h' rest h'') : Plays h (s :: rest) h''

theorem runEach_eq_ok_iff : h.runEach scripts = (.ok (),h') ↔ Plays h scripts h' := by
  induction scripts generalizing h with
  | nil =>
    constructor
    · intro same
      cases same
      exact .nil
    · rintro ⟨⟩
      rfl
  | cons s rest ih =>
    rw [Host.runEach]
    rcases outcome : h.play s with ⟨o | v,k⟩
    · constructor
      · intro same
        cases same
      · intro plays
        cases plays with
        | cons first others => cases outcome.symm.trans first
    · refine ih.trans ⟨fun plays => .cons outcome plays,fun plays => ?_⟩
      cases plays with
      | cons first others =>
        cases outcome.symm.trans first
        exact others

theorem runEach_eq_error_iff : h.runEach scripts = (.error e,h') ↔
    ∃ before s after k, scripts = before ++ s :: after ∧ Plays h before k ∧ k.play s = (.error e,h') := by
  induction scripts generalizing h with
  | nil =>
    refine ⟨fun same => (nomatch same),?_⟩
    rintro ⟨before,s,after,k,same,-⟩
    simp at same
  | cons s rest ih =>
    rw [Host.runEach]
    rcases outcome : h.play s with ⟨o | v,k⟩
    · constructor
      · intro same
        cases same
        exact ⟨[],s,rest,h,rfl,.nil,outcome⟩
      · rintro ⟨before,t,after,m,same,plays,failed⟩
        cases plays with
        | nil =>
          cases same
          cases outcome.symm.trans failed
          rfl
        | cons first others =>
          cases same
          cases outcome.symm.trans first
    · refine ih.trans ⟨?_,?_⟩
      · rintro ⟨before,t,after,m,rfl,plays,failed⟩
        exact ⟨s :: before,t,after,m,rfl,.cons outcome plays,failed⟩
      · rintro ⟨before,t,after,m,same,plays,failed⟩
        cases plays with
        | nil =>
          cases same
          cases outcome.symm.trans failed
        | cons first others =>
          cases same
          cases outcome.symm.trans first
          exact ⟨_,t,after,m,rfl,others,failed⟩

end

section
variable {first : Work τ} {backoff : Backoff} {who : Party} {p q : Round τ α} {scripts rest : List ScriptFile} {i : Nat}

/-- Loading a directory fails just if there is a script that cannot be read: an entry that is no directory and whose name
    ends in `.js`. Otherwise all of them are loaded, sorted by name, in whatever order they are listed. Whoever runs what
    was loaded does so in order, up to the first script whose evaluation fails, with all others going on meanwhile. A host
    that runs a directory ends well just if all scripts come to values, and otherwise with the failure of the first one
    that does not. -/
theorem directory_in_order {files : Files} {root : Path} {entries : List (String × EntryKind)}
    (listed : files.list root = .ok entries) (distinct : (entries.map (·.1)).Nodup) :
    ((∃ e, ScriptFile.load files root = .error e) ↔ ∃ entry ∈ entries, (entry.2 ≠ .dir ∧ entry.1.endsWith ".js" = true) ∧
      ∃ e, files.read (root.join ⟨entry.1⟩) = .error e) ∧
    (∀ scripts, ScriptFile.load files root = .ok scripts →
      scripts.Pairwise (fun a b => a.name < b.name) ∧
      (∀ s, s ∈ scripts ↔ ∃ kind, (s.name,kind) ∈ entries ∧ (kind ≠ .dir ∧ s.name.endsWith ".js" = true) ∧
        files.read (root.join ⟨s.name⟩) = .ok s.body) ∧
      ∀ (other : Files) listing, other.list root = .ok listing → listing.Perm entries →
        (∀ path, other.read path = files.read path) → ScriptFile.load other root = .ok scripts) ∧
    (∀ (first : Work τ) (backoff : Backoff) (capacity : Nat) (own : τ) (s : Scene τ α) (who : Party) (p : Round τ α),
      Scene.Reachable first backoff capacity own s →
      Leads first backoff who (Round.start s (ScriptFile.load files root)) p →
        (∀ e, ScriptFile.load files root = .error e → p.place = .ended (.error e) ∧ p.ran = []) ∧
        ∀ scripts, ScriptFile.load files root = .ok scripts → Orderly first backoff who scripts p) ∧
    ∀ h : Host τ, h.files = files →
      (∀ e, ScriptFile.load files root = .error e → h.runDirectory root = (.error e,h)) ∧
      ∀ scripts, ScriptFile.load files root = .ok scripts → ∀ h',
        (h.runDirectory root = (.ok (),h') ↔ Plays h scripts h') ∧
        ∀ e, h.runDirectory root = (.error e,h') ↔
          ∃ before s after k, scripts = before ++ s :: after ∧ Plays h before k ∧ k.play s = (.error e,h') := by
  refine ⟨(ScriptFile.load_fails_iff listed distinct).trans ?_,fun scripts loaded => ?_,
    fun first backoff capacity own s who p reached led => ⟨fun e failed => ?_,fun scripts loaded => ?_⟩,
    fun h same => ⟨fun e failed => ?_,fun scripts loaded h' => ?_⟩⟩
  · simp only [ScriptFile.isScript_iff]
  · obtain ⟨sorted,members⟩ := ScriptFile.load_sorts listed distinct loaded
    refine ⟨sorted,fun s => ?_,fun other listing relisted perm same =>
      ScriptFile.load_perm listed distinct relisted perm same loaded⟩
    simp only [members,ScriptFile.isScript_iff]
  · rw [failed] at led
    exact led.ended
  · rw [loaded] at led
    exact (led.fair (Scene.accounted_of_reachable reached)).orderly
  · unfold Host.runDirectory
    rw [same,failed]
  · have run : h.runDirectory root = h.runEach scripts := by
      unfold Host.runDirectory
      rw [same,loaded]
    rw [run]
    exact ⟨runEach_eq_ok_iff,fun e => runEach_eq_error_iff⟩

end

/-- A directory with two scripts, a text, and a directory. -/
def shelf (body : String) : Files where
  read path := .ok (if path = Path.join ⟨"s"⟩ ⟨"a.js"⟩ then body else "2")
  kind _ := .ok .file
  list _ := .ok [("b.js",.file),("a.js",.file),("c.txt",.file),("d.js",.dir)]

theorem load_shelf (body : String) : ScriptFile.load (shelf body) ⟨"s"⟩ = .ok [⟨"a.js",body⟩,⟨"b.js","2"⟩] := by
  have scripts : [("b.js",EntryKind.file),("a.js",.file),("c.txt",.file),("d.js",.dir)].filter ScriptFile.isScript =
      [("b.js",.file),("a.js",.file)] := by decide +kernel
  have other : ¬Path.join ⟨"s"⟩ ⟨"b.js"⟩ = Path.join ⟨"s"⟩ ⟨"a.js"⟩ := by decide +kernel
  have read : ScriptFile.readAll (shelf body) ⟨"s"⟩ [("b.js",.file),("a.js",.file)] =
      .ok [⟨"b.js","2"⟩,⟨"a.js",body⟩] := by
    simp only [ScriptFile.readAll,shelf,if_neg other,if_true]
    rfl
  rw [ScriptFile.load_eq rfl,scripts,read]
  simp [List.mergeSort]

theorem refused_misspelt : ∃ e, Program.compile Script.check 0 "a.js" "var = 1;" none = .error e := by
  have facts : (Program.compile Script.check 0 "a.js" "var = 1;" none).toOption.isNone = true := by decide +kernel
  cases compiled : Program.compile Script.check 0 "a.js" "var = 1;" none with
  | ok p =>
    rw [compiled] at facts
    cases facts
  | error e => exact ⟨e,rfl⟩

/-- The first script does not compile, and that is the end. -/
theorem directory_in_order_of_shelf : ∃ (p : Round Unit Unit) (e : Failure),
    Leads .done ⟨.micros 10,.millis 100⟩ (.thread 0)
      (Round.start (.init 2 ()) (ScriptFile.load (shelf "var = 1;") ⟨"s"⟩)) p ∧
    p.place = .ended (.error e) ∧
    Orderly .done ⟨.micros 10,.millis 100⟩ (.thread 0) [⟨"a.js","var = 1;"⟩,⟨"b.js","2"⟩] p := by
  have listed : (shelf "var = 1;").list ⟨"s"⟩ = .ok [("b.js",.file),("a.js",.file),("c.txt",.file),("d.js",.dir)] := rfl
  have law := fun (p : Round Unit Unit) led => ((directory_in_order listed (by decide)).2.2.1 .done
    ⟨.micros 10,.millis 100⟩ 2 () (.init 2 ()) (.thread 0) p .init led).2 _ (load_shelf _)
  obtain ⟨e,refused⟩ := refused_misspelt
  have place : (Round.start (Scene.init 2 () : Scene Unit Unit) (ScriptFile.load (shelf "var = 1;") ⟨"s"⟩)).place =
      .runs [⟨"a.js","var = 1;"⟩,⟨"b.js","2"⟩] := by rw [load_shelf]; rfl
  obtain ⟨q,i,taken,-,waits,told⟩ := (law _ .start).refused 0 none 0 _ _ e place refused
  have submitted := Leads.act _ .start taken
  obtain ⟨r,taken,ended⟩ := (law q submitted).resumes i _ _ waits told
  have led := submitted.act _ taken
  exact ⟨r,e,led,ended,law r led⟩

/-- A round was cut short by a cancellation, with one script submitted. -/
def isCut (r : Except Failure Unit × Host Unit) : Bool :=
  match r with
  | (.error .cancelled,h) => h.desk.evaluations.size == 1
  | _ => false

/-- Where the host does not run, the first script is cancelled, though it compiles and is a mere number; the round ends
    with that, and the second script is not run. -/
theorem ended_by_cancellation :
    ScriptFile.load (shelf "1") ⟨"s"⟩ = .ok [⟨"a.js","1"⟩,⟨"b.js","2"⟩] ∧
    (∀ s ∈ [ScriptFile.mk "a.js" "1",⟨"b.js","2"⟩], ∃ p, Program.compile Script.check 0 s.name s.body none = .ok p) ∧
    ((Host.new default (shelf "1") ()).runDirectory ⟨"s"⟩).1 = .error .cancelled ∧
    ((Host.new default (shelf "1") ()).runDirectory ⟨"s"⟩).2.desk.evaluations.size = 1 := by
  have facts : (([ScriptFile.mk "a.js" "1",⟨"b.js","2"⟩].all fun s =>
      (Program.compile Script.check 0 s.name s.body none).toOption.isSome) &&
    isCut ((Host.new default (shelf "1") ()).runEach [⟨"a.js","1"⟩,⟨"b.js","2"⟩])) = true := by decide +kernel
  obtain ⟨compiles,cut⟩ := Bool.and_eq_true_iff.mp facts
  have run : (Host.new default (shelf "1") ()).runDirectory ⟨"s"⟩ =
      (Host.new default (shelf "1") ()).runEach [⟨"a.js","1"⟩,⟨"b.js","2"⟩] := by
    unfold Host.runDirectory
    rw [show (Host.new default (shelf "1") ()).files = (shelf "1") from rfl,load_shelf]
  refine ⟨load_shelf "1",fun s member => ?_,?_⟩
  · have compiled := List.all_eq_true.mp compiles s member
    cases result : Program.compile Script.check 0 s.name s.body none with
    | ok p => exact ⟨p,rfl⟩
    | error e =>
      rw [result] at compiled
      cases compiled
  · rw [run]
    unfold isCut at cut
    split at cut
    · next ended => exact ⟨by rw [ended],by rw [ended]; exact eq_of_beq cut⟩
    · cases cut

end Round

end ScriptHost
