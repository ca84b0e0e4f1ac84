import ScriptHost.Proofs.Scheduler.System
/-!
The steps of the threads of a scheduler as relations, one case for each kind of step with what the thread
has seen when it takes it. Every step that a thread may take next is one of them (`step_of_mem`), so what
is said about steps is proved by cases on these relations.
-/
namespace ScriptHost
variable {J : Type} {s : Scheduler J}

private theorem mem_one {α β : Type} {a c : α} {b d : β} (member : (a,b) ∈ [(c,d)]) : a = c ∧ b = d := by
  simpa using member

/-- A step of a submission. -/
inductive Submission.Step (s : Scheduler J) : Submission J → Submission J → Scheduler J → Prop where
  | late {inside : Bool} {e : Envelope J} (past : s.isOver e.generation = true) :
    Step s (.looks inside e) .refused s
  | look {inside : Bool} {e : Envelope J} (live : s.isOver e.generation = false) :
    Step s (.looks inside e) (if inside then .tries e else .sends e) s
  | abandon {e : Envelope J} (past : s.isOver e.generation = true) : Step s (.sends e) .refused s
  | send {e : Envelope J} (room : s.hasRoom = true) : Step s (.sends e) .sent (s.enqueue e)
  | put {e : Envelope J} (room : s.hasRoom = true) : Step s (.tries e) .sent (s.enqueue e)
  | full {e : Envelope J} (full : s.hasRoom = false) : Step s (.tries e) (.handsOver e) s
  | countSent : Step s .sent (.ended true) s.countSubmitted
  | countRefused : Step s .refused (.ended false) (s.countDiscarded 1)

theorem Submission.step_of_mem {p q : Submission J} {t : Scheduler J} (member : (q,t) ∈ p.next s) :
    Step s p q t := by
  cases p with
  | looks inside e =>
    simp only [next] at member
    split at member
    · obtain ⟨rfl,rfl⟩ := mem_one member
      exact .late ‹_›
    · obtain ⟨rfl,rfl⟩ := mem_one member
      exact .look (Bool.eq_false_iff.mpr ‹_›)
  | sends e =>
    simp only [next,List.mem_append] at member
    rcases member with member | member
    · split at member
      · obtain ⟨rfl,rfl⟩ := mem_one member
        exact .abandon ‹_›
      · cases member
    · split at member
      · obtain ⟨rfl,rfl⟩ := mem_one member
        exact .send ‹_›
      · cases member
  | tries e =>
    simp only [next] at member
    split at member
    · obtain ⟨rfl,rfl⟩ := mem_one member
      exact .put ‹_›
    · obtain ⟨rfl,rfl⟩ := mem_one member
      exact .full (Bool.eq_false_iff.mpr ‹_›)
  | sent =>
    obtain ⟨rfl,rfl⟩ := mem_one member
    exact .countSent
  | refused =>
    obtain ⟨rfl,rfl⟩ := mem_one member
    exact .countRefused
  | handsOver e => cases member
  | ended accepted => cases member

/-- The state that a start leaves when it has given up the worker of the last generation. -/
theorem Starting.control_detach (s : Scheduler J) (finished : Nat → Bool) :
    (detach s.lock finished).running = s.running ∧ (detach s.lock finished).generation = s.generation ∧
      (detach s.lock finished).worker = none ∧ (detach s.lock finished).locked = true ∧
      (detach s.lock finished).signals = s.signals ∧ (detach s.lock finished).queue = s.queue := by
  unfold detach Scheduler.lock
  cases held : s.worker with
  | none => simp
  | some g => cases gone : finished g <;> simp [gone,Scheduler.note]

/-- The envelope with the first job of a generation that is about to open. -/
def Starting.firstEnvelope (first : J) (s : Scheduler J) : Envelope J :=
  (s.openGeneration.envelop (s.generation+1) (.job first)).1

/-- A step of a start. -/
inductive Starting.Step (finished : Nat → Bool) (first : J) (s : Scheduler J) :
    Starting J → Starting J → Scheduler J → Prop where
  | refuse (free : s.locked = false) (runs : s.running = true) :
    Step finished first s .enters (.ended (.error .alreadyRunning)) s
  | enter (free : s.locked = false) (idle : s.running = false) :
    Step finished first s .enters (.drains 0) (detach s.lock finished)
  | drain {n : Nat} {e : Envelope J} {t : Scheduler J} (taken : s.dequeue? = some (e,t)) :
    Step finished first s (.drains n) (.drains (n+1)) t
  | drained {n : Nat} (empty : s.dequeue? = none) :
    Step finished first s (.drains n) .creates (s.countDiscarded n)
  | fail {e : Failure} {line : LogLine} :
    Step finished first s .creates (.ended (.error e)) (s.note line).unlock
  | create : Step finished first s .creates (.submits (.looks false (firstEnvelope first s)))
      (s.openGeneration.envelop (s.generation+1) (.job first)).2
  | submit {p q : Submission J} {t : Scheduler J} (step : p.Step s q t) :
    Step finished first s (.submits p) (.submits q) t
  | submitted {p : Submission J} (outcome : p.outcome? = some true) :
    Step finished first s (.submits p) .leaves s
  | dropped {p : Submission J} {line : LogLine} (outcome : p.outcome? = some false) :
    Step finished first s (.submits p) .leaves (s.note line)
  | leave : Step finished first s .leaves (.ended (.ok ())) s.unlock

theorem Starting.step_of_mem {finished : Nat → Bool} {create : Nat → Except Failure Unit} {first : J}
    {p q : Starting J} {t : Scheduler J} (member : (q,t) ∈ p.next finished create first s) :
    Step finished first s p q t := by
  cases p with
  | enters =>
    simp only [next] at member
    split at member
    · cases member
    · next locked =>
      have free : s.locked = false := by simpa using locked
      split at member
      · obtain ⟨rfl,rfl⟩ := mem_one member
        exact .refuse free ‹_›
      · obtain ⟨rfl,rfl⟩ := mem_one member
        exact .enter free (Bool.eq_false_iff.mpr ‹_›)
  | drains n =>
    simp only [next] at member
    split at member
    · obtain ⟨rfl,rfl⟩ := mem_one member
      exact .drain ‹_›
    · obtain ⟨rfl,rfl⟩ := mem_one member
      exact .drained ‹_›
  | creates =>
    simp only [next] at member
    split at member
    · obtain ⟨rfl,rfl⟩ := mem_one member
      exact .fail
    · obtain ⟨rfl,rfl⟩ := mem_one member
      exact .create
  | submits p =>
    simp only [next] at member
    split at member
    · obtain ⟨rfl,rfl⟩ := mem_one member
      exact .submitted ‹_›
    · obtain ⟨rfl,rfl⟩ := mem_one member
      exact .dropped ‹_›
    · obtain ⟨⟨p',t'⟩,inner,same⟩ := List.mem_map.mp member
      cases same
      exact .submit (Submission.step_of_mem inner)
  | leaves =>
    obtain ⟨rfl,rfl⟩ := mem_one member
    exact .leave
  | ended r => cases member

/-- A step of a stop, by itself or because time has run out. -/
inductive Stopping.Step (finished : Nat → Bool) (s : Scheduler J) : Stopping → Stopping → Scheduler J → Prop where
  | refuse (free : s.locked = false) (idle : s.running = false) :
    Step finished s .enters (.ended (.error .notRunning)) s
  | enter (free : s.locked = false) (runs : s.running = true) :
    Step finished s .enters (.queues s.generation false) s
  | queue {g : Nat} {again : Bool} (room : s.hasRoom = true) :
    Step finished s (.queues g again) (.counts g again) ((s.envelop g .stop).2.enqueue (s.envelop g .stop).1)
  | queueLate {g : Nat} {again : Bool} {line : LogLine} :
    Step finished s (.queues g again) (.waits g again) (s.note line)
  | count {g : Nat} {again : Bool} : Step finished s (.counts g again) (.waits g again) s.countSubmitted
  | leave {g : Nat} {again : Bool} (past : s.isOver g = true) :
    Step finished s (.waits g again) (.takes g) s
  | waitLate {g : Nat} {line : LogLine} : Step finished s (.waits g false) (.drains g 0) (s.note line)
  | giveUp {g : Nat} {line : LogLine} :
    Step finished s (.waits g true) (.ended (.error .shutdownTimeout)) (s.note line)
  | drain {g n : Nat} {e : Envelope J} {t : Scheduler J} (taken : s.dequeue? = some (e,t)) :
    Step finished s (.drains g n) (.drains g (n+1)) t
  | drained {g n : Nat} (empty : s.dequeue? = none) :
    Step finished s (.drains g n) (.stores g) (s.countDiscarded n)
  | store {g : Nat} : Step finished s (.stores g) (.flags g) (s.changeInterrupt g (·.store reason))
  | flag {g : Nat} : Step finished s (.flags g) (.queues g true) (s.changeInterrupt g (·.flag))
  | take {g w : Nat} (free : s.locked = false) (handle : s.worker = some w) :
    Step finished s (.takes g) (.joins g w) { s with worker := none }
  | takeNone {g : Nat} (free : s.locked = false) (handle : s.worker = none) :
    Step finished s (.takes g) (.ended (.ok ())) s
  | join {g w : Nat} (gone : finished w = true) : Step finished s (.joins g w) (.ended (.ok ())) s

theorem Stopping.step_of_mem {finished : Nat → Bool} {p q : Stopping} {t : Scheduler J}
    (member : (q,t) ∈ p.next finished s ++ (p.late s).toList) : Step finished s p q t := by
  rcases List.mem_append.mp member with member | member
  · cases p with
    | enters =>
      simp only [next] at member
      split at member
      · cases member
      · next locked =>
        have free : s.locked = false := by simpa using locked
        split at member
        · obtain ⟨rfl,rfl⟩ := mem_one member
          exact .enter free ‹_›
        · obtain ⟨rfl,rfl⟩ := mem_one member
          exact .refuse free (Bool.eq_false_iff.mpr ‹_›)
    | queues g again =>
      simp only [next] at member
      split at member
      · obtain ⟨rfl,rfl⟩ := mem_one member
        exact .queue ‹_›
      · cases member
    | counts g again =>
      obtain ⟨rfl,rfl⟩ := mem_one member
      exact .count
    | waits g again =>
      simp only [next] at member
      split at member
      · obtain ⟨rfl,rfl⟩ := mem_one member
        exact .leave ‹_›
      · cases member
    | drains g n =>
      simp only [next] at member
      split at member
      · obtain ⟨rfl,rfl⟩ := mem_one member
        exact .drain ‹_›
      · obtain ⟨rfl,rfl⟩ := mem_one member
        exact .drained ‹_›
    | stores g =>
      obtain ⟨rfl,rfl⟩ := mem_one member
      exact .store
    | flags g =>
      obtain ⟨rfl,rfl⟩ := mem_one member
      exact .flag
    | takes g =>
      simp only [next] at member
      split at member
      · cases member
      · next locked =>
        have free : s.locked = false := by simpa using locked
        split at member
        · obtain ⟨rfl,rfl⟩ := mem_one member
          exact .take free ‹_›
        · obtain ⟨rfl,rfl⟩ := mem_one member
          exact .takeNone free ‹_›
    | joins g w =>
      simp only [next] at member
      split at member
      · obtain ⟨rfl,rfl⟩ := mem_one member
        exact .join ‹_›
      · cases member
    | ended r => cases member
  · cases p with
    | queues g again =>
      obtain ⟨rfl,rfl⟩ := mem_one member
      exact .queueLate
    | waits g again =>
      cases again with
      | false =>
        obtain ⟨rfl,rfl⟩ := mem_one member
        exact .waitLate
      | true =>
        obtain ⟨rfl,rfl⟩ := mem_one member
        exact .giveUp
    | _ => cases member

/-- A step of the worker of a generation, while no job runs. -/
inductive Worker.Step {R : Type} (g : Nat) (run : J → R) (rest : R) (s : Scheduler J) :
    Worker J R → Worker J R → Scheduler J → Prop where
  | end (past : s.isOver g = true) : Step g run rest s .looks .gone s
  | look (live : s.isOver g = false) : Step g run rest s .looks .selects s
  | wake (past : s.isOver g = true) : Step g run rest s .selects .gone s
  | take {e : Envelope J} {t : Scheduler J} (taken : s.dequeue? = some (e,t)) :
    Step g run rest s .selects (.took e) t
  | accept {e : Envelope J} (own : e.generation = g) : Step g run rest s (.took e) (.clearsRequested e) s
  | discard {e : Envelope J} (stale : e.generation ≠ g) :
    Step g run rest s (.took e) .looks (s.countDiscarded 1)
  | clearRequested {e : Envelope J} :
    Step g run rest s (.clearsRequested e) (.clearsFired e) (s.changeInterrupt g (·.clearRequested))
  | clearFired {e : Envelope J} :
    Step g run rest s (.clearsFired e) (.clearsReason e) (s.changeInterrupt g (·.clearFired))
  | beginStop {e : Envelope J} (task : e.task = .stop) :
    Step g run rest s (.clearsReason e) .leaves (s.changeInterrupt g (·.clearReason))
  | beginJob {e : Envelope J} {j : J} (task : e.task = .job j) :
    Step g run rest s (.clearsReason e) (.runs e.serial (run j)) (s.changeInterrupt g (·.clearReason))
  | leave (free : s.locked = false) : Step g run rest s .leaves .closes (s.leaveGeneration g).lock
  | close : Step g run rest s .closes (.ran false) (s.closeGeneration g).unlock
  | countRan {panicked : Bool} : Step g run rest s (.ran panicked) (.settles rest)
      (if panicked then s.countPanicked else s.countExecuted)

theorem Worker.step_of_mem {R : Type} {g : Nat} {run : J → R} {rest : R} {p q : Worker J R}
    {t : Scheduler J} (member : (q,t) ∈ p.next g run rest s) : Step g run rest s p q t := by
  cases p with
  | looks =>
    obtain ⟨rfl,rfl⟩ := mem_one member
    split
    · exact .end ‹_›
    · exact .look (Bool.eq_false_iff.mpr ‹_›)
  | selects =>
    simp only [next,List.mem_append] at member
    rcases member with member | member
    · split at member
      · obtain ⟨rfl,rfl⟩ := mem_one member
        exact .wake ‹_›
      · cases member
    · split at member
      · obtain ⟨rfl,rfl⟩ := mem_one member
        exact .take ‹_›
      · cases member
  | took e =>
    simp only [next] at member
    split at member
    · obtain ⟨rfl,rfl⟩ := mem_one member
      exact .accept ‹_›
    · obtain ⟨rfl,rfl⟩ := mem_one member
      exact .discard ‹_›
  | clearsRequested e =>
    obtain ⟨rfl,rfl⟩ := mem_one member
    exact .clearRequested
  | clearsFired e =>
    obtain ⟨rfl,rfl⟩ := mem_one member
    exact .clearFired
  | clearsReason e =>
    simp only [next] at member
    split at member
    · obtain ⟨rfl,rfl⟩ := mem_one member
      exact .beginStop ‹_›
    · obtain ⟨rfl,rfl⟩ := mem_one member
      exact .beginJob ‹_›
  | runs serial r => cases member
  | leaves =>
    simp only [next] at member
    split at member
    · cases member
    · obtain ⟨rfl,rfl⟩ := mem_one member
      exact .leave (Bool.eq_false_iff.mpr ‹_›)
  | closes =>
    obtain ⟨rfl,rfl⟩ := mem_one member
    exact .close
  | ran panicked =>
    obtain ⟨rfl,rfl⟩ := mem_one member
    exact .countRan
  | settles r => cases member
  | gone => cases member

/-- A step of a call, with what it is recorded as. -/
inductive Call.Step (finished : Nat → Bool) (first : J) (s : Scheduler J) :
    Call J → Call J → Scheduler J → List (Event J) → Prop where
  | start {p q : Starting J} {found t : Scheduler J} (step : p.Step finished first s q t) :
    Step finished first s (.start p found) (.start q (foundBy s found p)) t (p.events (foundBy s found p) t q)
  | stop {p q : Stopping} {t : Scheduler J} (step : p.Step finished s q t) :
    Step finished first s (.stop p) (.stop q) t (p.events s q)
  | submit {p q : Submission J} {t : Scheduler J} (step : p.Step s q t) :
    Step finished first s (.submit p) (.submit q) t (p.events q)

theorem Call.step_of_mem {finished : Nat → Bool} {made : Except Failure Unit} {first : J} {c d : Call J}
    {t : Scheduler J} {events : List (Event J)} (member : (d,t,events) ∈ c.moves finished made first s) :
    Step finished first s c d t events := by
  cases c with
  | start p found =>
    obtain ⟨⟨q,u⟩,inner,same⟩ := List.mem_map.mp member
    cases same
    exact .start (Starting.step_of_mem inner)
  | stop p =>
    obtain ⟨⟨q,u⟩,inner,same⟩ := List.mem_map.mp member
    cases same
    exact .stop (Stopping.step_of_mem inner)
  | submit p =>
    obtain ⟨⟨q,u⟩,inner,same⟩ := List.mem_map.mp member
    cases same
    exact .submit (Submission.step_of_mem inner)

namespace System

/-- A step of a whole system: what an action comes to, with what the party that takes it has seen. -/
inductive Step (first : J) (σ : System J) : Action J → System J → Prop where
  | takeHandle (free : σ.scheduler.locked = false) :
    Step first σ .takeHandle { σ with handles := σ.scheduler.generation :: σ.handles }
  | start {who : Party} (free : σ.isFree who = true) :
    Step first σ (.start who) (σ.setCall (some (.start .enters σ.scheduler)) who)
  | stop {t : Nat} (free : σ.isFree (.thread t) = true) :
    Step first σ (.stop t) (σ.setCall (some (.stop .enters)) (.thread t))
  | submit {who : Party} {handle : Nat} {j : J} (free : σ.isFree who = true) (taken : handle ∈ σ.handles) :
    Step first σ (.submit who handle j)
      ((σ.setCall (some (.submit (.looks who.isWorker (σ.scheduler.envelop handle (.job j)).1))) who).arrive who
        (σ.scheduler.envelop handle (.job j)).2 [.submitted handle (σ.scheduler.envelop handle (.job j)).1])
  | go {who : Party} {made : Except Failure Unit} {choice : Nat} {c d : Call J} {t : Scheduler J}
    {events : List (Event J)} (called : σ.call? who = some c)
    (step : Call.Step σ.isFinished first σ.scheduler c d t events) :
    Step first σ (.go who made choice) ((σ.setCall (some d) who).arrive who t events)
  | handOver {who : Party} {t : Nat} {e : Envelope J} (called : σ.call? who = some (.submit (.handsOver e)))
    (free : σ.isFree (.thread t) = true) :
    Step first σ (.handOver who t) ((σ.setCall none who).setCall (some (.submit (.sends e))) (.thread t))
  | failToHandOver {who : Party} {e : Envelope J} (called : σ.call? who = some (.submit (.handsOver e))) :
    Step first σ (.failToHandOver who) ((σ.setCall (some (.submit (.ended false))) who).arrive who
      (σ.scheduler.countDiscarded 1) [.refused e])
  | return {who : Party} {c : Call J} (called : σ.call? who = some c) (past : c.isOver = true) :
    Step first σ (.return who) (σ.setCall none who)
  | work {g choice : Nat} {p : Worker J (Option (Call J))} {t : Scheduler J}
    (step : Worker.Step g (fun _ => none) none σ.scheduler (σ.workers g) p t) :
    Step first σ (.work g choice) ({ σ with workers := Function.update σ.workers g p }.arrive (.worker g) t
      ((σ.workers g).events g p))
  | finish {g n : Nat} {panicked : Bool} (place : σ.workers g = .runs n none) :
    Step first σ (.finish g panicked) { σ with workers := Function.update σ.workers g (.ran panicked) }
  | settle {g : Nat} {r : Option (Call J)} (place : σ.workers g = .settles r) :
    Step first σ (.settle g) { σ with workers := Function.update σ.workers g .looks }
  | interrupt {reason : String} (free : σ.scheduler.locked = false) :
    Step first σ (.interrupt reason) { σ with scheduler := σ.scheduler.interrupt reason }

theorem step_of_act {first : J} {σ τ : System J} {a : Action J} (taken : σ.act first a = some τ) :
    Step first σ a τ := by
  cases a with
  | takeHandle =>
    simp only [act] at taken
    split at taken
    · cases taken
    · cases taken
      exact .takeHandle (Bool.eq_false_iff.mpr ‹_›)
  | start who =>
    simp only [act] at taken
    split at taken
    · cases taken
      exact .start ‹_›
    · cases taken
  | stop t =>
    simp only [act] at taken
    split at taken
    · cases taken
      exact .stop ‹_›
    · cases taken
  | submit who handle j =>
    simp only [act,Bool.and_eq_true,List.contains_iff_mem] at taken
    split at taken
    · next both =>
      cases taken
      exact .submit both.1 both.2
    · cases taken
  | go who made choice =>
    simp only [act] at taken
    split at taken
    · cases taken
    · next c called =>
      split at taken
      · cases taken
      · next d t events chosen =>
        cases taken
        exact .go called (Call.step_of_mem (List.mem_of_getElem? chosen))
  | handOver who t =>
    simp only [act] at taken
    split at taken
    · next e called =>
      split at taken
      · cases taken
        exact .handOver called ‹_›
      · cases taken
    · cases taken
  | failToHandOver who =>
    simp only [act] at taken
    split at taken
    · next e called =>
      cases taken
      exact .failToHandOver called
    · cases taken
  | «return» who =>
    simp only [act] at taken
    split at taken
    · next c called =>
      split at taken
      · cases taken
        exact .return called ‹_›
      · cases taken
    · cases taken
  | work g choice =>
    simp only [act] at taken
    split at taken
    · cases taken
    · next p t chosen =>
      cases taken
      exact .work (Worker.step_of_mem (List.mem_of_getElem? chosen))
  | finish g panicked =>
    simp only [act] at taken
    split at taken
    · cases taken
      exact .finish ‹_›
    · cases taken
  | settle g =>
    simp only [act] at taken
    split at taken
    · cases taken
      exact .settle ‹_›
    · cases taken
  | interrupt reason =>
    simp only [act] at taken
    split at taken
    · cases taken
    · cases taken
      exact .interrupt (Bool.eq_false_iff.mpr ‹_›)

end System

end ScriptHost
