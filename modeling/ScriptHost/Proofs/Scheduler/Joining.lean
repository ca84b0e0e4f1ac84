import ScriptHost.Proofs.Scheduler.History
/-!
Whose worker a stop waits for. A stop takes the handle that it finds once its generation has ended, whose
worker is that of the newest generation. That is its own one only as long as nobody has started the
scheduler again in between; otherwise the stop waits for a worker that may run for as long as it likes.
-/
namespace ScriptHost
namespace System
variable {J : Type}

/-- Generations are opened one after another. -/
theorem Orderly.opened_between {σ : System J} (orderly : Orderly σ) {later earlier : List (Event J)}
    (same : σ.history = later ++ earlier) {g w : Nat} (opened : .opened w ∈ earlier) (first : 1 ≤ g)
    (le : g ≤ w) : .opened g ∈ earlier := by
  rcases Nat.eq_or_lt_of_le le with newest | older
  · exact newest ▸ opened
  · obtain ⟨last,before,split⟩ := List.append_of_mem opened
    have lawful := orderly.recorded.lawful
    rw [same,split,← List.append_assoc] at lawful
    obtain ⟨-,between⟩ := lawful.split.1
    exact split ▸ List.mem_append_right last (List.mem_cons_of_mem _ (between g first older))

/-- A stop waits for the worker of the newest generation that there was when it took the handle, and so for
    that of its own generation just if nobody had started the scheduler again by then. -/
theorem joined_newest {first : J} {capacity : Nat} {σ : System J} (reached : Reachable first capacity σ)
    {later earlier : List (Event J)} {g w : Nat} (joined : σ.history = later ++ .joined g w :: earlier) :
    (g ≤ w ∧ .opened w ∈ earlier ∧ .opened (w+1) ∉ earlier) ∧ (w = g ↔ .opened (g+1) ∉ earlier) := by
  have orderly := orderly_of_reachable reached
  obtain ⟨le,opened,last⟩ := (joined ▸ orderly.recorded.lawful).split.1
  refine ⟨⟨le,opened,last⟩,?_⟩
  constructor
  · intro own
    exact own ▸ last
  · intro alone
    by_contra other
    have split : σ.history = (later ++ [.joined g w]) ++ earlier := by simp [joined]
    exact alone (orderly.opened_between split opened (by omega) (by omega))

/-- A thread starts the scheduler and stops it; between the end of its generation and its look for the handle
    another thread starts the scheduler again. -/
def overtaking : List (Action Unit) :=
  List.flatten [
    [.start (.thread 0)],List.replicate 8 (.go (.thread 0) (.ok ()) 0),[.return (.thread 0)],
    List.replicate 6 (.work 1 0),[.finish 1 false,.work 1 0,.settle 1,.stop 0],
    List.replicate 3 (.go (.thread 0) (.ok ()) 0),List.replicate 9 (.work 1 0),[.settle 1,.work 1 0],
    [.start (.thread 1)],List.replicate 8 (.go (.thread 1) (.ok ()) 0),
    List.replicate 2 (.go (.thread 0) (.ok ()) 0)]

theorem joined_newest_overtaking : ∃ σ : System Unit, ∃ earlier : List (Event Unit),
    (init 2).run () overtaking = some σ ∧ σ.history = [] ++ .joined 1 2 :: earlier ∧
      (1 ≤ 2 ∧ .opened 2 ∈ earlier ∧ .opened (2+1) ∉ earlier) ∧ (2 = 1 ↔ .opened (1+1) ∉ earlier) := by
  have latest : ((init 2).run () overtaking).map (·.history.head?) = some (some (.joined 1 2)) := rfl
  obtain ⟨σ,ran,head⟩ := Option.map_eq_some_iff.mp latest
  obtain ⟨earlier,joined⟩ := List.head?_eq_some_iff.mp head
  have split : σ.history = [] ++ .joined 1 2 :: earlier := joined
  exact ⟨σ,earlier,ran,split,joined_newest (.run .init overtaking ran) split⟩

/-- The stop of generation 1 waits for worker 2 and can do nothing else, while generation 2 runs. -/
theorem stop_waits_for_later_worker : ∃ σ : System Unit, Reachable () 2 σ ∧ .joined 1 2 ∈ σ.history ∧
    σ.call? (.thread 0) = some (.stop (.joins 1 2)) ∧
    (Stopping.joins 1 2).next σ.isFinished σ.scheduler ++ ((Stopping.joins 1 2).late σ.scheduler).toList = [] ∧
    σ.isFinished 1 = true ∧ σ.scheduler.running = true ∧ σ.scheduler.generation = 2 := by
  have facts : ((init 2).run () overtaking).map (fun σ => (σ.history.head?,σ.call? (.thread 0),
      σ.isFinished 1,σ.isFinished 2,σ.scheduler.running,σ.scheduler.generation)) =
    some (some (.joined 1 2),some (.stop (.joins 1 2)),true,false,true,2) := rfl
  obtain ⟨σ,ran,values⟩ := Option.map_eq_some_iff.mp facts
  simp only [Prod.mk.injEq] at values
  obtain ⟨head,call,gone,live,runs,newest⟩ := values
  refine ⟨σ,.run .init overtaking ran,List.mem_of_head? head,call,?_,gone,runs,newest⟩
  simp [Stopping.next,Stopping.late,live]

end System

end ScriptHost
