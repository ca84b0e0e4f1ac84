import ScriptHost.Proofs.Engine.Rejections
import ScriptHost.Proofs.Evaluation.Deciding
import ScriptHost.Proofs.Timers.Table
/-!
Rejections as outcomes. When the look that decides comes upon a rejection, the evaluation ends with what the value is
taken for (`Engine.Classified`): with the error that it is, or with its text. Only where a text could not be had, or is
none of characters, it ends with a failure of the engine, and for symbols, which have a text that is not asked for.
-/
namespace ScriptHost
open Engine (World Value Answer Thrown Told Listener)
variable {τ : Type}

namespace Course

section
variable {c : Plan} {first : Work τ} {backoff : Backoff} {capacity n : Nat} {x : Errand} {p q start : Course τ}
  {l : Listener} {calls : Option (List Told)} {told : List Told} {answers rest : List Answer} {middle last : World}
  {r : Except Thrown (Work τ)} {v : Value}

/-- What a look comes upon after a rejection, which is the outcome. -/
theorem ends_of_rejection (handed : HandedIn c first capacity start) (tale : Tale c first backoff l start calls p)
    (running : p.running? c = some (n,x.doing c)) (looking : x.looksAtOutcome = true)
    (possible : p.Possible c (.compute answers r last)) (taken : p.act c first backoff (.compute answers r last) = some q)
    (looks : x.Looks c p.world answers middle rest) (heard : l.Heard c.stateName p.world middle calls (some told))
    (decides : Engine.verdict told = some ⟨true,v⟩) :
    ∃ f, (Engine.classifyRejection v middle).Ends rest (.ok f) last ∧
      r = .ok (Evaluation.offering c.number (some (.error f))) ∧ q.Settles c first backoff (.error f) := by
  obtain ⟨k,e,known⟩ := tale.sound handed
  obtain ⟨k,e,sound,undecided⟩ := tale.undecided handed (known.live_of_running running)
  obtain ⟨m,job⟩ : ∃ m, (x.job c : Work τ) = .engine m := by
    cases x with
    | follow v => exact ⟨_,rfl⟩
    | look => exact ⟨_,rfl⟩
    | script | clean => cases looking
  obtain ⟨found,looked,rfl⟩ := looks.ends job (possible n _ m running job)
  have tells : l.Tells c.stateName middle told := tale.knows.heard heard
  rcases tells.ends_outcomeAt looked with ⟨silent,-⟩ | ⟨t,o,same,comes,rfl⟩
  · cases decides.symm.trans silent
  · cases decides.symm.trans same
    obtain ⟨before,after,f,back,rfl,classified,told⟩ := Engine.ends_bind_ok comes
    cases told
    rw [List.append_nil]
    exact ⟨f,classified,rfl,undecided.settles sound running looking taken⟩

/-- Where a promise is rejected, whatever the value is, the evaluation ends with what the value is taken for. -/
theorem outcome_of_rejection (handed : HandedIn c first capacity start) (tale : Tale c first backoff l start calls p)
    (running : p.running? c = some (n,x.doing c)) (looking : x.looksAtOutcome = true)
    (possible : p.Possible c (.compute answers r last)) (taken : p.act c first backoff (.compute answers r last) = some q)
    (looks : x.Looks c p.world answers middle rest) (heard : l.Heard c.stateName p.world middle calls (some told))
    (decides : Engine.verdict told = some ⟨true,v⟩) :
    ∃ f, Engine.Classified middle v rest last f ∧
      r = .ok (Evaluation.offering c.number (some (.error f))) ∧ q.Settles c first backoff (.error f) := by
  obtain ⟨f,ends,same,settles⟩ := ends_of_rejection handed tale running looking possible taken looks heard decides
  obtain ⟨f',same',classified⟩ := Engine.ends_classifyRejection ends
  cases same'
  exact ⟨f,classified,same,settles⟩

end

namespace Unsettled

/-- A promise that is rejected with an empty text ends with this text. -/
theorem outcome_of_empty_text : ∃ (start p q : Course Unit) (n : Nat), HandedIn plan .done 2 start ∧
    Tale plan .done backoff listener start (some [refused,kept]) p ∧
    p.running? plan = some (n,Errand.look.doing plan) ∧
    p.act plan .done backoff (.compute [] (.ok (Evaluation.offering 0 (some (.error refusal)))) p.world) = some q ∧
    Engine.Classified p.world refused.value [] p.world refusal ∧ q.Settles plan .done backoff (.error refusal) := by
  obtain ⟨start,p,n,handed,tale,-,running,world⟩ := tale_listens
  obtain ⟨-,tale⟩ := tales_of_calls tale world
  have possible := possible_of_calls tale running rfl (outcome_refused rejected)
  obtain ⟨q,taken⟩ := taken_of_calls running (.error refusal) rejected
  obtain ⟨f,classified,-,settles⟩ := outcome_of_rejection handed tale running rfl possible taken .look (.more .start) rfl
  obtain rfl : f = refusal := by
    cases classified with
    | error stack same => cases same
    | symbol same => cases same
    | judged plain other ends judged =>
      cases ends
      have fine : Text.wellFormed? "" = .ok "" := by simp [Text.wellFormed?,String.any]
      cases judged with
      | rejected whole like =>
        cases fine.symm.trans whole
        obtain ⟨word,rest,same,-⟩ := like
        simp at same
      | other whole unlike named =>
        cases fine.symm.trans whole
        rcases named with ⟨impossible,-⟩ | ⟨-,kind⟩
        · cases impossible
        · cases kind
          rfl
      | broken broken => cases fine.symm.trans broken
  exact ⟨start,_,q,n,handed,tale,running,taken,classified,settles⟩

theorem spares_symbols {l : Listener} {name : String} {w : World} (inside : Engine.Intrinsic.global.id < w.heap.size)
    (symbols : Array (Option String)) : l.Spares name w { w with symbols } := by
  have ext : w.Extends { w with symbols } := ⟨Nat.le_refl _,fun _ _ => rfl⟩
  exact ⟨Nat.le_refl _,rfl,fun _ => rfl,rfl,.extended inside ext name⟩

/-- The callbacks wait to be called, and there is a symbol with a description. -/
def described : World := { listening with symbols := #[some "x"] }

/-- A promise is rejected with the symbol. -/
def symbolic : Told := ⟨true,.sym 0⟩

/-- The callback of a rejection was called with the symbol. -/
def unspoken : World := described.noted 40 symbolic.notes

/-- The follower looks at what is found. -/
theorem possible_of_looked {p : Course Unit} {n : Nat} {o : Except Failure Json} {last : World}
    (running : p.running? plan = some (n,Errand.look.doing plan))
    (looked : (Engine.outcomeAt "state" p.world).Ends [] (.ok (some o)) last) :
    p.Possible plan (.compute [] (.ok (Evaluation.offering 0 (some o))) last) := by
  intro n' d m running' engine
  cases running.symm.trans running'
  cases engine
  exact Standing.ends_compute_ok looked

theorem report_symbolic (w : World) : Engine.report [symbolic] w = .ok (some (.error (.engine Engine.thrownText)))
    (w.makeError .type "cannot convert symbol to string").2 := rfl

/-- `String` has a text for the symbol, but the evaluation ends with a failure of the engine. -/
theorem outcome_of_symbol : ∃ (start p q : Course Unit) (n : Nat) (last : World), HandedIn plan .done 2 start ∧
    Tale plan .done backoff listener start (some [symbolic]) p ∧
    p.running? plan = some (n,Errand.look.doing plan) ∧
    p.act plan .done backoff
      (.compute [] (.ok (Evaluation.offering 0 (some (.error (.engine Engine.thrownText))))) last) = some q ∧
    Engine.stringOf symbolic.value p.world = .ok (.str "Symbol(x)") p.world ∧
    q.Settles plan .done backoff (.error (.engine Engine.thrownText)) := by
  obtain ⟨start,p,n,handed,tale,-,running,world⟩ := tale_listens
  have spares : listener.Spares "state" listening described := spares_symbols tells_listening.keeps.inside _
  have tells := tells_listening.spared spares
  have hears := hears_call tells symbolic nofun
  have waits : listener.Hears "state" p.world [] described := world ▸ .other .start spares
  have silent : Tale plan .done backoff listener start (some []) { p with world := described } :=
    .act (.elsewhere described p.desk) tale rfl trivial id rfl (.more waits)
  have tale : Tale plan .done backoff listener start (some [symbolic]) { p with world := unspoken } :=
    .act (.elsewhere unspoken p.desk) silent rfl trivial id rfl (.more hears)
  have tells : listener.Tells "state" unspoken [symbolic] := tells.hears hears
  have found := tells.outcomeAt.trans (report_symbolic unspoken)
  obtain ⟨last,found⟩ : ∃ last, Engine.outcomeAt "state" unspoken =
      .ok (some (.error (.engine Engine.thrownText))) last := ⟨_,found⟩
  have looked : (Engine.outcomeAt "state" unspoken).Ends [] (.ok (some (.error (.engine Engine.thrownText)))) last := by
    rw [found]
    exact .ok
  have running : Course.running? plan { p with world := unspoken } = some (n,Errand.look.doing plan) := running
  have possible := possible_of_looked running looked
  obtain ⟨q,taken⟩ := taken_of_calls running (.error (.engine Engine.thrownText)) last
  obtain ⟨f,ends,-,settles⟩ := ends_of_rejection handed tale running rfl possible taken .look (.more .start) rfl
  cases ends
  exact ⟨start,_,q,n,_,handed,tale,running,taken,rfl,settles⟩

end Unsettled

end Course

end ScriptHost
