import ScriptHost.Proofs.Engine.Bookkeeping
import ScriptHost.Proofs.Json.Documents
/-!
What the engine writes as JSON. Scripts run in between, in methods of what is written, in getters and in proxies, and
whatever they do, the text that comes of it is the one of a tree (`gives_stringify`).
-/
namespace ScriptHost.Engine
variable {α β : Type}

/-- Whatever the answers are, `P` is true of the value that the computation ends with, if it ends with one. -/
def Gives (m : M α) (P : α → Prop) : Prop := ∀ w answers a last, (m w).Ends answers (.ok a) last → P a

section
variable {m : M α} {f : α → M β} {P : β → Prop} {Q : α → Prop}

theorem gives_any (m : M α) : Gives m fun _ => True := fun _ _ _ _ _ => trivial

theorem gives_pure {a : α} (holds : Q a) : Gives (pure a) Q := by
  intro w answers b last ends
  cases ends
  exact holds

theorem gives_throwNew (kind : ErrorKind) (text : String) : Gives (throwNew kind text) Q := by
  intro w answers a last ends
  cases ends

theorem Gives.bind (first : Gives m Q) (rest : ∀ a, Q a → Gives (f a) P) : Gives (m >>= f) P := by
  intro w answers b last ends
  obtain ⟨before,after,a,back,-,first',rest'⟩ := ends_bind_ok ends
  exact rest a (first w before a back first') back after b last rest'

/-- Nothing is known of what comes first. -/
theorem gives_then (m : M α) (rest : ∀ a, Gives (f a) P) : Gives (m >>= f) P := (gives_any m).bind fun a _ => rest a

theorem gives_foldlM {σ : Type} {R : σ → Prop} {f : σ → α → M σ} (step : ∀ s a, R s → Gives (f s a) R) (l : List α) (s : σ)
    (holds : R s) : Gives (l.foldlM f s) R := by
  induction l generalizing s with
  | nil => exact gives_pure holds
  | cons a l ih =>
    rw [List.foldlM_cons]
    exact (step s a holds).bind fun t holds => ih t holds

/-- A fold over the first numbers, with something that is true before each of them. -/
theorem gives_foldlM_range {σ : Type} {R : Nat → σ → Prop} {f : σ → Nat → M σ}
    (step : ∀ i s, R i s → Gives (f s i) (R (i+1))) (n : Nat) (s : σ) (holds : R 0 s) :
    Gives ((List.range n).foldlM f s) (R n) := by
  have from_ : ∀ k i s, R i s → Gives ((List.range' i k).foldlM f s) (R (i+k)) := by
    intro k
    induction k with
    | zero => exact fun i s holds => gives_pure holds
    | succ k ih =>
      intro i s holds
      rw [List.range'_succ,List.foldlM_cons]
      refine (step i s holds).bind fun t holds => ?_
      have rest := ih (i+1) t holds
      rwa [Nat.add_right_comm] at rest
  have whole := from_ n 0 s holds
  rwa [Nat.zero_add,← List.range_eq_range'] at whole

end

namespace Builtin
open Json (Doc)
open Json.Doc

theorem writeItems_append (quote : String → String) (ds : List Doc) (d : Doc) (first : Bool) :
    writeItems quote first (ds ++ [d]) =
      writeItems quote first ds ++ ((if first && ds.isEmpty then "" else ",") ++ d.write quote) := by
  induction ds generalizing first with
  | nil => simp [writeItems]
  | cons e ds ih =>
    simp only [List.cons_append,writeItems,ih,Bool.false_and,Bool.false_eq_true,if_false,List.isEmpty_cons,Bool.and_false,
      String.append_assoc]

theorem writeMembers_append (quote : String → String) (ms : List (String × Doc)) (name : String) (d : Doc) (first : Bool) :
    writeMembers quote first (ms ++ [(name,d)]) =
      writeMembers quote first ms ++ ((if first && ms.isEmpty then "" else ",") ++ quote name ++ ":" ++ d.write quote) := by
  induction ms generalizing first with
  | nil => simp [writeMembers]
  | cons m ms ih =>
    simp only [List.cons_append,writeMembers,ih,Bool.false_and,Bool.false_eq_true,if_false,List.isEmpty_cons,
      Bool.and_false,String.append_assoc]

/-- What has been written, if anything was, is a text behind the one before. -/
def Written (acc : String) (r : Option String) : Prop := ∀ out, r = some out → ∃ d : Doc, out = acc ++ d.write quoted

theorem written_some {acc : String} (d : Doc) : Written acc (some (acc ++ d.write quoted)) := by
  intro out same
  cases same
  exact ⟨d,rfl⟩

/-- Items are written one behind another. -/
theorem gives_items {f : String → Nat → M String} (acc : String)
    (each : ∀ s i, Gives (f s i) fun t => ∃ d : Doc, t = s ++ ((if i = 0 then "" else ",") ++ d.write quoted)) (n : Nat) :
    Gives ((List.range n).foldlM f (acc ++ "[")) fun s => ∃ ds, s = acc ++ ("[" ++ writeItems quoted true ds) := by
  have folded := gives_foldlM_range (f := f)
    (R := fun i s => ∃ ds : List Doc, ds.length = i ∧ s = acc ++ ("[" ++ writeItems quoted true ds)) (fun i s holds => ?_) n
    (acc ++ "[") ⟨[],rfl,by simp [writeItems]⟩
  · intro w answers s last ends
    obtain ⟨ds,-,same⟩ := folded w answers s last ends
    exact ⟨ds,same⟩
  · obtain ⟨ds,rfl,rfl⟩ := holds
    intro w answers t last ends
    obtain ⟨d,rfl⟩ := each _ _ w answers t last ends
    refine ⟨ds ++ [d],by simp,?_⟩
    rw [writeItems_append]
    cases ds <;> simp [String.append_assoc]

/-- Members are written one behind another, but for those of which nothing is written. -/
theorem gives_members {f : String × Bool → Key → M (String × Bool)} (acc : String)
    (each : ∀ s k, Gives (f s k) fun t => t = s ∨ ∃ (name : String) (d : Doc),
      t = (s.1 ++ ((if s.2 then "" else ",") ++ quoted name ++ ":" ++ d.write quoted),false)) (keys : List Key) :
    Gives (keys.foldlM f (acc ++ "\x7b",true)) fun s => ∃ ms, s.1 = acc ++ ("\x7b" ++ writeMembers quoted true ms) := by
  have folded := gives_foldlM (f := f)
    (R := fun s => ∃ ms : List (String × Doc), s = (acc ++ ("\x7b" ++ writeMembers quoted true ms),ms.isEmpty))
    (fun s k holds => ?_) keys (acc ++ "\x7b",true) ⟨[],by simp [writeMembers]⟩
  · intro w answers s last ends
    obtain ⟨ms,rfl⟩ := folded w answers s last ends
    exact ⟨ms,rfl⟩
  · obtain ⟨ms,rfl⟩ := holds
    intro w answers t last ends
    rcases each _ k w answers t last ends with rfl | ⟨name,d,rfl⟩
    · exact ⟨ms,rfl⟩
    · refine ⟨ms ++ [(name,d)],?_⟩
      rw [writeMembers_append]
      cases ms <;> simp [String.append_assoc]

/-- Without indentation what is written of a value is the text of a tree. -/
theorem gives_writeValue (w : Writing) (gapless : w.gap = "") (n : Nat) (above : List Nat) (indent : String) (v : Value)
    (acc : String) : Gives (writeValue w n above indent v acc) (Written acc) := by
  induction n generalizing above indent v acc with
  | zero => exact gives_throwNew _ _
  | succ n ih =>
    unfold writeValue
    cases v with
    | null => exact gives_pure (written_some .null)
    | bool b => exact gives_pure (written_some (.bool b))
    | num x =>
      simp only
      split_ifs
      · exact gives_pure (written_some .null)
      · next finite => exact gives_pure (written_some (.num x (Bool.eq_false_iff.mpr finite)))
    | str s => exact gives_pure (written_some (.str s))
    | big _ => exact gives_throwNew _ _
    | undefined | absent | sym _ => exact gives_pure nofun
    | obj id =>
      have empty : "".isEmpty = true := rfl
      simp only [gapless,empty,if_true,Bool.or_true]
      refine gives_then _ fun o => ?_
      split_ifs
      · exact gives_pure nofun
      · exact (gives_throwNew _ _).bind fun _ (no : False) => no.elim
      refine gives_then _ fun _ => gives_then _ fun array => ?_
      split_ifs
      · refine gives_then _ fun length => ?_
        refine (gives_items acc (fun s i => ?_) length).bind fun t written => ?_
        · refine gives_then _ fun u => gives_then _ fun x => ?_
          refine (ih _ _ x _).bind fun out written => gives_pure ?_
          have comma : (if i = 0 then s else s ++ ",") = s ++ (if i = 0 then "" else ",") := by
            split_ifs
            · rw [String.append_empty]
            · rfl
          rw [comma] at written ⊢
          cases out with
          | none => exact ⟨.null,String.append_assoc⟩
          | some out =>
            obtain ⟨d,rfl⟩ := written out rfl
            exact ⟨d,String.append_assoc⟩
        · obtain ⟨ds,rfl⟩ := written
          refine gives_pure ?_
          rw [String.append_assoc]
          exact written_some (.arr ds)
      · split
        all_goals
          refine gives_then _ fun keys => ?_
          refine (gives_members acc (fun s k => ?_) keys).bind fun t written => ?_
          · refine gives_then _ fun u => gives_then _ fun x => ?_
            refine (ih _ _ x _).bind fun out written => ?_
            have comma : (if s.2 = true then s.1 else s.1 ++ ",") = s.1 ++ (if s.2 then "" else ",") := by
              split_ifs
              · rw [String.append_empty]
              · rfl
            rw [comma] at written
            cases out with
            | none => exact gives_pure (.inl rfl)
            | some out =>
              obtain ⟨d,rfl⟩ := written out rfl
              exact gives_pure (.inr ⟨k.shown,d,by simp only [String.append_assoc]⟩)
          · obtain ⟨ms,same⟩ := written
            refine gives_pure ?_
            rw [same,String.append_assoc]
            exact written_some (.obj ms)

/-- What is written of a value, if anything is, is the text of a tree. -/
theorem gives_stringify (v : Value) : Gives (stringify v .undefined .undefined) fun r =>
    r = .undefined ∨ ∃ d : Doc, r = .str (d.write quoted) := by
  have gap : Gives (gapFrom .undefined) (· = "") := gives_pure rfl
  unfold stringify
  refine gives_then _ fun array => ?_
  split_ifs
  all_goals
    refine gives_then _ fun names => gives_then _ fun callable => ?_
    split_ifs
    all_goals
      refine gives_then _ fun replacer => gap.bind fun gap gapless => gives_then _ fun holder => gives_then _ fun v => ?_
      refine (gives_writeValue _ gapless deepestValue [] "" v "").bind fun out written => ?_
      cases out with
      | none => exact gives_pure (.inl rfl)
      | some out =>
        obtain ⟨d,rfl⟩ := written out rfl
        exact gives_pure (.inr ⟨d,by rw [String.empty_append]⟩)

end Builtin
end ScriptHost.Engine
