import ScriptHost.Engine.Value
import Std.Data.HashMap
/-!
Tables of properties. A table keeps the properties in the order in which they were made; a larger one also knows
the place of each name. That it does is part of the table (`Table.Sound`), so that what is found under a name is
what was put there last (`find_insert`, `find_erase`), however large the table is.
-/

namespace ScriptHost.Engine


namespace Table

/-- The number of properties up to which a table is searched from end to end. -/
def small : Nat := 8

/-- A name has a property at a place. -/
def At (entries : Array (Key × Slot)) (k : Key) (i : Nat) : Prop := (entries[i]?).map Prod.fst = some k

/-- The place of every name. -/
def places (entries : Array (Key × Slot)) : Std.HashMap Key Nat :=
  (entries.foldl (fun (m, i) (k, _) => (m.insert k i, i + 1)) ((∅ : Std.HashMap Key Nat), 0)).1

/-- The properties without the one at a place. -/
def cut (entries : Array (Key × Slot)) (i : Nat) : Array (Key × Slot) :=
  (entries.extract 0 i) ++ (entries.extract (i + 1) entries.size)

/-- No name is at two places, and a larger table knows the place of each name. -/
structure Sound (entries : Array (Key × Slot)) (index : Std.HashMap Key Nat) : Prop where
  distinct : ∀ k i j, At entries k i → At entries k j → i = j
  known : small < entries.size → ∀ k i, index[k]? = some i ↔ At entries k i

section
variable {entries : Array (Key × Slot)} {index : Std.HashMap Key Nat} {k k' : Key} {s : Slot} {i j : Nat}

theorem sound_empty : Sound #[] ∅ := ⟨fun k i j place => by simp [At] at place, fun large => by cases large⟩

theorem At.lt_size (place : At entries k i) : i < entries.size := by
  obtain ⟨entry, found, -⟩ := Option.map_eq_some_iff.mp place
  exact (Array.getElem?_eq_some_iff.mp found).1

theorem at_alter : At (alterAt entries i fun (k, _) => (k, s)) k' j ↔ At entries k' j := by
  unfold At alterAt
  rw [Array.getElem?_modify]
  split <;> simp [Option.map_map, Function.comp_def]

theorem at_push : At (entries.push (k, s)) k' j ↔ At entries k' j ∨ k' = k ∧ j = entries.size := by
  unfold At
  rw [Array.getElem?_push]
  by_cases last : j = entries.size
  · simp [last, eq_comm]
  · simp [last]

theorem cut_get (inside : i < entries.size) : (cut entries i)[j]? = entries[if j < i then j else j + 1]? := by
  unfold cut
  rw [Array.getElem?_append]
  have size : (entries.extract 0 i).size = i := by simp; omega
  rw [size]
  by_cases before : j < i
  · rw [if_pos before, if_pos before, Array.getElem?_extract, if_pos (by omega), Nat.zero_add]
  · rw [if_neg before, if_neg before, Array.getElem?_extract]
    split
    · rw [show i + 1 + (j - i) = j + 1 by omega]
    · rw [Array.getElem?_eq_none (show entries.size ≤ j + 1 by omega)]

theorem at_cut (inside : i < entries.size) : At (cut entries i) k j ↔ At entries k (if j < i then j else j + 1) := by
  unfold At
  rw [cut_get inside]

/-- A name is found at its place after the places of some more entries were written down. -/
private theorem places_fold (l : List (Key × Slot)) (m : Std.HashMap Key Nat) (n : Nat)
    (fresh : ∀ (k : Key) (i : Nat), (l[i]?).map Prod.fst = some k → m[k]? = none)
    (distinct : ∀ (k : Key) (i j : Nat), (l[i]?).map Prod.fst = some k → (l[j]?).map Prod.fst = some k → i = j) :
    (l.foldl (fun (m, i) (k, _) => (m.insert k i, i + 1)) (m, n)).1[k]? = some i ↔
      m[k]? = some i ∨ ∃ j, i = n + j ∧ (l[j]?).map Prod.fst = some k := by
  induction l generalizing m n with
  | nil => simp
  | cons e rest ih =>
    obtain ⟨k', s⟩ := e
    have later : ∀ (k : Key) (j : Nat), (rest[j]?).map Prod.fst = some k → k' ≠ k := by
      rintro k j found rfl
      cases distinct k' 0 (j + 1) (by simp) (by simpa using found)
    rw [List.foldl_cons, ih]
    · rw [Std.HashMap.getElem?_insert]
      by_cases own : k' = k
      · subst own
        simp only [beq_self_eq_true, if_true, Option.some.injEq]
        constructor
        · rintro (rfl | ⟨j, rfl, found⟩)
          · exact .inr ⟨0, by simp⟩
          · exact absurd rfl (later k' j found)
        · rintro (old | ⟨j, rfl, found⟩)
          · cases (fresh k' 0 (by simp)).symm.trans old
          · cases distinct k' 0 j (by simp) found
            exact .inl rfl
      · simp only [beq_iff_eq, own, if_false]
        refine or_congr Iff.rfl ⟨?_, ?_⟩
        · rintro ⟨j, rfl, found⟩
          exact ⟨j + 1, by omega, by simpa using found⟩
        · rintro ⟨j, rfl, found⟩
          cases j with
          | zero => exact absurd (by simpa using found) own
          | succ j => exact ⟨j, by omega, by simpa using found⟩
    · intro k j found
      rw [Std.HashMap.getElem?_insert, if_neg (by simpa using later k j found)]
      exact fresh k (j + 1) (by simpa using found)
    · intro k i j one other
      have same := distinct k (i + 1) (j + 1) (by simpa using one) (by simpa using other)
      omega

theorem places_eq (distinct : ∀ k i j, At entries k i → At entries k j → i = j) :
    (places entries)[k]? = some i ↔ At entries k i := by
  unfold places
  rw [← Array.foldl_toList, places_fold]
  · simp [At]
  · simp
  · simpa [At] using distinct

end

end Table

/-- Properties in the order in which they were made. Larger tables also know the place of each name. -/
structure Table where
  entries : Array (Key × Slot) := #[]
  index : Std.HashMap Key Nat := ∅
  sound : Table.Sound entries index := by exact Table.sound_empty

namespace Table

instance : Inhabited Table := ⟨{}⟩

/-! ### Finding -/

/-- The place of a name in a short list. -/
private def search (entries : Array (Key × Slot)) (k : Key) : Nat → Nat → Option Nat
  | 0, _ => none
  | n + 1, i =>
    match entries[i]? with
    | some (k', _) => if k' = k then some i else search entries k n (i + 1)
    | none => none

/-- The place of a name. -/
def place? (t : Table) (k : Key) : Option Nat :=
  if t.entries.size ≤ small then search t.entries k t.entries.size 0 else t.index[k]?

private theorem search_at {entries : Array (Key × Slot)} {k : Key} (n i : Nat) {m : Nat}
    (found : search entries k n i = some m) : At entries k m := by
  induction n generalizing i with
  | zero => cases found
  | succ n ih =>
    simp only [search] at found
    split at found
    · next k' s entry =>
      split at found
      · next own =>
        cases found
        simp [At, entry, own]
      · exact ih (i + 1) found
    · cases found

private theorem search_none {entries : Array (Key × Slot)} {k : Key} (n i : Nat)
    (missed : search entries k n i = none) {m : Nat} (least : i ≤ m) (most : m < i + n) : ¬ At entries k m := by
  induction n generalizing i with
  | zero => omega
  | succ n ih =>
    simp only [search] at missed
    split at missed
    · next k' s entry =>
      split at missed
      · cases missed
      · next other =>
        by_cases here : m = i
        · subst here
          simpa [At, entry] using other
        · exact ih (i + 1) missed (by omega) (by omega)
    · next entry =>
      intro place
      have inside := place.lt_size
      have := Array.getElem?_eq_none_iff.mp entry
      omega

theorem place_eq_some {t : Table} {k : Key} {i : Nat} : t.place? k = some i ↔ At t.entries k i := by
  unfold place?
  split
  · constructor
    · exact search_at _ 0
    · intro place
      cases found : search t.entries k t.entries.size 0 with
      | none => exact absurd place (search_none _ 0 found (Nat.zero_le i) (by have := place.lt_size; omega))
      | some j => rw [t.sound.distinct k j i (search_at _ 0 found) place]
  · next large => exact t.sound.known (by omega) k i

theorem not_at_of_place {t : Table} {k : Key} (none : t.place? k = none) (i : Nat) : ¬ At t.entries k i := by
  intro place
  cases none.symm.trans (place_eq_some.mpr place)

/-- The property of a name. -/
def find? (t : Table) (k : Key) : Option Slot :=
  match t.place? k with
  | some i => (t.entries[i]?).map (·.2)
  | none => none

theorem find_eq_some {t : Table} {k : Key} {s : Slot} :
    t.find? k = some s ↔ ∃ i : Nat, t.entries[i]? = some (k, s) := by
  unfold find?
  constructor
  · intro found
    split at found
    · next i place =>
      obtain ⟨⟨k', s'⟩, entry, rfl⟩ := Option.map_eq_some_iff.mp found
      have own := place_eq_some.mp place
      simp only [At, entry, Option.map_some, Option.some.injEq] at own
      exact ⟨i, own ▸ entry⟩
    · cases found
  · rintro ⟨i, entry⟩
    have place : t.place? k = some i := place_eq_some.mpr (by simp [At, entry])
    rw [place]
    simp [entry]

theorem sound_alter {t : Table} {i : Nat} {s : Slot} :
    Sound (alterAt t.entries i fun (k, _) => (k, s)) t.index := by
  refine ⟨fun k i j one other => t.sound.distinct k i j (at_alter.mp one) (at_alter.mp other), fun large k i => ?_⟩
  rw [at_alter]
  exact t.sound.known (by simpa [alterAt] using large) k i

/-- The places of the names when a new one has come last. -/
def grown (t : Table) (k : Key) : Std.HashMap Key Nat :=
  let n := t.entries.size
  if n < small then t.index else if n = small then (places t.entries).insert k n else t.index.insert k n

theorem sound_push {t : Table} {k : Key} {s : Slot} (new : t.place? k = none) :
    Sound (t.entries.push (k, s)) (t.grown k) := by
  have fresh := not_at_of_place new
  refine ⟨fun k' i j one other => ?_, fun large k' i => ?_⟩
  · rcases at_push.mp one with old | ⟨rfl, rfl⟩
    · rcases at_push.mp other with old' | ⟨rfl, rfl⟩
      · exact t.sound.distinct k' i j old old'
      · exact absurd old (fresh i)
    · rcases at_push.mp other with old | ⟨-, rfl⟩
      · exact absurd old (fresh j)
      · rfl
  · rw [Array.size_push] at large
    have before : (if t.entries.size = small then places t.entries else t.index)[k']? = some i ↔ At t.entries k' i := by
      split
      · exact places_eq t.sound.distinct
      · exact t.sound.known (by omega) k' i
    have split_ : t.grown k = (if t.entries.size = small then places t.entries else t.index).insert k t.entries.size := by
      unfold grown
      rw [if_neg (by omega)]
      split <;> rfl
    rw [split_, Std.HashMap.getElem?_insert, at_push]
    by_cases own : k = k'
    · subst own
      simp [fresh, eq_comm]
    · simp [own, before, Ne.symm own]

/-- Give a name a property; a new name comes last. -/
def insert (t : Table) (k : Key) (s : Slot) : Table :=
  match place : t.place? k with
  | some i => { t with entries := alterAt t.entries i fun (k, _) => (k, s), sound := sound_alter }
  | none => ⟨t.entries.push (k, s), t.grown k, sound_push place⟩

theorem sound_cut {t : Table} {k : Key} {i : Nat} (place : t.place? k = some i) :
    Sound (cut t.entries i) (if (cut t.entries i).size ≤ small then ∅ else places (cut t.entries i)) := by
  have inside : i < t.entries.size := (place_eq_some.mp place).lt_size
  have distinct : ∀ k j j', At (cut t.entries i) k j → At (cut t.entries i) k j' → j = j' := by
    intro k j j' one other
    have same := t.sound.distinct k _ _ ((at_cut inside).mp one) ((at_cut inside).mp other)
    split at same <;> split at same <;> omega
  refine ⟨distinct, fun large k j => ?_⟩
  rw [if_neg (by omega)]
  exact places_eq distinct

/-- Take a name away. -/
def erase (t : Table) (k : Key) : Table :=
  match place : t.place? k with
  | none => t
  | some i =>
    ⟨cut t.entries i, if (cut t.entries i).size ≤ small then ∅ else places (cut t.entries i), sound_cut place⟩

/-- What is under a name once a name has got a property. -/
theorem find_insert (t : Table) (k k' : Key) (s : Slot) :
    (t.insert k s).find? k' = if k' = k then some s else t.find? k' := by
  have entry : ∀ x, (∃ j : Nat, (t.insert k s).entries[j]? = some (k', x)) ↔
      if k' = k then x = s else ∃ j : Nat, t.entries[j]? = some (k', x) := by
    intro x
    unfold insert
    split
    · next i place =>
      have own : At t.entries k i := place_eq_some.mp place
      obtain ⟨⟨k'', s'⟩, found, rfl⟩ := Option.map_eq_some_iff.mp own
      simp only [alterAt, Array.getElem?_modify]
      split
      · next same =>
        subst same
        constructor
        · rintro ⟨j, there⟩
          split at there
          · next here =>
            subst here
            simpa [found, eq_comm] using there
          · next away => exact absurd (t.sound.distinct _ _ _ own (by simp [At, there])) away
        · rintro rfl
          exact ⟨i, by simp [found]⟩
      · next other =>
        refine exists_congr fun j => ?_
        split
        · next here =>
          subst here
          simp [found, Ne.symm other]
        · rfl
    · next new =>
      have fresh := not_at_of_place new
      simp only [Array.getElem?_push]
      split
      · next same =>
        subst same
        constructor
        · rintro ⟨j, there⟩
          split at there
          · exact (Prod.mk.inj (Option.some.inj there)).2.symm
          · exact absurd (by simp [At, there]) (fresh j)
        · rintro rfl
          exact ⟨t.entries.size, by simp⟩
      · next other =>
        constructor
        · rintro ⟨j, there⟩
          split at there
          · exact absurd (Prod.mk.inj (Option.some.inj there)).1.symm other
          · exact ⟨j, there⟩
        · rintro ⟨j, there⟩
          have inside := (Array.getElem?_eq_some_iff.mp there).1
          exact ⟨j, by rw [if_neg (by omega)]; exact there⟩
  refine Option.ext fun x => ?_
  rw [find_eq_some, entry]
  split
  · exact ⟨fun same => same ▸ rfl, fun same => (Option.some.inj same).symm⟩
  · exact find_eq_some.symm

/-- What is under a name once a name has been taken away. -/
theorem find_erase (t : Table) (k k' : Key) : (t.erase k).find? k' = if k' = k then none else t.find? k' := by
  unfold erase
  split
  · next missing =>
    split
    · next same =>
      subst same
      simp [find?, missing]
    · rfl
  · next i place =>
    have own : At t.entries k i := place_eq_some.mp place
    have inside := own.lt_size
    refine Option.ext fun x => ?_
    rw [find_eq_some]
    by_cases same : k' = k
    · subst same
      rw [if_pos rfl]
      simp only [reduceCtorEq, iff_false]
      rintro ⟨j, there⟩
      have left : At (cut t.entries i) k' j := by simp [At, there]
      have same := t.sound.distinct _ _ _ own ((at_cut inside).mp left)
      split at same <;> omega
    · rw [if_neg same, find_eq_some]
      constructor
      · rintro ⟨j, there⟩
        exact ⟨_, (cut_get inside).symm.trans there⟩
      · rintro ⟨j, there⟩
        have away : j ≠ i := by
          rintro rfl
          rw [At, there] at own
          exact same (Option.some.inj own)
        refine ⟨if j < i then j else j - 1, (cut_get inside).trans ?_⟩
        rw [← there]
        congr 1
        split
        · rfl
        · rw [if_neg (by omega)]
          omega

/-- The names: indices rising, then texts and then symbols in the order they were made. -/
def keys (t : Table) : List Key :=
  let all := t.entries.toList.map (·.1)
  let indices := all.filterMap fun k => match k with
    | .index n => some n
    | _ => none
  let texts := all.filter fun k => match k with
    | .text _ => true
    | _ => false
  let symbols := all.filter Key.isSymbol
  (indices.mergeSort (· ≤ ·)).map Key.index ++ texts ++ symbols

end Table

end ScriptHost.Engine
