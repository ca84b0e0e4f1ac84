import ScriptHost.Proofs.Path.Normal
/-!
Walks along joined paths, and normal spellings written step by step. A walk along `p.join q` goes on along `q` from
where `p` leads (`walk_join`), and from any start the normal spelling of a path leads where the path leads. So a path
may be cleaned before another one is joined to it. `rebuilt` writes the normal spelling as it goes, with an eye on
nothing but the last component of what is written already, and ends with `clean` (`rebuilt_eq_clean`). `Tidy` says of
the text and the components what a normal spelling looks like; just the normal spellings are tidy (`normal_iff_tidy`).
-/
namespace ScriptHost.Path

/-! ### Walks from any start -/

/-- The place to which a path leads from a place. -/
def walk (p : Path) (start : Place) : Place := p.components.foldl Place.step start

/-- So many steps up. -/
def Place.climb (start : Place) : Nat → Place
  | 0 => start
  | n + 1 => (start.climb n).step .up

/-- Where a walk from `start` ends that takes the steps of one that ends in `spot`. -/
def Place.reach (start spot : Place) : Place :=
  if spot.rooted then spot
  else { start.climb spot.above with below := spot.below ++ (start.climb spot.above).below }

theorem Place.reach_step (start spot : Place) (c : Component) : (start.reach spot).step c = start.reach (spot.step c) := by
  obtain ⟨rooted,above,below⟩ := spot
  cases c with
  | root => rfl
  | here => rfl
  | name s => cases rooted <;> rfl
  | up =>
    cases below with
    | cons s outer => cases rooted <;> rfl
    | nil => cases rooted <;> rfl

theorem walk_eq_reach (p : Path) (start : Place) : p.walk start = start.reach p.place := by
  have walks : ∀ (cs : List Component) (spot : Place),
      cs.foldl Place.step (start.reach spot) = start.reach (cs.foldl Place.step spot) := by
    intro cs
    induction cs with
    | nil => exact fun _ => rfl
    | cons c cs ih =>
      intro spot
      rw [List.foldl_cons,List.foldl_cons,Place.reach_step,ih]
  exact walks p.components ⟨false,0,[]⟩

/-- Paths that lead to one place from the current directory do so from anywhere. -/
theorem walk_congr {p q : Path} (same : p.place = q.place) (start : Place) : p.walk start = q.walk start := by
  rw [walk_eq_reach,walk_eq_reach,same]

/-! ### Joined paths -/

/-- The steps of a path, without the root and the leading `.`. -/
def moves (p : Path) : List Component := (pieces p.text.toList).filterMap stepOf

theorem walk_eq_moves (p : Path) (start : Place) :
    p.walk start = p.moves.foldl Place.step (if p.isAbsolute then ⟨true,0,[]⟩ else start) := by
  unfold walk components moves
  cases p.isAbsolute with
  | true => rfl
  | false =>
    simp only [Bool.false_eq_true,if_false]
    split <;> rfl

variable {p q : Path}

theorem join_of_relative (relative : q.isAbsolute = false) : p.join q = ⟨withSeparator p.text ++ q.text⟩ := by
  simp [join,relative]

theorem moves_join (relative : q.isAbsolute = false) : (p.join q).moves = p.moves ++ q.moves := by
  rw [join_of_relative relative]
  unfold moves withSeparator
  by_cases empty : p.text.isEmpty = true
  · have none : p.text = "" := String.isEmpty_iff.mp empty
    simp [none,pieces,stepOf]
  · by_cases slash : p.text.toList.getLast? = some '/'
    · -- The text ends in a slash, after which there is an empty piece.
      obtain ⟨front,spelled⟩ := List.getLast?_eq_some_iff.mp slash
      have joined : (p.text ++ q.text).toList = front ++ '/' :: q.text.toList := by simp [spelled]
      simp [joined,spelled,pieces_append_slash,pieces,stepOf]
    · have joined : (p.text ++ "/" ++ q.text).toList = p.text.toList ++ '/' :: q.text.toList := by simp
      simp only [Bool.not_eq_true] at empty
      simp [empty,slash,pieces_append_slash]

theorem isAbsolute_join_of_relative (relative : q.isAbsolute = false) : (p.join q).isAbsolute = p.isAbsolute := by
  rw [join_of_relative relative]
  unfold isAbsolute at *
  by_cases empty : p.text = ""
  · simpa [withSeparator,empty] using relative
  · obtain ⟨c,rest,spelled⟩ := List.exists_cons_of_ne_nil fun none => empty (String.toList_eq_nil_iff.mp none)
    have first : ∃ more, (withSeparator p.text).toList = c :: more := by
      unfold withSeparator
      split
      · exact ⟨rest,spelled⟩
      · exact ⟨rest ++ ['/'],by simp [spelled]⟩
    obtain ⟨more,kept⟩ := first
    simp [kept,spelled]

/-- A walk along a joined path goes on along the second from where the first leads. -/
theorem walk_join (p q : Path) (start : Place) : (p.join q).walk start = q.walk (p.walk start) := by
  by_cases absolute : q.isAbsolute = true
  · rw [join,if_pos absolute,walk_eq_moves q,walk_eq_moves q,if_pos absolute,if_pos absolute]
  · have relative : q.isAbsolute = false := by simpa using absolute
    rw [walk_eq_moves,moves_join relative,isAbsolute_join_of_relative relative,List.foldl_append,walk_eq_moves q,
      if_neg absolute,walk_eq_moves p]

theorem place_join (p q : Path) : (p.join q).place = q.walk p.place := walk_join p q _

theorem clean_join (p q : Path) : (p.join q).clean = (p.clean.join q).clean := by
  refine congrArg Place.path ?_
  rw [place_join,place_join,place_clean]

/-! ### The normal form -/

/-- A path in normal form: not empty, no `.` but as the whole of it, `..` only in front of everything else, and with
its components spelled out, a slash between them. -/
structure Tidy (p : Path) : Prop where
  filled : p.text ≠ ""
  here : .here ∈ p.components → p.components = [.here]
  ups : ∀ front rest, p.components = front ++ .up :: rest → ∀ c ∈ front, c = .up
  spelled : p.text = (if p.isAbsolute then "/" else "") ++
    "/".intercalate ((p.components.filter (· ≠ .root)).map Component.text)

/-- A place spelled step by step, which leaves nothing to write where the walk starts. -/
def Place.draft (spot : Place) : Path := ⟨(if spot.rooted then "/" else "") ++ "/".intercalate spot.steps⟩

section
variable {spot : Place}

theorem Place.path_eq_draft (spot : Place) : spot.path = if spot.draft.text.isEmpty then ⟨"."⟩ else spot.draft := by
  unfold Place.path Place.draft
  cases spot.rooted with
  | true => simp
  | false => simp

theorem Place.draft_start (relative : spot.rooted = false) (start : spot.steps = []) : spot.draft = ⟨""⟩ := by
  simp [Place.draft,relative,start]

theorem Place.Proper.draft_ne_empty (proper : spot.Proper) (away : spot.rooted = true ∨ spot.steps ≠ []) :
    spot.draft.text ≠ "" := by
  by_cases rooted : spot.rooted = true
  · simp [Place.draft,rooted,← String.toList_eq_nil_iff]
  · obtain ⟨c,rest,spelled,-⟩ := proper.head_steps (away.resolve_left rooted)
    simp [Place.draft,rooted,← String.toList_eq_nil_iff,spelled]

theorem Place.Proper.path_eq_draft (proper : spot.Proper) (away : spot.rooted = true ∨ spot.steps ≠ []) :
    spot.path = spot.draft := by
  rw [Place.path_eq_draft,if_neg (by simpa using proper.draft_ne_empty away)]

theorem Place.Proper.isAbsolute_draft (proper : spot.Proper) : spot.draft.isAbsolute = spot.rooted := by
  by_cases start : spot.steps = []
  · cases rooted : spot.rooted <;> simp [Place.draft,isAbsolute,rooted,start]
  · obtain ⟨c,rest,spelled,apart⟩ := proper.head_steps start
    cases rooted : spot.rooted <;> simp [Place.draft,isAbsolute,rooted,spelled,apart]

theorem Place.Proper.components_draft (proper : spot.Proper) :
    spot.draft.components = (if spot.rooted then [.root] else []) ++ spot.trail := by
  cases rooted : spot.rooted with
  | true =>
    rw [← proper.path_eq_draft (.inl rooted),proper.components_rooted rooted]
    rfl
  | false =>
    by_cases start : spot.steps = []
    · obtain ⟨nowhere,flat⟩ : spot.above = 0 ∧ spot.below = [] := by simpa [Place.steps] using start
      rw [Place.draft_start rooted start,Place.trail,nowhere,flat]
      rfl
    · rw [← proper.path_eq_draft (.inr start),proper.components_relative rooted,if_neg start]
      rfl

theorem Place.trail_text (spot : Place) : spot.trail.map Component.text = spot.steps := by
  unfold Place.trail Place.steps
  rw [List.map_append,List.map_replicate,List.map_map]
  congr 1
  exact List.map_id _

theorem Place.trail_plain {c : Component} (member : c ∈ spot.trail) : c ≠ .root ∧ c ≠ .here := by
  rcases List.mem_append.mp member with up | below
  · rw [List.eq_of_mem_replicate up]
    exact ⟨nofun,nofun⟩
  · obtain ⟨s,-,rfl⟩ := List.mem_map.mp below
    exact ⟨nofun,nofun⟩

/-- Before a step up there are only steps up. -/
theorem Place.ups_of_trail {front rest : List Component} (same : spot.trail = front ++ .up :: rest) :
    ∀ c ∈ front, c = .up := by
  unfold Place.trail at same
  rcases List.append_eq_append_iff.mp same with ⟨more,split,names⟩ | ⟨more,ups,later⟩
  · -- No name is a step up.
    have named : .up ∈ spot.below.reverse.map Component.name := by simp [names]
    obtain ⟨s,-,same⟩ := List.mem_map.mp named
    cases same
  · intro c member
    exact List.eq_of_mem_replicate (ups ▸ List.mem_append_left more member)

theorem tidy_here : (⟨"."⟩ : Path).Tidy := by
  have components : (⟨"."⟩ : Path).components = [.here] := by decide
  constructor
  · decide
  · exact fun _ => components
  · intro front rest same
    rw [components] at same
    cases front with
    | nil => exact nofun
    | cons c front => simp at same
  · rw [components]
    decide

/-- The texts of the components of a place, without the root. -/
theorem Place.spelled_trail (spot : Place) :
    (((if spot.rooted then [Component.root] else []) ++ spot.trail).filter (· ≠ .root)).map Component.text =
      spot.steps := by
  have plain : spot.trail.filter (· ≠ .root) = spot.trail :=
    List.filter_eq_self.mpr fun _ member => by simpa using (trail_plain member).1
  rw [List.filter_append,plain,List.map_append,Place.trail_text]
  cases spot.rooted <;> rfl

/-- Normal spellings of proper places are tidy. -/
theorem Place.Proper.tidy (proper : spot.Proper) : spot.path.Tidy := by
  by_cases away : spot.rooted = true ∨ spot.steps ≠ []
  · have components := proper.components_draft
    rw [proper.path_eq_draft away]
    constructor
    · exact proper.draft_ne_empty away
    · intro here
      rw [components] at here
      rcases List.mem_append.mp here with root | member
      · split at root <;> simp at root
      · exact absurd rfl (trail_plain member).2
    · intro front rest same
      rw [components] at same
      by_cases rooted : spot.rooted = true
      · -- There is nothing above the root.
        have up : .up ∈ (if spot.rooted then [.root] else []) ++ spot.trail := by simp [same]
        simp [rooted,Place.trail,proper.top rooted] at up
      · rw [if_neg rooted,List.nil_append] at same
        exact Place.ups_of_trail same
    · rw [components,Place.spelled_trail,proper.isAbsolute_draft,Place.draft]
  · obtain ⟨relative,start⟩ := not_or.mp away
    have here : spot.path = ⟨"."⟩ := by simp [Place.path,relative,Classical.not_not.mp start]
    rw [here]
    exact tidy_here

end

theorem plain_of_mem_moves {p : Path} {c : Component} (member : c ∈ p.moves) : c = .up ∨ ∃ s, c = .name s := by
  obtain ⟨piece,-,step⟩ := List.mem_filterMap.mp member
  unfold stepOf at step
  split at step
  · cases step
  · split at step
    · exact .inl (Option.some.inj step).symm
    · exact .inr ⟨_,(Option.some.inj step).symm⟩

/-- Steps of which those up stand in front are a run up and then names. -/
theorem run_of_ups {cs : List Component} (plain : ∀ c ∈ cs, c = .up ∨ ∃ s, c = .name s)
    (ups : ∀ front rest, cs = front ++ .up :: rest → ∀ c ∈ front, c = .up) :
    ∃ n names, cs = List.replicate n .up ++ List.map Component.name names := by
  induction cs with
  | nil => exact ⟨0,[],rfl⟩
  | cons c cs ih =>
    have later : ∀ front rest, cs = front ++ .up :: rest → ∀ d ∈ c :: front, d = .up := fun front rest same =>
      ups (c :: front) rest (by rw [same]; rfl)
    obtain ⟨n,names,run⟩ := ih (fun d member => plain d (List.mem_cons_of_mem c member))
      fun front rest same d member => later front rest same d (List.mem_cons_of_mem c member)
    rcases plain c List.mem_cons_self with rfl | ⟨s,rfl⟩
    · exact ⟨n+1,names,by rw [run]; rfl⟩
    · cases n with
      | zero => exact ⟨0,s :: names,by rw [run]; rfl⟩
      | succ n =>
        have up := later [] _ run (.name s) List.mem_cons_self
        cases up

/-- Just the tidy paths are left alone by cleaning. -/
theorem normal_iff_tidy (p : Path) : p.Normal ↔ p.Tidy := by
  constructor
  · intro normal
    rw [← normal]
    exact (place_proper p).tidy
  · intro tidy
    by_cases dot : .here ∈ p.components
    · have text := tidy.spelled
      have relative : p.isAbsolute = false := by
        rw [← Bool.not_eq_true]
        intro absolute
        have components := tidy.here dot
        simp [Path.components,absolute] at components
      rw [tidy.here dot,relative] at text
      have same : p = ⟨"."⟩ := congrArg Path.mk text
      rw [same]
      unfold Normal
      decide
    · have components : p.components = (if p.isAbsolute then [.root] else []) ++ p.moves := by
        simp only [Path.components] at dot ⊢
        by_cases absolute : p.isAbsolute = true
        · simp only [if_pos absolute]
          rfl
        · simp only [if_neg absolute] at dot ⊢
          by_cases first : (pieces p.text.toList).head? = some ['.']
          · simp [first] at dot
          · rw [if_neg first]
            rfl
      have ups : ∀ front rest, p.moves = front ++ .up :: rest → ∀ c ∈ front, c = .up := by
        intro front rest same c member
        refine tidy.ups ((if p.isAbsolute then [.root] else []) ++ front) rest ?_ c (List.mem_append_right _ member)
        rw [components,same,List.append_assoc]
      obtain ⟨n,names,run⟩ := run_of_ups (fun _ => plain_of_mem_moves) ups
      have top : p.isAbsolute = true → n = 0 := by
        intro absolute
        cases n with
        | zero => rfl
        | succ n =>
          have root := tidy.ups [.root] (List.replicate n .up ++ names.map .name)
            (by rw [components,if_pos absolute,run]; rfl) .root List.mem_cons_self
          cases root
      have place : p.place = ⟨p.isAbsolute,n,names.reverse⟩ := by
        have walked := walk_eq_moves p ⟨false,0,[]⟩
        rw [run,List.foldl_append] at walked
        unfold Path.place
        rw [← walk,walked]
        cases absolute : p.isAbsolute with
        | true => simp [top absolute,foldl_names]
        | false => simp [foldl_ups,foldl_names]
      have trail : p.place.trail = p.moves := by
        rw [place,run,Place.trail,List.reverse_reverse]
      have drafted : p.place.draft = p := by
        refine congrArg Path.mk ?_
        rw [tidy.spelled,components,← trail,← Place.spelled_trail,place]
      have proper := place_proper p
      have away : p.place.rooted = true ∨ p.place.steps ≠ [] := by
        refine Classical.byContradiction fun start => tidy.filled ?_
        obtain ⟨relative,start⟩ := not_or.mp start
        rw [← drafted,Place.draft_start (by simpa using relative) (Classical.not_not.mp start)]
      exact (proper.path_eq_draft away).trans drafted

/-! ### Writing the normal spelling -/

/-- What has been written, and one component more: a step up takes a last name back, leaves the root as it is, and is
written down else. -/
def extend (out : Path) : Component → Path
  | .here => out
  | .up =>
    match out.components.getLast? with
    | some (.name _) => out.parent.getD out
    | some .root => out
    | _ => out.join ⟨".."⟩
  | c => out.join ⟨c.text⟩

/-- The components of a path written one by one, and `.` where that comes to nothing. -/
def rebuilt (p : Path) : Path :=
  let out := p.components.foldl extend ⟨""⟩
  if out.text.isEmpty then ⟨"."⟩ else out

section
variable {spot : Place}

/-- A step joined to what is written of a place. -/
theorem Place.Proper.draft_join (proper : spot.Proper) {other : Place} (fine : other.Proper) {s : String}
    (slashless : '/' ∉ s.toList) (rooted : other.rooted = spot.rooted) (steps : other.steps = spot.steps ++ [s]) :
    spot.draft.join ⟨s⟩ = other.draft := by
  by_cases away : spot.rooted = true ∨ spot.steps ≠ []
  · rw [← proper.path_eq_draft away,← fine.path_eq_draft (.inr (by simp [steps]))]
    exact proper.join_step fine slashless rooted steps away
  · obtain ⟨relative,start⟩ := not_or.mp away
    have relative : spot.rooted = false := by simpa using relative
    have start : spot.steps = [] := Classical.not_not.mp start
    have first : (⟨s⟩ : Path).isAbsolute = false := by
      rw [← Bool.not_eq_true,isAbsolute_iff]
      rintro ⟨rest,spelled⟩
      exact slashless (by simp [spelled])
    rw [Place.draft_start relative start,join_of_relative first]
    simp [Place.draft,rooted,relative,steps,start,withSeparator]

/-- Without its last component a spelling is that of the place around. -/
theorem Place.Proper.parent_draft {rooted : Bool} {above : Nat} {s : String} {outer : List String}
    (proper : (⟨rooted,above,s :: outer⟩ : Place).Proper) :
    (⟨rooted,above,s :: outer⟩ : Place).draft.parent = some (⟨rooted,above,outer⟩ : Place).draft := by
  have steps : (⟨rooted,above,s :: outer⟩ : Place).steps = (⟨rooted,above,outer⟩ : Place).steps ++ [s] := by
    simp [Place.steps]
  have chars : (if (⟨rooted,above,s :: outer⟩ : Place).draft.isAbsolute
      then (⟨rooted,above,s :: outer⟩ : Place).draft.text.toList.drop 1
      else (⟨rooted,above,s :: outer⟩ : Place).draft.text.toList) =
        ("/".intercalate (⟨rooted,above,s :: outer⟩ : Place).steps).toList := by
    rw [proper.isAbsolute_draft]
    cases rooted <;> simp [Place.draft]
  have stepping : ∀ piece ∈ (⟨rooted,above,outer⟩ : Place).steps.map String.toList ++ [s.toList],
      (stepOf piece).isSome := by
    intro piece member
    have inside : piece ∈ (⟨rooted,above,s :: outer⟩ : Place).steps.map String.toList := by
      simpa only [steps,List.map_append,List.map_singleton] using member
    obtain ⟨step,found,rfl⟩ := List.mem_map.mp inside
    obtain ⟨-,filled,plain⟩ := proper.step_text found
    have filled : step.toList ≠ [] := fun empty => filled (String.toList_eq_nil_iff.mp empty)
    have plain : step.toList ≠ ['.'] := fun same => plain (String.toList_inj.mp same)
    rw [stepOf,if_neg (not_or.mpr ⟨filled,plain⟩)]
    split <;> rfl
  have spelled := proper.pieces_steps (by simp [steps])
  rw [← chars,steps,List.map_append,List.map_singleton] at spelled
  rw [parent_of_pieces spelled stepping,proper.isAbsolute_draft]
  simp [Place.draft,Function.comp_def]

theorem Place.Proper.extend_draft (proper : spot.Proper) {c : Component} (named : ∀ s, c = .name s → IsName s) :
    extend spot.draft c = (spot.step c).draft := by
  have fine : (spot.step c).Proper := proper.step named
  cases c with
  | here => rfl
  | root => rfl
  | name s =>
    have steps : (spot.step (.name s)).steps = spot.steps ++ [s] := by simp [Place.step,Place.steps]
    exact proper.draft_join fine (named s rfl).slashless rfl steps
  | up =>
    obtain ⟨rooted,above,below⟩ := spot
    unfold extend
    rw [proper.components_draft]
    cases below with
    | cons s outer =>
      have last : ((if rooted then [Component.root] else []) ++ (⟨rooted,above,s :: outer⟩ : Place).trail).getLast? =
          some (.name s) := by simp [Place.trail]
      rw [last]
      simp only [proper.parent_draft,Option.getD_some]
      rfl
    | nil =>
      cases rooted with
      | true =>
        have top : above = 0 := proper.top rfl
        subst top
        rfl
      | false =>
        have steps : (⟨false,above+1,[]⟩ : Place).steps = (⟨false,above,[]⟩ : Place).steps ++ [".."] := by
          simp [Place.steps,List.replicate_succ']
        have climbed : (⟨false,above,[]⟩ : Place).draft.join ⟨".."⟩ = (⟨false,above+1,[]⟩ : Place).draft :=
          proper.draft_join fine (by decide) rfl steps
        cases above with
        | zero => exact climbed
        | succ above =>
          have last : (⟨false,above+1,[]⟩ : Place).trail.getLast? = some .up := by
            simp [Place.trail,List.replicate_succ']
          simp only [Bool.false_eq_true,if_false,List.nil_append,last]
          exact climbed

end

/-- Writing the components one by one comes to the normal spelling. -/
theorem rebuilt_eq_clean (p : Path) : p.rebuilt = p.clean := by
  have writes : ∀ (cs : List Component) (spot : Place), (∀ s, .name s ∈ cs → IsName s) → spot.Proper →
      cs.foldl extend spot.draft = (cs.foldl Place.step spot).draft := by
    intro cs
    induction cs with
    | nil => exact fun _ _ _ => rfl
    | cons c cs ih =>
      intro spot named proper
      have first : ∀ s, c = .name s → IsName s := fun s same => named s (same ▸ List.mem_cons_self)
      rw [List.foldl_cons,List.foldl_cons,proper.extend_draft first]
      exact ih _ (fun s member => named s (List.mem_cons_of_mem c member)) (proper.step first)
  have start : (⟨false,0,[]⟩ : Place).Proper := ⟨nofun,fun _ => rfl⟩
  have written := writes p.components ⟨false,0,[]⟩ (fun _ => isName_of_mem_components) start
  unfold rebuilt
  rw [clean,Place.path_eq_draft]
  exact congrArg (fun out : Path => if out.text.isEmpty then (⟨"."⟩ : Path) else out) written

/-- Cleaning writes down, component by component, a tidy path. From any start it leads where the path leads, it stays
as it is when it is cleaned again, and a path joined to it comes to what it comes to when joined to the path itself. -/
theorem clean_normalizes (p : Path) : p.rebuilt = p.clean ∧ p.clean.Tidy ∧
    (∀ start, p.clean.walk start = p.walk start) ∧ p.clean.clean = p.clean ∧
    ∀ q, (p.join q).clean = (p.clean.join q).clean :=
  ⟨rebuilt_eq_clean p,(normal_iff_tidy _).mp (normal_clean p),walk_congr (place_clean p),clean_clean p,clean_join p⟩

example : (⟨"/srv/../../etc"⟩ : Path).clean = ⟨"/etc"⟩ ∧ (⟨"a/b/../../.."⟩ : Path).clean = ⟨".."⟩ := by decide +kernel

end ScriptHost.Path
