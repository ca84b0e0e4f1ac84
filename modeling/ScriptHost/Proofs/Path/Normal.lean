import ScriptHost.Path
/-!
Normal spellings of paths. A place is `Proper` when what is below it are names and nothing is above the root, and
every walk ends in a proper place (`place_proper`). The normal spelling of a proper place leads back to it
(`place_path`). So cleaning twice is cleaning once (`clean_clean`), and the paths that cleaning leaves alone are
just the spellings of proper places (`normal_iff`). A normal spelling stays normal when its last step gets a
longer name (`Place.Proper.normal_append`), and when a name is joined to it, except to the current directory
(`Place.Proper.join_name`).
-/
namespace ScriptHost.Path

/-! ### Pieces of a text -/

theorem pieces_of_slashless {cs : List Char} (slashless : '/' ∉ cs) : pieces cs = [cs] := by
  induction cs with
  | nil => rfl
  | cons c cs ih =>
    simp only [List.mem_cons,not_or] at slashless
    simp only [pieces,Ne.symm slashless.1,if_false,ih slashless.2]

/-- The pieces on both sides of a slash. -/
theorem pieces_append_slash (front rest : List Char) : pieces (front ++ '/' :: rest) = pieces front ++ pieces rest := by
  induction front with
  | nil => simp [pieces]
  | cons c front ih =>
    rw [List.cons_append,pieces,pieces,ih]
    split
    · rfl
    · obtain ⟨piece,more,split⟩ := List.exists_cons_of_ne_nil (pieces_ne_nil front)
      rw [split]
      rfl

theorem pieces_append {piece : List Char} (slashless : '/' ∉ piece) (rest : List Char) :
    pieces (piece ++ '/' :: rest) = piece :: pieces rest := by
  rw [pieces_append_slash,pieces_of_slashless slashless,List.singleton_append]

theorem slashless_of_mem_pieces {cs piece : List Char} (member : piece ∈ pieces cs) : '/' ∉ piece := by
  induction cs generalizing piece with
  | nil =>
    obtain rfl : piece = [] := by simpa [pieces] using member
    exact List.not_mem_nil
  | cons c cs ih =>
    rw [pieces] at member
    split at member
    · rcases List.mem_cons.mp member with rfl | later
      · exact List.not_mem_nil
      · exact ih later
    · next apart =>
      cases split : pieces cs with
      | nil => exact absurd split (pieces_ne_nil cs)
      | cons first more =>
        rw [split] at member ih
        rcases List.mem_cons.mp member with rfl | later
        · exact List.not_mem_cons_of_ne_of_not_mem (Ne.symm apart) (ih List.mem_cons_self)
        · exact ih (List.mem_cons_of_mem first later)

/-- Steps without slashes are the pieces of what they are joined to. -/
theorem pieces_intercalate {steps : List (List Char)} (more : steps ≠ []) (slashless : ∀ step ∈ steps, '/' ∉ step) :
    pieces (['/'].intercalate steps) = steps := by
  induction steps with
  | nil => exact absurd rfl more
  | cons step steps ih =>
    have first := slashless step List.mem_cons_self
    cases steps with
    | nil => rw [List.intercalate_singleton,pieces_of_slashless first]
    | cons next steps =>
      have rest := ih (List.cons_ne_nil next steps) fun step member => slashless step (List.mem_cons_of_mem _ member)
      rw [List.intercalate_cons_cons,List.append_assoc,List.singleton_append,pieces_append first,rest]

/-! ### Names and proper places -/

/-- A text that can be the name of an entry of a directory. -/
structure IsName (s : String) : Prop where
  slashless : '/' ∉ s.toList
  nonempty : s ≠ ""
  apart : s ≠ "." ∧ s ≠ ".."

/-- Below a place there are names, and there is nothing above the root. -/
structure Place.Proper (spot : Place) : Prop where
  names : ∀ s ∈ spot.below, IsName s
  top : spot.rooted = true → spot.above = 0

/-- The step that a name is. -/
theorem IsName.stepOf {s : String} (name : IsName s) : stepOf s.toList = some (.name s) := by
  have filled : s.toList ≠ [] := fun empty => name.nonempty (String.toList_eq_nil_iff.mp empty)
  have here : s.toList ≠ ['.'] := fun same => name.apart.1 (String.toList_inj.mp same)
  have up : s.toList ≠ ['.','.'] := fun same => name.apart.2 (String.toList_inj.mp same)
  simp [Path.stepOf,filled,here,up]

theorem isName_of_stepOf {piece : List Char} {s : String} (slashless : '/' ∉ piece)
    (step : stepOf piece = some (.name s)) : IsName s := by
  unfold Path.stepOf at step
  split at step
  · cases step
  · next named =>
    split at step
    · cases step
    · next up =>
      obtain ⟨filled,here⟩ := not_or.mp named
      cases step
      refine ⟨by simpa using slashless,fun empty => filled ?_,fun same => here ?_,fun same => up ?_⟩
      · simpa using congrArg String.toList empty
      · simpa using congrArg String.toList same
      · simpa using congrArg String.toList same

theorem isName_of_mem_components {p : Path} {s : String} (member : .name s ∈ p.components) : IsName s := by
  have named : .name s ∈ (pieces p.text.toList).filterMap Path.stepOf := by
    simp only [components] at member
    split at member
    · simpa using member
    · split at member <;> simpa using member
  obtain ⟨piece,inside,step⟩ := List.mem_filterMap.mp named
  exact isName_of_stepOf (slashless_of_mem_pieces inside) step

theorem Place.Proper.step {spot : Place} (proper : spot.Proper) {c : Component} (named : ∀ s, c = .name s → IsName s) :
    (spot.step c).Proper := by
  obtain ⟨names,top⟩ := proper
  cases c with
  | root => exact ⟨nofun,fun _ => rfl⟩
  | here => exact ⟨names,top⟩
  | name s =>
    refine ⟨fun t member => ?_,top⟩
    rcases List.mem_cons.mp member with rfl | deeper
    · exact named t rfl
    · exact names t deeper
  | up =>
    rcases spot with ⟨rooted,above,_ | ⟨last,outer⟩⟩
    · cases rooted with
      | true => exact ⟨names,top⟩
      | false => exact ⟨names,nofun⟩
    · exact ⟨fun s member => names s (List.mem_cons_of_mem last member),top⟩

/-- Walks end in proper places. -/
theorem place_proper (p : Path) : p.place.Proper := by
  have walks : ∀ (cs : List Component) (spot : Place), (∀ s, .name s ∈ cs → IsName s) → spot.Proper →
      (cs.foldl Place.step spot).Proper := by
    intro cs
    induction cs with
    | nil => exact fun spot _ proper => proper
    | cons c cs ih =>
      intro spot named proper
      refine ih _ (fun s member => named s (List.mem_cons_of_mem c member)) (proper.step fun s same => ?_)
      exact named s (same ▸ List.mem_cons_self)
  exact walks p.components _ (fun _ => isName_of_mem_components) ⟨nofun,fun _ => rfl⟩

/-! ### The normal spelling -/

/-- The steps to a place, as components. -/
def Place.trail (spot : Place) : List Component :=
  List.replicate spot.above .up ++ spot.below.reverse.map .name

section
variable {spot : Place}

theorem Place.Proper.step_text (proper : spot.Proper) {s : String} (member : s ∈ spot.steps) :
    '/' ∉ s.toList ∧ s ≠ "" ∧ s ≠ "." := by
  rcases List.mem_append.mp member with up | below
  · rw [List.eq_of_mem_replicate up]
    decide
  · have name := proper.names s (List.mem_reverse.mp below)
    exact ⟨name.slashless,name.nonempty,name.apart.1⟩

theorem Place.Proper.trail_eq (proper : spot.Proper) :
    (spot.steps.map String.toList).filterMap Path.stepOf = spot.trail := by
  have ups : ∀ n, ((List.replicate n "..").map String.toList).filterMap Path.stepOf = List.replicate n .up := by
    intro n
    induction n with
    | zero => rfl
    | succ n ih =>
      rw [List.replicate_succ,List.map_cons,List.filterMap_cons,ih]
      rfl
  have names : ∀ l : List String, (∀ s ∈ l, IsName s) → (l.map String.toList).filterMap Path.stepOf = l.map .name := by
    intro l named
    induction l with
    | nil => rfl
    | cons s l ih =>
      rw [List.map_cons,List.filterMap_cons,(named s List.mem_cons_self).stepOf,
        ih fun t member => named t (List.mem_cons_of_mem s member)]
      rfl
  unfold Place.steps Place.trail
  rw [List.map_append,List.filterMap_append,ups,names _ fun s member => proper.names s (List.mem_reverse.mp member)]

/-- The characters of the steps to a place, slashes between them. -/
theorem Place.toList_steps (spot : Place) :
    ("/".intercalate spot.steps).toList = ['/'].intercalate (spot.steps.map String.toList) :=
  String.toList_intercalate

theorem Place.Proper.pieces_steps (proper : spot.Proper) (away : spot.steps ≠ []) :
    pieces ("/".intercalate spot.steps).toList = spot.steps.map String.toList := by
  rw [spot.toList_steps]
  refine pieces_intercalate (by simpa using away) fun step member => ?_
  obtain ⟨s,inside,rfl⟩ := List.mem_map.mp member
  exact (proper.step_text inside).1

/-- Steps to a place start with a character other than a slash. -/
theorem Place.Proper.head_steps (proper : spot.Proper) (away : spot.steps ≠ []) :
    ∃ c rest, ("/".intercalate spot.steps).toList = c :: rest ∧ c ≠ '/' := by
  obtain ⟨s,more,same⟩ := List.exists_cons_of_ne_nil away
  obtain ⟨slashless,filled,-⟩ := proper.step_text (s := s) (same ▸ List.mem_cons_self)
  obtain ⟨c,chars,spelled⟩ := List.exists_cons_of_ne_nil fun empty => filled (String.toList_eq_nil_iff.mp empty)
  have apart : c ≠ '/' := fun slash => slashless (by simp [spelled,slash])
  rw [spot.toList_steps,same,List.map_cons,spelled]
  cases more with
  | nil => exact ⟨c,chars,by simp [List.intercalate],apart⟩
  | cons next more => exact ⟨c,_,by rw [List.map_cons,List.intercalate_cons_cons]; rfl,apart⟩

theorem Place.Proper.components_rooted (proper : spot.Proper) (rooted : spot.rooted = true) :
    spot.path.components = .root :: spot.trail := by
  have text : spot.path.text.toList = '/' :: ("/".intercalate spot.steps).toList := by simp [Place.path,rooted]
  have absolute : spot.path.isAbsolute = true := by simp [isAbsolute,text]
  have split : pieces spot.path.text.toList = [] :: pieces ("/".intercalate spot.steps).toList := by
    rw [text]
    simp [pieces]
  unfold components
  rw [if_pos absolute,split,List.filterMap_cons,← proper.trail_eq]
  by_cases away : spot.steps = []
  · simp [away,pieces,Path.stepOf]
  · rw [proper.pieces_steps away]
    rfl

theorem Place.Proper.components_relative (proper : spot.Proper) (relative : spot.rooted = false) :
    spot.path.components = if spot.steps = [] then [.here] else spot.trail := by
  by_cases away : spot.steps = []
  · have text : spot.path.text = "." := by simp [Place.path,relative,away]
    rw [if_pos away]
    unfold components isAbsolute
    rw [text]
    rfl
  · obtain ⟨c,rest,spelled,apart⟩ := proper.head_steps away
    have filled : ("/".intercalate spot.steps).isEmpty = false := by
      rw [← Bool.not_eq_true,String.isEmpty_iff]
      intro empty
      rw [empty] at spelled
      cases spelled
    have text : spot.path.text = "/".intercalate spot.steps := by simp [Place.path,relative,filled]
    have absolute : spot.path.isAbsolute = false := by simp [isAbsolute,text,spelled,apart]
    have first : (pieces spot.path.text.toList).head? ≠ some ['.'] := by
      rw [text,proper.pieces_steps away]
      obtain ⟨s,more,same⟩ := List.exists_cons_of_ne_nil away
      have other := (proper.step_text (s := s) (same ▸ List.mem_cons_self)).2.2
      rw [same]
      exact fun here => other (String.toList_inj.mp (by simpa using here))
    unfold components
    rw [if_neg (by simp [absolute]),if_neg first,if_neg away,text,proper.pieces_steps away,proper.trail_eq]

theorem foldl_names (names : List String) (spot : Place) :
    (names.map Component.name).foldl Place.step spot = { spot with below := names.reverse ++ spot.below } := by
  induction names generalizing spot with
  | nil => rfl
  | cons s names ih =>
    rw [List.map_cons,List.foldl_cons,ih]
    simp [Place.step]

theorem foldl_ups (n above : Nat) :
    (List.replicate n Component.up).foldl Place.step ⟨false,above,[]⟩ = ⟨false,above+n,[]⟩ := by
  induction n generalizing above with
  | zero => rfl
  | succ n ih =>
    rw [List.replicate_succ,List.foldl_cons,Nat.add_comm n 1,← Nat.add_assoc]
    exact ih (above+1)

/-- The normal spelling of a proper place leads to it. -/
theorem Place.Proper.place_path (proper : spot.Proper) : spot.path.place = spot := by
  obtain ⟨rooted,above,below⟩ := spot
  unfold place
  cases rooted with
  | true =>
    obtain rfl : above = 0 := proper.top rfl
    rw [proper.components_rooted rfl,Place.trail,List.foldl_cons,List.foldl_append,foldl_names]
    simp [Place.step]
  | false =>
    rw [proper.components_relative rfl]
    split
    · next here =>
      obtain ⟨nowhere,flat⟩ : above = 0 ∧ below = [] := by simpa [Place.steps] using here
      subst nowhere flat
      rfl
    · rw [Place.trail,List.foldl_append,foldl_ups,foldl_names]
      simp

end

/-- The path is its own normal spelling. -/
def Normal (p : Path) : Prop := p.clean = p

/-- Cleaning a path changes neither where it leads nor, the second time, its spelling. -/
@[simp] theorem place_clean (p : Path) : p.clean.place = p.place := (place_proper p).place_path

@[simp] theorem clean_clean (p : Path) : p.clean.clean = p.clean := congrArg Place.path (place_clean p)

theorem normal_clean (p : Path) : p.clean.Normal := clean_clean p

/-- The normal spelling of a proper place stays as it is. -/
theorem Place.Proper.normal {spot : Place} (proper : spot.Proper) : spot.path.Normal :=
  congrArg Place.path proper.place_path

/-- Just the normal spellings of proper places are left alone. -/
theorem normal_iff (p : Path) : p.Normal ↔ ∃ spot : Place, spot.Proper ∧ spot.path = p := by
  constructor
  · exact fun normal => ⟨p.place,place_proper p,normal⟩
  · rintro ⟨spot,proper,rfl⟩
    exact proper.normal

/-! ### Longer spellings -/

theorem eq_of_toList {p q : Path} (same : p.text.toList = q.text.toList) : p = q := by
  cases p
  cases q
  exact congrArg Path.mk (String.toList_inj.mp same)

theorem intercalate_append_last (sep : List Char) (steps : List (List Char)) (last tail : List Char) :
    sep.intercalate (steps ++ [last ++ tail]) = sep.intercalate (steps ++ [last]) ++ tail := by
  induction steps with
  | nil => simp
  | cons step steps ih =>
    rw [List.cons_append,List.cons_append,List.intercalate_cons_of_ne_nil (by simp),
      List.intercalate_cons_of_ne_nil (by simp),ih,List.append_assoc,List.append_assoc,List.append_assoc]

theorem intercalate_concat {steps : List (List Char)} (more : steps ≠ []) (sep last : List Char) :
    sep.intercalate (steps ++ [last]) = sep.intercalate steps ++ sep ++ last := by
  induction steps with
  | nil => exact absurd rfl more
  | cons step steps ih =>
    cases steps with
    | nil => simp [List.intercalate_cons_cons]
    | cons next steps =>
      rw [List.cons_append,List.intercalate_cons_of_ne_nil (by simp),ih (by simp),List.intercalate_cons_cons]
      simp only [List.append_assoc]

section
variable {spot : Place}

/-- The spelling of a place to which steps lead. -/
theorem Place.Proper.toList_path (proper : spot.Proper) (away : spot.rooted = true ∨ spot.steps ≠ []) :
    spot.path.text.toList =
      (if spot.rooted then ['/'] else []) ++ ['/'].intercalate (spot.steps.map String.toList) := by
  rw [← spot.toList_steps]
  cases rooted : spot.rooted with
  | true => simp [Place.path,rooted]
  | false =>
    obtain ⟨c,rest,spelled,-⟩ := proper.head_steps (away.resolve_left (by simp [rooted]))
    have filled : "/".intercalate spot.steps ≠ "" := fun empty => by simp [empty] at spelled
    simp [Place.path,rooted,filled]

/-- The last character of the steps to a place is no slash. -/
theorem Place.Proper.getLast_steps (proper : spot.Proper) (away : spot.steps ≠ []) :
    ∃ c, (['/'].intercalate (spot.steps.map String.toList)).getLast? = some c ∧ c ≠ '/' := by
  obtain ⟨front,last,same⟩ := List.eq_nil_or_concat spot.steps |>.resolve_left away
  obtain ⟨slashless,filled,-⟩ := proper.step_text (s := last) (by simp [same])
  obtain ⟨chars,c,spelled⟩ :=
    List.eq_nil_or_concat last.toList |>.resolve_left fun empty => filled (String.toList_eq_nil_iff.mp empty)
  refine ⟨c,?_,fun slash => slashless (by simp [spelled,slash])⟩
  rw [same,List.concat_eq_append,List.map_append,List.map_singleton,spelled,List.concat_eq_append]
  have ends := intercalate_append_last ['/'] (front.map String.toList) chars [c]
  rw [ends,List.getLast?_append]
  rfl

/-- A step joined to the spelling of a place spells the place to which the steps lead then, unless the place is where
the walk starts: that one is spelled `.`, and the join keeps it. -/
theorem Place.Proper.join_step (proper : spot.Proper) {other : Place} (fine : other.Proper) {s : String}
    (slashless : '/' ∉ s.toList) (rooted : other.rooted = spot.rooted) (steps : other.steps = spot.steps ++ [s])
    (away : spot.rooted = true ∨ spot.steps ≠ []) : spot.path.join ⟨s⟩ = other.path := by
  have relative : (⟨s⟩ : Path).isAbsolute = false := by
    unfold isAbsolute
    cases chars : s.toList with
    | nil => rfl
    | cons c rest =>
      have apart : c ≠ '/' := fun slash => slashless (by simp [chars,slash])
      simp [apart]
  have text := proper.toList_path away
  have longer := fine.toList_path (.inr (by simp [steps]))
  rw [steps,rooted,List.map_append,List.map_singleton] at longer
  unfold join
  rw [relative,if_neg Bool.false_ne_true]
  refine eq_of_toList ?_
  rw [longer,String.toList_append]
  by_cases start : spot.steps = []
  · obtain top : spot.rooted = true := away.resolve_right (not_not_intro start)
    have slash : spot.path.text.toList = ['/'] := by simp [text,top,start]
    have closed : withSeparator spot.path.text = spot.path.text := by simp [withSeparator,slash]
    simp [closed,slash,top,start]
  · obtain ⟨c,last,apart⟩ := proper.getLast_steps start
    have filled : spot.path.text.isEmpty = false := by
      rw [← Bool.not_eq_true,String.isEmpty_iff,← String.toList_eq_nil_iff,text]
      intro empty
      rw [(List.append_eq_nil_iff.mp empty).2] at last
      cases last
    have open_ : spot.path.text.toList.getLast? ≠ some '/' := by
      rw [text,List.getLast?_append,last]
      simpa using apart
    have closed : withSeparator spot.path.text = spot.path.text ++ "/" := by simp [withSeparator,filled,open_]
    rw [closed,String.toList_append,text,intercalate_concat (by simpa using start)]
    simp

/-- A name joined to the spelling of a place spells the place of that name. -/
theorem Place.Proper.join_name (proper : spot.Proper) {s : String} (name : IsName s)
    (away : spot.rooted = true ∨ spot.steps ≠ []) : spot.path.join ⟨s⟩ = (spot.step (.name s)).path := by
  have deeper : (spot.step (.name s)).Proper := proper.step fun t same => by cases same; exact name
  exact proper.join_step deeper name.slashless rfl (by simp [Place.step,Place.steps]) away

/-- The last step of a normal spelling may be given a longer name. -/
theorem Place.Proper.normal_append (proper : spot.Proper) {tail : String}
    (names : ∀ s : String, '/' ∉ s.toList → IsName (s ++ tail)) : (⟨spot.path.text ++ tail⟩ : Path).Normal := by
  -- The place with the longer name, and the steps before that name.
  suffices ∃ (other : Place) (front : List String) (last : String), other.Proper ∧ other.rooted = spot.rooted ∧
      other.steps = front ++ [last ++ tail] ∧ spot.path.text.toList =
        (if spot.rooted then ['/'] else []) ++ ['/'].intercalate (front.map String.toList ++ [last.toList]) by
    obtain ⟨other,front,last,fine,rooted,steps,text⟩ := this
    refine (normal_iff _).mpr ⟨other,fine,?_⟩
    refine eq_of_toList ?_
    rw [fine.toList_path (.inr (by simp [steps])),rooted,steps,String.toList_append,text,List.map_append,
      List.map_singleton,String.toList_append,intercalate_append_last,List.append_assoc]
  obtain ⟨rooted,above,below⟩ := spot
  cases below with
  | cons last outer =>
    have slashless := (proper.names last List.mem_cons_self).slashless
    refine ⟨⟨rooted,above,(last ++ tail) :: outer⟩,List.replicate above ".." ++ outer.reverse,last,
      ⟨fun s member => ?_,proper.top⟩,rfl,by simp [Place.steps],?_⟩
    · rcases List.mem_cons.mp member with rfl | deeper
      · exact names last slashless
      · exact proper.names s (List.mem_cons_of_mem last deeper)
    · rw [proper.toList_path (.inr (by simp [Place.steps]))]
      simp [Place.steps]
  | nil =>
    cases above with
    | succ above =>
      obtain relative : rooted = false := by
        cases rooted with
        | false => rfl
        | true => cases proper.top rfl
      subst relative
      refine ⟨⟨false,above,[".." ++ tail]⟩,List.replicate above "..","..",
        ⟨fun s member => ?_,nofun⟩,rfl,by simp [Place.steps],?_⟩
      · rw [List.mem_singleton.mp member]
        exact names ".." (by decide)
      · rw [proper.toList_path (.inr (by simp [Place.steps]))]
        simp [Place.steps,List.replicate_succ']
    | zero =>
      cases rooted with
      | true =>
        refine ⟨⟨true,0,["" ++ tail]⟩,[],"",⟨fun s member => ?_,fun _ => rfl⟩,rfl,by simp [Place.steps],rfl⟩
        rw [List.mem_singleton.mp member]
        exact names "" (by decide)
      | false =>
        refine ⟨⟨false,0,["." ++ tail]⟩,[],".",⟨fun s member => ?_,nofun⟩,rfl,by simp [Place.steps],rfl⟩
        rw [List.mem_singleton.mp member]
        exact names "." (by decide)

end

/-! ### Absolute paths -/

theorem isAbsolute_iff (p : Path) : p.isAbsolute = true ↔ ∃ rest, p.text.toList = '/' :: rest := by
  rw [isAbsolute,decide_eq_true_iff,List.head?_eq_some_iff]

theorem isAbsolute_append {p : Path} (absolute : p.isAbsolute = true) (tail : String) :
    (⟨p.text ++ tail⟩ : Path).isAbsolute = true := by
  obtain ⟨rest,spelled⟩ := (isAbsolute_iff p).mp absolute
  exact (isAbsolute_iff _).mpr ⟨rest ++ tail.toList,by rw [String.toList_append,spelled,List.cons_append]⟩

theorem isAbsolute_join {p : Path} (absolute : p.isAbsolute = true) (q : Path) : (p.join q).isAbsolute = true := by
  unfold join
  split
  · next other => exact other
  · unfold withSeparator
    split
    · exact isAbsolute_append absolute q.text
    · rw [String.append_assoc]
      exact isAbsolute_append absolute _

/-- An absolute path leads to a place below the root. -/
theorem rooted_place {p : Path} (absolute : p.isAbsolute = true) : p.place.rooted = true := by
  have stays : ∀ (cs : List Component) (spot : Place), spot.rooted = true → (cs.foldl Place.step spot).rooted = true := by
    intro cs
    induction cs with
    | nil => exact fun _ rooted => rooted
    | cons c cs ih =>
      intro spot rooted
      refine ih _ ?_
      rcases spot with ⟨_,above,_ | ⟨last,outer⟩⟩ <;> cases rooted <;> cases c <;> rfl
  unfold place components
  simp only [if_pos absolute,List.foldl_cons]
  exact stays _ _ rfl

theorem isAbsolute_clean {p : Path} (absolute : p.isAbsolute = true) : p.clean.isAbsolute = true := by
  refine (isAbsolute_iff _).mpr ⟨("/".intercalate p.place.steps).toList,?_⟩
  simp [clean,Place.path,rooted_place absolute]

/-- An absolute path in its normal spelling has a name in it, unless it is the root. -/
theorem named_of_normal {p : Path} (normal : p.Normal) (absolute : p.isAbsolute = true) (apart : p ≠ ⟨"/"⟩) :
    ∃ s, .name s ∈ p.components := by
  obtain ⟨spot,proper,rfl⟩ := (normal_iff p).mp normal
  have rooted : spot.rooted = true := by
    rw [← proper.place_path]
    exact rooted_place absolute
  rw [proper.components_rooted rooted]
  cases below : spot.below with
  | nil => exact absurd (by simp [Place.path,Place.steps,rooted,proper.top rooted,below]) apart
  | cons s outer => exact ⟨s,by simp [Place.trail,below]⟩

end ScriptHost.Path
