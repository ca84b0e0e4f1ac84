/-!
Paths as text and as places. A path keeps the text it was written with; its components are the
steps between slashes. `Place` is where a lexical walk along the components ends, and `clean`
writes that place in its one normal spelling: no `.` step, `..` only where there is nothing to
leave, never an empty text.
-/

namespace ScriptHost

/-- A path as it was written. -/
structure Path where
  text : String
  deriving DecidableEq, Hashable, Inhabited

namespace Path

/-- One step of a path: the root, a leading `.`, a `..`, or a name. -/
inductive Component where
  | root
  | here
  | up
  | name (text : String)
  deriving DecidableEq, Hashable, Inhabited

/-- The text of one step. -/
def Component.text : Component → String
  | .root => "/"
  | .here => "."
  | .up => ".."
  | .name s => s

/-- The pieces of a text between slashes, empty pieces included; there is always one piece. -/
def pieces : List Char → List (List Char)
  | [] => [[]]
  | c :: rest =>
    if c = '/' then [] :: pieces rest
    else match pieces rest with
      | [] => [[c]]
      | piece :: more => (c :: piece) :: more

theorem pieces_ne_nil (cs : List Char) : pieces cs ≠ [] := by
  cases cs with
  | nil => simp [pieces]
  | cons c rest =>
    simp only [pieces]
    split
    · simp
    · split <;> simp

/-- The step a piece stands for; empty pieces and `.` stand for none. -/
def stepOf (piece : List Char) : Option Component :=
  if piece = [] ∨ piece = ['.'] then none
  else if piece = ['.', '.'] then some .up
  else some (.name (String.ofList piece))

/-- A path is absolute when it starts with a slash. -/
def isAbsolute (p : Path) : Bool := p.text.toList.head? = some '/'

/-- The components of a path: the root of an absolute path, a leading `.` of a relative one, and
then every piece that is a step. -/
def components (p : Path) : List Component :=
  let ps := pieces p.text.toList
  if p.isAbsolute then .root :: ps.filterMap stepOf
  else if ps.head? = some ['.'] then .here :: ps.filterMap stepOf
  else ps.filterMap stepOf

/-- The text followed by a slash, unless it is empty or ends in one. -/
def withSeparator (text : String) : String :=
  if text.isEmpty || text.toList.getLast? = some '/' then text else text ++ "/"

/-- `p` followed by `q`; an absolute `q` replaces `p`. -/
def join (p q : Path) : Path :=
  if q.isAbsolute then q else ⟨withSeparator p.text ++ q.text⟩

/-! ## Lexical walks -/

/-- A place in a tree of directories, seen from the root or from the current directory: how many
levels above the start, then the names below, innermost first. -/
structure Place where
  rooted : Bool
  above : Nat
  below : List String
  deriving DecidableEq, Inhabited

/-- One step of a walk: a name enters, `..` leaves the last name entered, and where there is none
it climbs, except at the root, which has nothing above it. -/
def Place.step (spot : Place) : Component → Place
  | .root => ⟨true, 0, []⟩
  | .here => spot
  | .up => match spot.below with
    | _ :: outer => { spot with below := outer }
    | [] => if spot.rooted then spot else { spot with above := spot.above + 1 }
  | .name s => { spot with below := s :: spot.below }

/-- The place a path leads to. -/
def place (p : Path) : Place := p.components.foldl Place.step ⟨false, 0, []⟩

/-- The steps from the start to a place, outermost first. -/
def Place.steps (spot : Place) : List String :=
  List.replicate spot.above ".." ++ spot.below.reverse

/-- The normal spelling of a place. -/
def Place.path (spot : Place) : Path :=
  let steps := "/".intercalate spot.steps
  if spot.rooted then ⟨"/" ++ steps⟩
  else if steps.isEmpty then ⟨"."⟩ else ⟨steps⟩

/-- The normal spelling of the place a path leads to; links are not consulted. -/
def clean (p : Path) : Path := p.place.path

/-! ## Parts of a path -/

/-- The piece is a step, or the leading `.` of a relative path. -/
private def standsFirst (absolute : Bool) (earlier : List (List Char)) (piece : List Char) : Bool :=
  (stepOf piece).isSome || (!absolute && earlier.isEmpty && piece = ['.'])

/-- Pieces in reverse, without those at the end that are no component. -/
private def trimEnd (absolute : Bool) : List (List Char) → List (List Char)
  | [] => []
  | piece :: earlier =>
    if standsFirst absolute earlier piece then piece :: earlier else trimEnd absolute earlier

/-- The path without its last component, or none for the root and the empty path. -/
def parent (p : Path) : Option Path :=
  let absolute := p.isAbsolute
  let chars := if absolute then p.text.toList.drop 1 else p.text.toList
  match trimEnd absolute (pieces chars).reverse with
  | [] => none
  | _ :: earlier =>
    let kept := (trimEnd absolute earlier).reverse.map String.ofList
    some ⟨(if absolute then "/" else "") ++ "/".intercalate kept⟩

private theorem trimEnd_ne_nil (absolute : Bool) {l : List (List Char)} {piece : List Char} (member : piece ∈ l)
    (step : (stepOf piece).isSome) : trimEnd absolute l ≠ [] := by
  induction l with
  | nil => cases member
  | cons first earlier ih =>
    rw [trimEnd]
    split
    · exact List.cons_ne_nil first earlier
    · next ends =>
      rcases List.mem_cons.mp member with rfl | deeper
      · exact absurd (by simp [standsFirst, step]) ends
      · exact ih deeper

/-- A path with a name in it has a parent. -/
theorem parent_ne_none {p : Path} {s : String} (member : .name s ∈ p.components) : p.parent ≠ none := by
  obtain ⟨piece, inside, step⟩ : ∃ piece ∈ pieces p.text.toList, stepOf piece = some (.name s) := by
    refine List.mem_filterMap.mp ?_
    simp only [components] at member
    split at member
    · simpa using member
    · split at member <;> simpa using member
  have found : piece ∈ pieces (if p.isAbsolute then p.text.toList.drop 1 else p.text.toList) := by
    split
    · next absolute =>
      obtain ⟨rest, spelled⟩ : ∃ rest, p.text.toList = '/' :: rest :=
        List.head?_eq_some_iff.mp (of_decide_eq_true absolute)
      rw [spelled, pieces, if_pos rfl] at inside
      rcases List.mem_cons.mp inside with rfl | later
      · cases step
      · simpa [spelled] using later
    · exact inside
  intro none
  simp only [parent] at none
  split at none
  · next empty =>
    exact trimEnd_ne_nil p.isAbsolute (List.mem_reverse.mpr found) (by simp [step]) empty
  · cases none

private theorem trimEnd_steps (absolute : Bool) {l : List (List Char)}
    (steps : ∀ piece ∈ l, (stepOf piece).isSome) : trimEnd absolute l = l := by
  cases l with
  | nil => rfl
  | cons piece earlier => rw [trimEnd, if_pos (by simp [standsFirst, steps piece List.mem_cons_self])]

/-- Where every piece is a step, the parent is what stands before the last one. -/
theorem parent_of_pieces {p : Path} {front : List (List Char)} {last : List Char}
    (spelled : pieces (if p.isAbsolute then p.text.toList.drop 1 else p.text.toList) = front ++ [last])
    (steps : ∀ piece ∈ front ++ [last], (stepOf piece).isSome) :
    p.parent = some ⟨(if p.isAbsolute then "/" else "") ++ "/".intercalate (front.map String.ofList)⟩ := by
  have backwards : ∀ piece ∈ last :: front.reverse, (stepOf piece).isSome := fun piece member =>
    steps piece (by simpa [or_comm] using member)
  simp only [parent]
  rw [spelled, List.reverse_append, List.reverse_singleton, List.singleton_append, trimEnd_steps _ backwards]
  simp only
  rw [trimEnd_steps _ fun piece member => backwards piece (List.mem_cons_of_mem last member), List.reverse_reverse]

/-- The parent of an absolute path is absolute. -/
theorem isAbsolute_parent {p q : Path} (absolute : p.isAbsolute = true) (parent : p.parent = some q) :
    q.isAbsolute = true := by
  simp only [Path.parent] at parent
  split at parent
  · cases parent
  · cases parent
    rw [isAbsolute, if_pos absolute, String.toList_append]
    rfl

/-- The last component, when it is a name. -/
def fileName (p : Path) : Option String :=
  match p.components.getLast? with
  | some (.name s) => some s
  | _ => none

/-- What follows the last dot of a file name; a dot in front starts no extension. -/
def extension (p : Path) : Option String :=
  p.fileName.bind fun name =>
    let tail := name.toList.reverse.takeWhile (· ≠ '.')
    let stem := name.toList.reverse.drop (tail.length + 1)
    if stem.isEmpty then none else some (String.ofList tail.reverse)

/-- Every component of `q` in turn begins `p`. -/
def startsWith (p q : Path) : Bool := q.components.isPrefixOf p.components

end Path

end ScriptHost
