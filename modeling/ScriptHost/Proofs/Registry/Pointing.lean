import ScriptHost.Registry.Basic
import ScriptHost.Script.Check
import Mathlib.Data.List.Basic
/-!
The line that a refused module is reported at. What is checked is the body in its wrapper, whose first line is the head
of a function: a place of the body has a line in the wrapper that is one more than its own (`lineOf_wrap`), and the
failure names the line in the wrapper (`refusal_one_line_below`).
-/
namespace ScriptHost.Registry
open ScriptHost.Script

/-- The characters of a text. -/
def charactersOf (text : String) : Array Char := text.toList.toArray

/-- What stands in front of the body. -/
def wrapperHead : String := "(function(require, module, exports) \x7b\n"

/-- A check that finds the first offence in a text, with its message, and names the line of its place. -/
def PointsAt (check : Checker) (offence : String → Option (Nat × String)) : Prop :=
  ∀ name source, check name source =
    match offence source with
    | none => .ok ()
    | some (place,message) => .error (.malformed name (lineOf (charactersOf source) place) message)

/-- The first complaint about a script. -/
def firstOffence (source : String) : Option (Nat × String) :=
  match Source.read (charactersOf source) false false with
  | .ok _ => none
  | .error fault => some (fault.place,fault.complaint.message)

theorem check_pointsAt : PointsAt Script.check firstOffence := by
  intro name source
  unfold Script.check firstOffence
  show (match Source.read (charactersOf source) false false with | .ok _ => _ | .error fault => _) = _
  cases Source.read (charactersOf source) false false <;> rfl

/-! ### Lines -/

/-- What a character adds to the number of the line, by the one behind it. -/
def lineBreak (text : Array Char) (line i : Nat) : Nat :=
  match text[i]? with
  | some '\n' => line + 1
  | some '\r' => if text[i + 1]? = some '\n' then line else line + 1
  | _ => line

theorem lineOf_eq {text : Array Char} {place : Nat} (inside : place < text.size) :
    lineOf text place = (List.range place).foldl (lineBreak text) 1 := by
  unfold lineOf
  rw [if_neg (Nat.not_le.mpr inside)]
  rfl

/-- The characters that are added for one line do not depend on its number. -/
theorem lineBreak_succ (text : Array Char) (line i : Nat) :
    lineBreak text (line + 1) i = lineBreak text line i + 1 := by
  unfold lineBreak
  split
  · rfl
  · split <;> rfl
  · rfl

theorem size_charactersOf (text : String) : (charactersOf text).size = text.length := by
  simp [charactersOf,String.length_toList]

theorem charactersOf_wrap (body : String) :
    charactersOf (Module.wrap body) = charactersOf wrapperHead ++ charactersOf body ++ charactersOf "\n\x7d)" := by
  have split : Module.wrap body = wrapperHead ++ body ++ "\n\x7d)" := rfl
  rw [split]
  unfold charactersOf
  rw [String.toList_append,String.toList_append,List.append_toArray,List.append_toArray]

section
variable {body : String}

/-- A character of the head is there in the wrapper. -/
theorem wrap_head {i : Nat} (inside : i < wrapperHead.length) :
    (charactersOf (Module.wrap body))[i]? = (charactersOf wrapperHead)[i]? := by
  rw [charactersOf_wrap,Array.append_assoc,Array.getElem?_append_left (by rwa [size_charactersOf])]

/-- A character of the body is there behind the head. -/
theorem wrap_body {i : Nat} (inside : i < body.length) :
    (charactersOf (Module.wrap body))[wrapperHead.length + i]? = (charactersOf body)[i]? := by
  rw [charactersOf_wrap,Array.append_assoc,
    Array.getElem?_append_right (by rw [size_charactersOf]; exact Nat.le_add_right _ _),size_charactersOf,
    Nat.add_sub_cancel_left,Array.getElem?_append_left (by rwa [size_charactersOf])]

/-- The body begins in the second line of the wrapper. -/
theorem lines_of_head : (List.range wrapperHead.length).foldl (lineBreak (charactersOf (Module.wrap body))) 1 = 2 := by
  have head : ∀ i < wrapperHead.length, ∀ line,
      lineBreak (charactersOf (Module.wrap body)) line i = lineBreak (charactersOf wrapperHead) line i := by
    intro i inside line
    have plain : (charactersOf wrapperHead)[i]? ≠ some '\r' := by
      revert i
      decide
    unfold lineBreak
    rw [wrap_head inside]
    split
    · rfl
    · next carriage => exact absurd carriage plain
    · rfl
  rw [List.foldl_ext _ (lineBreak (charactersOf wrapperHead)) 1 fun line i inside =>
    head i (List.mem_range.mp inside) line]
  decide +kernel

/-- A place of the body is one line further down in the wrapper. -/
theorem lineOf_wrap {place : Nat} (behind : wrapperHead.length ≤ place) (inside : place - wrapperHead.length < body.length) :
    lineOf (charactersOf (Module.wrap body)) place =
      lineOf (charactersOf body) (place - wrapperHead.length) + 1 := by
  obtain ⟨own,rfl⟩ := Nat.exists_eq_add_of_le behind
  rw [Nat.add_sub_cancel_left] at inside ⊢
  have within : wrapperHead.length + own < (charactersOf (Module.wrap body)).size := by
    rw [charactersOf_wrap,Array.size_append,Array.size_append,size_charactersOf,size_charactersOf]
    omega
  rw [lineOf_eq within,lineOf_eq (by rwa [size_charactersOf]),List.range_add,List.foldl_append,lines_of_head,
    List.foldl_map]
  have same (line i : Nat) (inside : i ∈ List.range own) :
      lineBreak (charactersOf (Module.wrap body)) line (wrapperHead.length + i) = lineBreak (charactersOf body) line i := by
    have before := List.mem_range.mp inside
    unfold lineBreak
    rw [wrap_body (by omega),Nat.add_assoc,wrap_body (by omega)]
  rw [List.foldl_ext _ (lineBreak (charactersOf body)) 2 same]
  exact List.foldl_hom (· + 1) fun line i => lineBreak_succ _ line i

end

example : lineOf (charactersOf (Module.wrap "1;\n2;")) (wrapperHead.length + 4) = 3 := by decide +kernel

/-! ### Refused modules -/

section
variable {check : Checker} {r : Registry} {i : Nat}

/-- Without a transform, the refusal of the wrapper is what a call comes to. -/
theorem compile_refused {refusal : Failure} (uncompiled : (r.record i).program = none) (alone : r.transform = none)
    (refused : check (r.record i).key (Module.wrap (r.record i).body) = .error refusal) :
    compileModule check r i = (.error refusal,r) := by
  unfold compileModule
  simp only [uncompiled,refused,alone]

/-- A module whose first offence lies in its body is refused under its key, with the line behind the one where the offence
stands in the body, wherever that is. -/
theorem refusal_one_line_below {offence : String → Option (Nat × String)} {place : Nat} {message : String}
    (points : PointsAt check offence) (uncompiled : (r.record i).program = none) (alone : r.transform = none)
    (offends : offence (Module.wrap (r.record i).body) = some (place,message)) (behind : wrapperHead.length ≤ place)
    (inside : place - wrapperHead.length < (r.record i).body.length) :
    compileModule check r i =
      (.error (.malformed (r.record i).key
        (lineOf (charactersOf (r.record i).body) (place - wrapperHead.length) + 1) message),r) := by
  refine compile_refused uncompiled alone ?_
  rw [points,offends,← lineOf_wrap behind inside]

end

/-- A registered module whose one line does not parse. -/
def misspelt : Registry := (Registry.new ⟨"/app"⟩).setModule (.named "a" "var = 1;")

theorem misspelt_offence : firstOffence (Module.wrap (misspelt.record 2).body) =
    some (42,"Unexpected token `=`. Expected yield, an identifier, [ or \x7b") := by
  decide +kernel

/-- The equals sign stands in the first line. -/
theorem refusal_one_line_below_misspelt :
    compileModule Script.check misspelt 2 =
      (.error (.malformed "a" (lineOf (charactersOf "var = 1;") 4 + 1)
        "Unexpected token `=`. Expected yield, an identifier, [ or \x7b"),misspelt) :=
  refusal_one_line_below check_pointsAt rfl rfl misspelt_offence (by decide) (by decide)

/-- The line that is reported is not the one in the body. -/
theorem own_line_missed :
    compileModule Script.check misspelt 2 =
        (.error (.malformed "a" 2 "Unexpected token `=`. Expected yield, an identifier, [ or \x7b"),misspelt) ∧
      lineOf (charactersOf "var = 1;") (42 - wrapperHead.length) = 1 := by
  have refused : Script.check (misspelt.record 2).key (Module.wrap (misspelt.record 2).body) =
      .error (.malformed "a" 2 "Unexpected token `=`. Expected yield, an identifier, [ or \x7b") := by
    rw [check_pointsAt,misspelt_offence]
    decide +kernel
  exact ⟨compile_refused rfl rfl refused,by decide +kernel⟩

end ScriptHost.Registry
