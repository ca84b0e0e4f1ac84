import ScriptHost.Json.Reader
import ScriptHost.Text.Quoted
/-!
Package manifests. Of a manifest only the name and the entry file matter; either may be missing or
null, other members are passed over, and a list holds the two in order.
-/

namespace ScriptHost

/-- The parts of a package manifest that resolution looks at. -/
structure Manifest where
  name : Option String
  main : Option String
  deriving DecidableEq, Inhabited

namespace Manifest

open Json (Reader Refusal)
open Json.Reader

/-- Refuse the next value for being of the wrong type. -/
private def wrongType {α : Type} (expected : String) : Reader α := placed do
  let refuseAs (what : String) : Reader α :=
    refuseUnplaced (.unlike s!"invalid type: {what}, expected {expected}")
  match ← peek with
  | some 110 => do skip; word [117, 108, 108]; refuseAs (found .null)
  | some 116 => do skip; word [114, 117, 101]; refuseAs (found (.bool true))
  | some 102 => do skip; word [97, 108, 115, 101]; refuseAs (found (.bool false))
  | some 45 => do skip; refuseAs (found (← number false))
  | some 34 => do skip; refuseAs ("string " ++ Text.quoted (← string))
  | some 91 => refuseAs "sequence"
  | some 123 => refuseAs "map"
  | some b => if isDigit b then do refuseAs (found (← number true)) else refuseNext .expectedValue
  | none => refuseNext .expectedValue

/-- A text or null. -/
private def optionalText : Reader (Option String) := do
  match ← token with
  | some 110 => do skip; word [117, 108, 108]; return none
  | some 34 => do skip; return some (← string)
  | some _ => wrongType "a string"
  | none => refuseNext .endInValue

/-- The member of a manifest that a name stands for. -/
inductive Field where
  | name | main | other
  deriving DecidableEq

/-- The member of a name. -/
private def Field.of (text : String) : Field :=
  if text = "name" then .name else if text = "main" then .main else .other

/-- The members, each of the two at most once. -/
private def fields : Nat → Bool → Option (Option String) → Option (Option String) → Reader Manifest
  | 0, _, _, _ => refuse .endInObject
  | n + 1, first, name, main => do
    if ← hasKey first then
      match Field.of (← key) with
      | .name =>
        if name.isSome then refuseUnplaced (.unlike "duplicate field \x60name\x60")
        else do
          colon
          fields n false (some (← optionalText)) main
      | .main =>
        if main.isSome then refuseUnplaced (.unlike "duplicate field \x60main\x60")
        else do
          colon
          fields n false name (some (← optionalText))
      | .other => do
        colon
        skipValue
        fields n false name main
    else return ⟨name.join, main.join⟩

/-- The two members of a list. -/
private def inOrder : Reader Manifest := do
  if ← hasItem true then
    let name ← optionalText
    if ← hasItem false then return ⟨name, ← optionalText⟩
    else return ⟨name, none⟩
  else return ⟨none, none⟩

/-- A manifest. -/
def reader : Reader Manifest := do
  let manifest ← placed do
    match ← token with
    | none => refuseNext .endInValue
    | some 91 => do skip; closing inOrder listEnd
    | some 123 => do skip; closing (fields (← bound) true none none) objectEnd
    | some _ => wrongType "struct Manifest"
  textEnd
  return manifest

/-- The manifest that a text holds. -/
def parse (text : String) : Except Refusal Manifest := Reader.run reader text

/-- The entry file: the one named, unless the name is empty. -/
def entry (m : Manifest) : String :=
  match m.main with
  | some file => if file.isEmpty then "index.js" else file
  | none => "index.js"

end Manifest

end ScriptHost
