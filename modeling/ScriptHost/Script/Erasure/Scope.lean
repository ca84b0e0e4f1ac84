import ScriptHost.Script.Constant
import ScriptHost.Script.Names
/-!
What names mean while types are taken out of a script. A name may stand for itself, for a member of
the object of a namespace, or for an enumeration whose members have known values.
-/

namespace ScriptHost.Script

/-! ## What statements declare -/

mutual

/-- Something of the statement is left at run time. -/
def Stmt.lasts : Stmt → Bool
  | .erased _ | .empty => false
  | .namespace _ body => Stmt.anyLasts body
  | .exportDecl s => s.lasts
  | .import i => !i.typeOnly
  | _ => true

/-- Something of the statements is left at run time. -/
def Stmt.anyLasts : List Stmt → Bool
  | [] => false
  | s :: ss => s.lasts || Stmt.anyLasts ss

end

/-- The names of values that a statement declares itself. -/
def Stmt.declares : Stmt → List String
  | .decl _ ds => Pattern.namesOfAll ds
  | .func f => f.name.toList
  | .klass c => c.name.toList
  | .enum _ name _ => [name]
  | .namespace path body => if Stmt.anyLasts body then path.take 1 else []
  | .importEquals _ name _ => [name]
  | .exportDecl s => s.declares
  | .exportDefault (.func f) => f.name.toList
  | .exportDefault (.klass c) => c.name.toList
  | .label _ s => s.declares
  | _ => []

/-- The names of types that a statement declares and that are no values. -/
def Stmt.declaresTypes : Stmt → List String
  | .erased types => types
  | .namespace path body => if Stmt.anyLasts body then [] else path.take 1
  | .exportDecl s => s.declaresTypes
  | .import i =>
    let names := i.names.getD []
    if i.typeOnly then i.default.toList ++ i.star.toList ++ names.map (·.2.1)
    else (names.filter (·.2.2)).map (·.2.1)
  | _ => []

/-- The statement imports or exports. -/
def Stmt.isItem : Stmt → Bool
  | .import _ | .exportNames .. | .exportDecl _ | .exportDefault _ | .exportAll .. => true
  | _ => false

/-- The names that a namespace keeps as members of its object. -/
def Stmt.members : Stmt → List String
  | .exportDecl (.decl _ ds) => Pattern.namesOfAll ds
  | .exportDecl (.enum _ name _) => [name]
  | .exportDecl (.namespace path _) => path.take 1
  | _ => []

/-! ## Scopes -/

/-- What a name means where it is used. -/
structure Meaning where
  /-- The namespace whose object has the value. -/
  owner : Option String := none
  /-- The members of the enumeration that the name stands for. -/
  members : List (String × MemberValue) := []
  deriving Inhabited

/-- What names mean at a place of a script, the nearest first. -/
structure Scope where
  names : List (String × Meaning) := []
  /-- The namespace whose body this is. -/
  owner : Option String := none
  /-- This is the outermost level. -/
  isTop : Bool := false

namespace Scope

/-- Names that mean nothing but themselves. -/
def bind (s : Scope) (names : List String) : Scope :=
  { s with names := names.map (·, {}) ++ s.names }

/-- The scope of a function or a block. -/
def inside (s : Scope) (names : List String) : Scope :=
  { s.bind names with owner := none, isTop := false }

/-- The scope of the body of a namespace. -/
def within (s : Scope) (owner : String) (body : List Stmt) : Scope :=
  let own : List (String × Meaning) :=
    (body.flatMap Stmt.members).map (·, { owner := some owner })
  let s := s.bind (owner :: body.flatMap Stmt.declares)
  { s with names := own ++ s.names, owner := some owner, isTop := false }

/-- The scope of a statement that is a part of another one. -/
def nested (s : Scope) : Scope := { s with isTop := false, owner := none }

/-- A name that is a member of an enumeration that is being declared. -/
def withMember (s : Scope) (owner name : String) : Scope :=
  { s with names := (name, { owner := some owner }) :: s.names }

/-- An enumeration with its members so far. -/
def withMembers (s : Scope) (name : String) (members : List (String × MemberValue)) : Scope :=
  let old := (s.names.lookup name).getD {}
  { s with names := (name, { old with members }) :: s.names }

/-- The members of an enumeration. -/
def membersOf (s : Scope) (name : String) : List (String × MemberValue) :=
  ((s.names.lookup name).map (·.members)).getD []

/-- Members whose values are known. -/
def known (s : Scope) : Members := fun owner name => (s.membersOf owner).lookup name

/-- What a name becomes. -/
def reference (s : Scope) (name : String) : Expr :=
  match (s.names.lookup name).bind (·.owner) with
  | some owner => .dot (.ident owner) name .plain
  | none => .ident name

/-- The value of a member of an enumeration, if it is known. -/
def member? (s : Scope) (o : Expr) (name : String) : Option Expr :=
  match o.bare with
  | .ident owner => (s.known owner name).bind fun v => if v.isKnown then some v.toExpr else none
  | _ => none

end Scope

/-- Erasing also notes the names that are used and that no inner declaration gives a meaning. -/
abbrev Erase := StateM (List String)

/-- A name that is used. -/
def useName (s : Scope) (name : String) : Erase Expr := do
  if (s.names.lookup name).isNone then modify (name :: ·)
  return s.reference name

end ScriptHost.Script
