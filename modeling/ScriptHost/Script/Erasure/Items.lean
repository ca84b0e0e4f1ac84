import ScriptHost.Script.Erasure.Walk
/-!
Imports and exports of a script without types, and the whole of it: `Source.erase` leaves what a
script does at run time. Imports that only types use disappear.
-/

namespace ScriptHost.Script

/-- The name at the front of a path of names. -/
def Expr.root? : Expr → Option String
  | .ident name => some name
  | .dot o _ _ => o.root?
  | _ => none

/-- The names that are used, with those that used abbreviations of paths stand for; `n` bounds the
abbreviations of abbreviations. -/
def usedThrough (body : List Stmt) : Nat → List String → List String
  | 0, used => used
  | n + 1, used =>
    let more := body.filterMap fun x => match x with
      | .importEquals _ name e => if used.contains name then e.root? else none
      | _ => none
    usedThrough body n (more ++ used)

/-- An import with the names in it that are used and that nothing else declares; none if there were
names and all are gone. -/
def Import.kept? (i : Import) (used values : List String) : Option Import :=
  let keeps (name : String) : Bool := used.contains name && !values.contains name
  let default := i.default.filter keeps
  let star := i.star.filter keeps
  let names := (i.names.getD []).filter fun (_, name, typeOnly) => !typeOnly && keeps name
  let wasEmpty := i.default.isNone && i.star.isNone && (i.names.getD []).isEmpty
  if i.typeOnly then none
  else if wasEmpty then some i
  else if default.isNone && star.isNone && names.isEmpty then none
  else some { i with default, star, names := if names.isEmpty then none else some names }

/-- What is left of an import or export when its types are gone. -/
def Stmt.withoutTypes (used values types : List String) : Stmt → List Stmt
  | .import i => (i.kept? used values).toList.map .import
  | .exportNames names none attributes =>
    let kept := names.filter fun (name, _) => !types.contains name
    if kept.isEmpty && !names.isEmpty then [] else [.exportNames kept none attributes]
  | .exportDefault (.ident name) => if types.contains name then [] else [.exportDefault (.ident name)]
  | .importEquals exported name e =>
    let isCall := match e with
      | .call .. => true
      | _ => false
    let d : Stmt := .decl (if isCall then .const_ else .var) [.orElse (.name name) e]
    if exported then [.exportDecl d] else if used.contains name then [d] else []
  | .exportEquals _ => []
  | x => [x]

/-- What a module gives as its exports in one piece. -/
def wholeExport (body : List Stmt) : List Stmt :=
  (body.findSome? fun x => match x with
    | .exportEquals e =>
      some (Stmt.expr (.assign "=" (.expr (.dot (.ident "module") "exports" .plain)) e))
    | _ => none).toList

/-- A script without types. A module that only had types in its imports and exports still exports
nothing, so that it stays a module. -/
def Source.erase (source : Source) : Source :=
  let scope : Scope := { isTop := true }
  let walk : Erase (List Stmt) := do
    let scope ← Stmt.collectMembers scope source.body
    Stmt.eraseAll scope {} source.body
  let (body, used) := walk []
  let values := source.body.flatMap Stmt.declares
  let types := (source.body.flatMap Stmt.declaresTypes).filter (!values.contains ·)
  let used := usedThrough body body.length used
  let kept := body.flatMap (Stmt.withoutTypes used values types) ++ wholeExport body
  let ending : List Stmt :=
    if source.body.any Stmt.isItem && !kept.any Stmt.isItem then [.exportNames [] none []] else []
  { source with body := kept ++ ending }

end ScriptHost.Script
