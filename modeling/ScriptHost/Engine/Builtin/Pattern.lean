import ScriptHost.Engine.Builtin.Basic
/-!
Functions on regular expressions as objects: their body and their flags.
-/

namespace ScriptHost.Engine.Builtin

/-- The body and the flags of a regular expression. -/
def patternOf (v : Value) : M (String × String) := do
  match v with
  | .obj id =>
    match (← objectOf id).kind with
    | .regexp body flags => return (body, flags)
    | _ => throwType "not a RegExp object"
  | _ => throwType "not a RegExp object"

/-- The text that writes a body in a script. -/
def bodyText (body : String) : String := if body.isEmpty then "(?:)" else body

/-- A regular expression made of a text or of another one. -/
def makePattern (v flags : Value) : M Value := do
  let old ← match v with
    | .obj id =>
      match (← objectOf id).kind with
      | .regexp body flags => pure (some (body, flags))
      | _ => pure none
    | _ => pure none
  let body ← match old, v with
    | some (body, _), _ => pure body
    | none, .undefined => pure ""
    | none, v => toText v
  let flags ← match flags, old with
    | .undefined, some (_, flags) => pure flags
    | .undefined, none => pure ""
    | v, _ => toText v
  let known := ['d', 'g', 'i', 'm', 's', 'u', 'v', 'y']
  let repeats := flags.toList.eraseDups.length < flags.length
  if repeats || flags.toList.any (fun c => !known.contains c) then
    throwNew .syntaxError "invalid regular expression flags"
  newPattern body flags

/-- Functions on regular expressions. -/
def pattern (f : PatternFn) (i : Invocation) : M Value := do
  match f with
  | .new => makePattern (i.arg 0) (i.arg 1)
  | .toString => do
    if i.this.isPrimitive then throwType "not an object"
    let source ← toText (← getNamed i.this "source")
    let flags ← toText (← getNamed i.this "flags")
    return .str ("/" ++ source ++ "/" ++ flags)
  | .source => do return .str (bodyText (← patternOf i.this).1)
  | .flags => do return .str (← patternOf i.this).2

end ScriptHost.Engine.Builtin
