import ScriptHost.Engine.Builtin.Collection
import ScriptHost.Engine.Builtin.Date
import ScriptHost.Engine.Builtin.Pattern
import ScriptHost.Engine.Builtin.Promise
import ScriptHost.Engine.Builtin.Reflect
import ScriptHost.Engine.Builtin.Text
import ScriptHost.Engine.Host.Outward
/-!
Calls of anything that can be called: functions of scripts, of the engine, bound ones and proxies.
-/

namespace ScriptHost.Engine

/-- Call a function of the engine. -/
def callNative (f : Native) (i : Invocation) : M Value :=
  match f with
  | .object f => Builtin.object f i
  | .function f => Builtin.function f i
  | .error f => Builtin.error f i
  | .array f => Builtin.array f i
  | .string f => Builtin.string f i
  | .number f => Builtin.number f i
  | .boolean f => Builtin.boolean f i
  | .symbol f => Builtin.symbol f i
  | .bigint f => Builtin.bigint f i
  | .math f => Builtin.math f i
  | .json f => Builtin.json f i
  | .promise f => Builtin.promise f i
  | .generator f => Builtin.generator f i
  | .collection f => Builtin.collection f i
  | .date f => Builtin.date f i
  | .reflect f => Builtin.reflect f i
  | .bytes f => Builtin.bytes f i
  | .pattern f => Builtin.pattern f i
  | .global f => Builtin.global f i
  | .host f => hostFunction f i.args

/-- Call a value. -/
def callValue (f this : Value) (args : Array Value) : M Value := do
  match f with
  | .obj id =>
    match (← objectOf id).kind with
    | .closure k => callClosure k f this args
    | .native n kept _ => callNative n ⟨f, this, args, .undefined, kept⟩
    | .bound target this first => call target this (first ++ args)
    | .proxy _ _ true _ => do
      let (target, handler, trap) ← trapOf id "apply"
      match trap with
      | none => call (.obj target) this args
      | some t => call t (.obj handler) #[.obj target, this, ← newArray args]
    | _ => throwType "not a function"
  | _ => throwType "not a function"

/-- Call a value by `new`. -/
def constructValue (f : Value) (args : Array Value) (newTarget : Value) : M Value := do
  unless ← isConstructor f do throwType "not a constructor"
  match f with
  | .obj id =>
    match (← objectOf id).kind with
    | .closure k => constructClosure k f args newTarget
    | .native n kept _ => callNative n ⟨f, .undefined, args, newTarget, kept⟩
    | .bound target _ first =>
      construct target (first ++ args) (if sameValue f newTarget then target else newTarget)
    | .proxy .. => do
      let (target, handler, trap) ← trapOf id "construct"
      let inner := if sameValue f newTarget then Value.obj target else newTarget
      match trap with
      | none => construct (.obj target) args inner
      | some t => do
        let r ← call t (.obj handler) #[.obj target, ← newArray args, newTarget]
        if r.isPrimitive then throwType "not an object"
        return r
    | _ => throwType "not a constructor"
  | _ => throwType "not a constructor"

end ScriptHost.Engine
