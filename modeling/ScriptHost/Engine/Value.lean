import ScriptHost.Script.Ast
import ScriptHost.Text.Units
/-!
Values of scripts and the names under which objects keep them. A value is first-order: objects and
symbols are numbers, which the world of the engine gives a meaning.
-/

namespace ScriptHost.Engine

/-- Change an element of an array. The element is out of the array meanwhile, so nothing is copied. -/
@[noinline] def alterAt {α : Type} (xs : Array α) (i : Nat) (f : α → α) : Array α := xs.modify i f

/-- Change an element of an array and find something out by it; where there is none, by another one. -/
@[noinline] def updateAt {α β : Type} (xs : Array α) (i : Nat) (other : α) (f : α → β × α) :
    β × Array α :=
  if h : i < xs.size then
    let (x, xs) := xs.swapAt i other h
    let (b, x) := f x
    (b, xs.set! i x)
  else ((f other).1, xs)

/-- A value. -/
inductive Value where
  /-- No value: a hole of an array, a variable before its declaration. No script sees it. -/
  | absent
  | undefined
  | null
  | bool (b : Bool)
  | num (x : Float)
  | str (s : String)
  | sym (id : Nat)
  | big (n : Int)
  | obj (id : Nat)
  deriving Inhabited

/-- The name of a property. A text that writes a whole number below 2³² − 1 in the usual way is always
an `index`. -/
inductive Key where
  | index (n : Nat)
  | text (s : String)
  | sym (id : Nat)
  /-- The private name of a class. -/
  | priv (id : Nat)
  deriving DecidableEq, Hashable, Inhabited

namespace Key

/-- The number that a text writes, if it is an index. -/
def indexOf? (s : String) : Option Nat :=
  let cs := s.toList
  match cs with
  | [] => none
  | ['0'] => some 0
  | c :: _ =>
    if c = '0' || cs.length > 10 || !cs.all Char.isDigit then none
    else
      let n := cs.foldl (fun n c => n * 10 + (c.toNat - 48)) 0
      if n < 4294967295 then some n else none

/-- The name that a text stands for. -/
def ofText (s : String) : Key :=
  match s.toList with
  | c :: _ =>
    if c.isDigit then
      match indexOf? s with
      | some n => .index n
      | none => .text s
    else .text s
  | [] => .text s

/-- The value that a name is given out as. -/
def toValue : Key → Value
  | .index n => .str (toString n)
  | .text s => .str s
  | .sym id => .sym id
  | .priv _ => .undefined

/-- The text of a name that is no symbol. -/
def shown : Key → String
  | .index n => toString n
  | .text s => s
  | .sym _ | .priv _ => ""

/-- The name is a symbol. -/
def isSymbol : Key → Bool
  | .sym _ => true
  | _ => false

end Key

/-- What may be done with a property. -/
structure Rights where
  writable : Bool
  enumerable : Bool
  configurable : Bool
  deriving DecidableEq, Inhabited

namespace Rights

/-- Everything. -/
def full : Rights := ⟨true, true, true⟩

/-- Everything but listing it. -/
def hidden : Rights := ⟨true, false, true⟩

/-- Only deleting and redefining it. -/
def fixed : Rights := ⟨false, false, true⟩

/-- Nothing. -/
def frozen : Rights := ⟨false, false, false⟩

end Rights

/-- A property: a value, or a pair of functions. -/
inductive Slot where
  | data (value : Value) (rights : Rights)
  | accessor (get set : Value) (rights : Rights)
  deriving Inhabited

namespace Slot

/-- What may be done with the property. -/
def rights : Slot → Rights
  | .data _ a | .accessor _ _ a => a

/-- The property shows up in listings. -/
def enumerable (s : Slot) : Bool := s.rights.enumerable

/-- The property may be deleted and redefined. -/
def configurable (s : Slot) : Bool := s.rights.configurable

/-- The same property with other rights. -/
def withRights : Slot → Rights → Slot
  | .data v _, a => .data v a
  | .accessor g s _, a => .accessor g s a

end Slot

end ScriptHost.Engine
