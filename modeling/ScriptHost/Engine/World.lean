import ScriptHost.Engine.Native
import ScriptHost.Engine.Table
import ScriptHost.Interrupt
import ScriptHost.Registry.Resolve
import ScriptHost.Settings
/-!
The world of an engine: all objects, scopes and symbols, the reactions that wait to be run, and what
the functions that reach out of the engine work on. It holds no functions of the host, so it can be
looked at, compared and kept.
-/

namespace ScriptHost.Engine

/-! ## Objects that every engine has -/

/-- An object that every engine has from the start. -/
inductive Intrinsic where
  | object | function | array | string | number | boolean | symbol | bigint
  | error | evalError | rangeError | referenceError | typeError | uriError | syntaxError
  | internalError | aggregateError
  | promise | generator | asyncGenerator | generatorFunction | asyncFunction
  | asyncGeneratorFunction | iterator | asyncIterator | arrayIterator | stringIterator | mapIterator
  | setIterator | map | set | weakMap | weakSet | weakRef | date | regexp | typedArray | bytes
  | global | promiseClass | arrayClass
  deriving DecidableEq, Inhabited

/-- The objects that every engine has, in the order in which they are made. -/
def Intrinsic.all : List Intrinsic :=
  [.object, .function, .array, .string, .number, .boolean, .symbol, .bigint, .error, .evalError,
   .rangeError, .referenceError, .typeError, .uriError, .syntaxError, .internalError,
   .aggregateError, .promise, .generator, .asyncGenerator, .generatorFunction, .asyncFunction,
   .asyncGeneratorFunction, .iterator, .asyncIterator, .arrayIterator, .stringIterator,
   .mapIterator, .setIterator, .map, .set, .weakMap, .weakSet, .weakRef, .date, .regexp,
   .typedArray, .bytes, .global, .promiseClass, .arrayClass]

/-- The number of an object that every engine has. -/
def Intrinsic.id (i : Intrinsic) : Nat := i.ctorIdx

/-- The prototype of errors of a kind. -/
def ErrorKind.prototype : ErrorKind → Intrinsic
  | .error => .error
  | .eval => .evalError
  | .range => .rangeError
  | .reference => .referenceError
  | .type => .typeError
  | .uri => .uriError
  | .syntaxError => .syntaxError
  | .internal => .internalError
  | .aggregate => .aggregateError

/-- A symbol that every engine has. -/
inductive WellKnown where
  | iterator | asyncIterator | hasInstance | toPrimitive | toStringTag | species
  | isConcatSpreadable | unscopables | match_ | matchAll | replace | search | split
  deriving DecidableEq, Inhabited

/-- The symbols that every engine has, with their names. -/
def WellKnown.all : List (WellKnown × String) :=
  [(.iterator, "iterator"), (.asyncIterator, "asyncIterator"), (.hasInstance, "hasInstance"),
   (.toPrimitive, "toPrimitive"), (.toStringTag, "toStringTag"), (.species, "species"),
   (.isConcatSpreadable, "isConcatSpreadable"), (.unscopables, "unscopables"), (.match_, "match"),
   (.matchAll, "matchAll"), (.replace, "replace"), (.search, "search"), (.split, "split")]

/-- The number of a symbol that every engine has. -/
def WellKnown.id (s : WellKnown) : Nat := s.ctorIdx

/-- The property named by a symbol that every engine has. -/
def WellKnown.key (s : WellKnown) : Key := .sym s.id

/-! ## Functions -/

/-- Something that a class does for each new object. -/
inductive FieldInit where
  /-- Make a property; the scope is the one of the class. -/
  | value (key : Key) (e : Script.Expr) (scope : Nat)
  /-- Make a property with what stands behind it already known. -/
  | slot (key : Key) (slot : Slot)
  deriving Inhabited

/-- The names that a body declares for the whole function, and its functions. -/
structure Hoisted where
  names : List String
  functions : List Script.Func
  deriving Inhabited

/-- A function that a script made. -/
structure Closure where
  func : Script.Func
  scope : Nat
  /-- The activation that an arrow function shares with the code around it. -/
  activation : Nat
  /-- The object whose prototype `super` means. -/
  home : Option Nat
  hoisted : Hoisted
  isClass : Bool := false
  /-- The class has no constructor of its own. -/
  implicit : Bool := false
  fields : Array FieldInit := #[]
  deriving Inhabited

/-- What a call of a function knows. -/
structure Activation where
  /-- Absent in the constructor of a derived class until its parent is called. -/
  this : Value
  func : Value
  newTarget : Value
  home : Option Nat
  args : Array Value
  deriving Inhabited

/-- Where a piece of code runs. -/
structure Context where
  scope : Nat
  activation : Nat
  strict : Bool
  /-- The values of statements are kept, as the value of the script. -/
  keeps : Bool := false
  isAsync : Bool := false
  isGenerator : Bool := false
  deriving Inhabited

/-! ## Promises and generators -/

/-- What came of a promise. -/
inductive Settled where
  | pending
  | fulfilled (v : Value)
  | rejected (v : Value)
  deriving Inhabited

/-- What is done when a promise settles: a handler for either outcome, and the promise made of the
outcome with the functions that settle it. -/
structure Reaction where
  onFulfilled : Value
  onRejected : Value
  promise : Value
  resolve : Value
  reject : Value
  deriving Inhabited

/-- A piece of work that waits for the stack to be empty. -/
inductive Reactive where
  /-- Call a handler with an outcome; nothing is called for no handler. -/
  | react (r : Reaction) (rejects : Bool) (v : Value)
  /-- Let a thenable settle a promise. -/
  | follow (promise thenable next : Value)
  | call (f : Value)
  deriving Inhabited

/-- Where a suspended body is. -/
inductive Progress where
  | fresh | parked | running | finished
  deriving DecidableEq, Inhabited

/-- How a suspended body is gone on with. -/
inductive Resume where
  | next | throw_ | return_
  deriving DecidableEq, Inhabited

/-- A body that can be suspended. -/
structure Coroutine where
  progress : Progress
  body : List Script.Stmt
  exprBody : Bool
  context : Context
  deriving Inhabited

/-- A request to an asynchronous generator. -/
structure StreamRequest where
  mode : Resume
  value : Value
  promise : Value
  deriving Inhabited

/-! ## Objects -/

/-- A key of a map, up to the sameness of values in maps. -/
inductive MapKey where
  | undefined | null | bool (b : Bool) | num (bits : UInt64) | str (s : String) | sym (id : Nat)
  | big (n : Int) | obj (id : Nat)
  deriving DecidableEq, Hashable, Inhabited

/-- The key of a map that a value is. -/
def MapKey.of : Value → MapKey
  | .absent | .undefined => .undefined
  | .null => .null
  | .bool b => .bool b
  | .num x => if x == 0 then .num 0 else if x.isNaN then .num 1 else .num x.toBits
  | .str s => .str s
  | .sym id => .sym id
  | .big n => .big n
  | .obj id => .obj id

/-- The entries of a map in order; taken ones leave a gap. -/
structure Entries where
  items : Array (Option (Value × Value)) := #[]
  place : Std.HashMap MapKey Nat := ∅
  deriving Inhabited

/-- What an iterator of the engine walks over, and how it gives out what it finds. -/
inductive Walk where
  | keys | values | entries
  deriving DecidableEq, Inhabited

/-- What an object is besides its properties. -/
inductive Kind where
  | plain
  | closure (c : Closure)
  /-- A function of the engine with the values it keeps; whether it may be called by `new`. -/
  | native (f : Native) (kept : Array Value) (constructs : Bool)
  | bound (target this : Value) (args : Array Value)
  /-- The first elements; further ones are properties. `loose`: all elements are properties. -/
  | array (items : Array Value) (length : Nat) (fixedLength loose : Bool)
  | error
  /-- A primitive value as an object. -/
  | box (v : Value)
  | date (millis : Float)
  | promise (state : Settled) (reactions : Array Reaction) (handled : Bool)
  | map (entries : Entries)
  | set (entries : Entries)
  | weakMap (entries : Entries)
  | weakSet (entries : Entries)
  | weakRef (v : Value)
  | proxy (target handler : Value) (callable constructs : Bool)
  | coroutine (c : Coroutine)
  | stream (c : Coroutine) (queue : List StreamRequest)
  /-- The arguments of a call. An element may stand for a variable of the scope of the parameters. -/
  | arguments (scope : Nat) (slots : Array (Option Nat))
  | bytes (items : ByteArray)
  | regexp (body flags : String)
  | iterator (source : Value) (next : Nat) (walk : Walk)
  deriving Inhabited

/-- An object. -/
structure Obj where
  proto : Value
  props : Table := {}
  extensible : Bool := true
  kind : Kind := .plain
  deriving Inhabited

/-! ## Scopes -/

/-- What may be done with a variable. -/
inductive BindKind where
  | var | let_ | const_
  /-- The name of a function expression inside it. -/
  | own
  deriving DecidableEq, Inhabited

/-- A variable. -/
structure Binding where
  name : String
  value : Value
  kind : BindKind
  deriving Inhabited

/-- What a scope is made of besides its variables. -/
inductive ScopeKind where
  | plain
  /-- The scope of a function's parameters; `arguments` is made when asked for. Its elements stand for
  the parameters where these are plain names in code that is not strict. -/
  | function (activation : Nat) (aliased : List String) (strict : Bool)
  /-- The properties of an object are variables. -/
  | object (id : Nat)
  deriving Inhabited

/-- A scope. The outermost one has no parent; behind it are the properties of the global object. -/
structure Scope where
  vars : Array Binding
  parent : Option Nat
  kind : ScopeKind := .plain
  deriving Inhabited

/-! ## What is outside of the engine -/

/-- A timer: when it was set, how long it waits, and whether it goes on. -/
structure Timer where
  id : Nat
  delay : Span
  repeating : Bool
  deriving DecidableEq, Inhabited

/-- The timers of a generation. -/
structure Timers where
  nextId : Nat := 1
  /-- The timers that were set and neither cleared nor, unless they repeat, fired. -/
  active : List Nat := []
  /-- Timers set since they were last asked for, newest first. -/
  started : List Timer := []
  deriving Inhabited

namespace Timers

/-- The next handle is taken. -/
def take (t : Timers) : Timers := { t with nextId := t.nextId + 1 }

/-- A timer of a taken handle starts. -/
def activate (t : Timers) (timer : Timer) : Timers :=
  { t with active := timer.id :: t.active, started := timer :: t.started }

/-- The timer waits to fire. -/
def isActive (t : Timers) (id : Nat) : Bool := t.active.contains id

/-- Take a timer away; whether it was there. -/
def cancel (t : Timers) (id : Nat) : Bool × Timers :=
  (t.isActive id, { t with active := t.active.filter (· ≠ id) })

end Timers

/-- What functions that reach out of the engine work on. -/
structure Outside where
  generation : Nat
  registry : Registry
  files : Files
  /-- The uses of the files, newest first. -/
  accesses : List ScriptHost.Access := []
  /-- Newest first. -/
  console : List ConsoleLine := []
  /-- Newest first. -/
  logs : List LogLine := []
  timers : Timers := {}
  interrupt : Interrupt := {}
  /-- Milliseconds since the epoch. -/
  clock : Float := 0

instance : Inhabited Outside :=
  ⟨{ generation := 0, registry := .new ⟨"."⟩,
     files := .none }⟩

/-! ## The world -/

/-- Everything that an engine knows. -/
structure World where
  heap : Array Obj
  scopes : Array Scope
  activations : Array Activation
  /-- The descriptions of the symbols. -/
  symbols : Array (Option String)
  /-- The symbols that are known by a text everywhere. -/
  shared : List (String × Nat)
  /-- What waits to be run, oldest first. -/
  waiting : Array Reactive
  /-- How many of those that wait were run. -/
  served : Nat
  /-- Calls and rounds of loops up to the next question whether to go on. -/
  ticks : Nat
  /-- Bytes taken by the running job, by estimate. -/
  used : Nat
  memoryLimit : Option Nat
  /-- How often a function was made that keeps its scope. -/
  captures : Nat
  /-- The calls that are under way. -/
  frames : Nat
  /-- The scripts that are under way. -/
  scripts : Nat
  /-- The value of the script. -/
  result : Value
  outside : Outside
  deriving Inhabited

/-- Calls and rounds of loops between two questions whether to go on. -/
def pollInterval : Nat := 10000

end ScriptHost.Engine
