import ScriptHost.Log
/-!
The functions that an engine brings along, by family. What they do is in the modules of the families;
here they only have names.
-/

namespace ScriptHost.Engine

/-- The kinds of errors with a constructor of their own. -/
inductive ErrorKind where
  | error | eval | range | reference | type | uri | syntaxError | internal | aggregate
  deriving DecidableEq, Inhabited

/-- The name of a kind of error. -/
def ErrorKind.name : ErrorKind → String
  | .error => "Error"
  | .eval => "EvalError"
  | .range => "RangeError"
  | .reference => "ReferenceError"
  | .type => "TypeError"
  | .uri => "URIError"
  | .syntaxError => "SyntaxError"
  | .internal => "InternalError"
  | .aggregate => "AggregateError"

/-- All kinds of errors. -/
def ErrorKind.all : List ErrorKind :=
  [.error, .eval, .range, .reference, .type, .uri, .syntaxError, .internal, .aggregate]

/-- Functions on objects. -/
inductive ObjectFn where
  | new | assign | create | defineProperty | defineProperties | entries | freeze | fromEntries
  | getOwnPropertyDescriptor | getOwnPropertyDescriptors | getOwnPropertyNames
  | getOwnPropertySymbols | getPrototypeOf | setPrototypeOf | is | isExtensible | isFrozen | isSealed
  | keys | preventExtensions | seal | values | hasOwn | groupBy
  | hasOwnProperty | isPrototypeOf | propertyIsEnumerable | toLocaleString | toString | valueOf
  | protoGet | protoSet | defineGetter | defineSetter | lookupGetter | lookupSetter
  deriving DecidableEq, Inhabited

/-- Functions on functions. -/
inductive FunctionFn where
  | new | prototype | apply | bind | call | toString | hasInstance | thrower
  deriving DecidableEq, Inhabited

/-- Functions on errors. -/
inductive ErrorFn where
  | new (kind : ErrorKind) | toString | captureStackTrace
  deriving DecidableEq, Inhabited

/-- Functions on arrays. -/
inductive ArrayFn where
  | new | isArray | from_ | of_ | at_ | concat | copyWithin | entries | every | fill | filter | find
  | findIndex | findLast | findLastIndex | flat | flatMap | forEach | includes | indexOf | join | keys
  | lastIndexOf | map | pop | push | reduce | reduceRight | reverse | shift | slice | some | sort
  | splice | toLocaleString | toReversed | toSorted | toSpliced | toString | unshift | values | with
  | species | next
  deriving DecidableEq, Inhabited

/-- Functions on texts. -/
inductive StringFn where
  | new | fromCharCode | fromCodePoint | raw | at_ | charAt | charCodeAt | codePointAt | concat
  | endsWith | includes | indexOf | isWellFormed | lastIndexOf | localeCompare | normalize | padEnd
  | padStart | repeat_ | replace | replaceAll | slice | split | startsWith | substr | substring
  | toLowerCase | toString | toUpperCase | toWellFormed | trim | trimEnd | trimStart | valueOf
  | iterator | next
  deriving DecidableEq, Inhabited

/-- Functions on numbers. -/
inductive NumberFn where
  | new | isFinite | isInteger | isNaN | isSafeInteger | toExponential | toFixed | toLocaleString
  | toPrecision | toString | valueOf | parseInt | parseFloat | globalIsNaN | globalIsFinite
  deriving DecidableEq, Inhabited

/-- Functions on truth values. -/
inductive BooleanFn where
  | new | toString | valueOf
  deriving DecidableEq, Inhabited

/-- Functions on symbols. -/
inductive SymbolFn where
  | new | for_ | keyFor | toString | valueOf | description | toPrimitive
  deriving DecidableEq, Inhabited

/-- Functions on whole numbers of any size. -/
inductive BigIntFn where
  | new | asIntN | asUintN | toString | valueOf | toLocaleString
  deriving DecidableEq, Inhabited

/-- Functions of mathematics. -/
inductive MathFn where
  | abs | acos | acosh | asin | asinh | atan | atan2 | atanh | cbrt | ceil | clz32 | cos | cosh | exp
  | expm1 | floor | fround | hypot | imul | log | log10 | log1p | log2 | max | min | pow | random
  | round | sign | sin | sinh | sqrt | tan | tanh | trunc
  deriving DecidableEq, Inhabited

/-- Functions on JSON texts. -/
inductive JsonFn where
  | parse | stringify
  deriving DecidableEq, Inhabited

/-- Functions on promises, and the functions that they hand out. -/
inductive PromiseFn where
  | new | resolve | reject | all | allSettled | any | race | withResolvers | then_ | catch_ | finally_
  | species
  /-- Settles the promise at hand. -/
  | settle (rejects : Bool)
  /-- Keeps the two functions that an executor is given. -/
  | executor
  | thenFinally | catchFinally | valueThunk | thrower
  | allElement | settledElement (rejects : Bool) | anyElement
  /-- Goes on with an asynchronous function. -/
  | awaited (rejects : Bool)
  /-- Goes on with an asynchronous generator. -/
  | streamed (rejects : Bool)
  /-- Ends an asynchronous generator that has been asked to return. -/
  | streamEnded (rejects : Bool)
  deriving DecidableEq, Inhabited

/-- Functions on generators. -/
inductive GeneratorFn where
  | next | return_ | throw_ | self | asyncNext | asyncReturn | asyncThrow
  deriving DecidableEq, Inhabited

/-- Functions on maps and sets. -/
inductive CollectionFn where
  | newMap | newSet | newWeakMap | newWeakSet | newWeakRef | clear | delete | entries | forEach | get
  | has | keys | set | size | values | add | next | deref | groupBy | species
  deriving DecidableEq, Inhabited

/-- Functions on dates. -/
inductive DateFn where
  | new | now | parse | utc | getTime | toISOString | toJSON | toString | valueOf | toPrimitive
  | getFullYear | getMonth | getDate | getDay | getHours | getMinutes | getSeconds | getMilliseconds
  | getTimezoneOffset | setTime | toDateString | toTimeString | toUTCString
  deriving DecidableEq, Inhabited

/-- Functions that reflect on objects. -/
inductive ReflectFn where
  | apply | construct | defineProperty | deleteProperty | get | getOwnPropertyDescriptor
  | getPrototypeOf | has | isExtensible | ownKeys | preventExtensions | set | setPrototypeOf
  | proxy | revocable | revoke
  deriving DecidableEq, Inhabited

/-- Functions on arrays of bytes. -/
inductive BytesFn where
  | new | from_ | of_ | length | at_ | fill | set | subarray | slice | toString | join | values | base
  | forEach | map
  deriving DecidableEq, Inhabited

/-- Functions of the global object. -/
inductive GlobalFn where
  | eval | queueMicrotask | encodeURIComponent | encodeURI | decodeURIComponent | decodeURI
  deriving DecidableEq, Inhabited

/-- Functions on regular expressions. -/
inductive PatternFn where
  | new | toString | source | flags
  deriving DecidableEq, Inhabited

/-- Functions that reach out of the engine. -/
inductive HostFn where
  | console (level : ConsoleMethod)
  /-- Requires on behalf of a module record, below the modules of these keys. -/
  | require (parent : Nat) (chain : List String)
  | setModule | modules | setTimeout | setInterval | setImmediate | clearTimer
  deriving DecidableEq, Inhabited

/-- A function that an engine brings along. -/
inductive Native where
  | object (f : ObjectFn)
  | function (f : FunctionFn)
  | error (f : ErrorFn)
  | array (f : ArrayFn)
  | string (f : StringFn)
  | number (f : NumberFn)
  | boolean (f : BooleanFn)
  | symbol (f : SymbolFn)
  | bigint (f : BigIntFn)
  | math (f : MathFn)
  | json (f : JsonFn)
  | promise (f : PromiseFn)
  | generator (f : GeneratorFn)
  | collection (f : CollectionFn)
  | date (f : DateFn)
  | reflect (f : ReflectFn)
  | bytes (f : BytesFn)
  | pattern (f : PatternFn)
  | global (f : GlobalFn)
  | host (f : HostFn)
  deriving DecidableEq, Inhabited

end ScriptHost.Engine
