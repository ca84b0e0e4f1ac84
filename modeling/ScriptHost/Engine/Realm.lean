import ScriptHost.Engine.Iterate
/-!
The world that an engine starts with: the objects that every engine has, their functions, and the
global object with its names.
-/

namespace ScriptHost.Engine

namespace Realm

/-- What the objects that every engine has are, each with the object above it. -/
def shape : Intrinsic → Value × Kind
  | .object => (.null, .plain)
  | .function => (.obj Intrinsic.object.id, .native (.function .prototype) #[] false)
  | .array => (.obj Intrinsic.object.id, .array #[] 0 false false)
  | .string => (.obj Intrinsic.object.id, .box (.str ""))
  | .number => (.obj Intrinsic.object.id, .box (.num 0))
  | .boolean => (.obj Intrinsic.object.id, .box (.bool false))
  | .evalError | .rangeError | .referenceError | .typeError | .uriError | .syntaxError
  | .internalError | .aggregateError => (.obj Intrinsic.error.id, .plain)
  | .generatorFunction | .asyncFunction | .asyncGeneratorFunction =>
    (.obj Intrinsic.function.id, .plain)
  | .generator | .arrayIterator | .stringIterator | .mapIterator | .setIterator =>
    (.obj Intrinsic.iterator.id, .plain)
  | .asyncGenerator => (.obj Intrinsic.asyncIterator.id, .plain)
  | .bytes => (.obj Intrinsic.typedArray.id, .plain)
  | .promiseClass => (.obj Intrinsic.function.id, .native (.promise .new) #[] true)
  | .arrayClass => (.obj Intrinsic.function.id, .native (.array .new) #[] true)
  | _ => (.obj Intrinsic.object.id, .plain)

/-- The objects that every engine has, before their properties are made. -/
def bare : World :=
  { heap := (Intrinsic.all.map fun i =>
      let (proto, kind) := shape i
      { proto, kind : Obj }).toArray
    scopes := #[⟨#[], none, .plain⟩]
    activations :=
      #[⟨.obj Intrinsic.global.id, .undefined, .undefined, none, #[]⟩]
    symbols := (WellKnown.all.map fun (_, name) => some ("Symbol." ++ name)).toArray
    shared := []
    waiting := #[]
    served := 0
    ticks := pollInterval
    used := 0
    memoryLimit := none
    captures := 0
    frames := 0
    scripts := 0
    result := .undefined
    outside := default }

/-- Give an object a property. -/
def putSlot (id : Nat) (k : Key) (s : Slot) (w : World) : World := w.setObj id (·.put k s)

/-- Give an object a value that listings do not show. -/
def putHidden (id : Nat) (name : String) (v : Value) (w : World) : World :=
  putSlot id (.text name) (.data v .hidden) w

/-- A further function of the engine. -/
def native (f : Native) (name : String) (length : Nat) (w : World) : Nat × World :=
  w.alloc
    { proto := .obj Intrinsic.function.id, props := functionTable length name,
      kind := .native f #[] false }

/-- Give an object a function. -/
def method (id : Nat) (name : String) (f : Native) (length : Nat) (w : World) : World :=
  let (fn, w) := native f name length w
  putHidden id name (.obj fn) w

/-- Give an object functions. -/
def methods (id : Nat) (fs : List (String × Native × Nat)) (w : World) : World :=
  fs.foldl (fun w (name, f, length) => method id name f length w) w

/-- Give an object a function under a symbol. -/
def symbolMethod (id : Nat) (s : WellKnown) (name : String) (f : Native) (length : Nat)
    (rights : Rights) (w : World) : World :=
  let (fn, w) := native f name length w
  putSlot id s.key (.data (.obj fn) rights) w

/-- Give an object a property that a function finds. -/
def getter (id : Nat) (k : Key) (name : String) (f : Native) (w : World) : World :=
  let (fn, w) := native f ("get " ++ name) 0 w
  putSlot id k (.accessor (.obj fn) .undefined .fixed) w

/-- Give the objects of a kind the name that their text shows. -/
def tag (id : Nat) (name : String) (w : World) : World :=
  putSlot id WellKnown.toStringTag.key (.data (.str name) .fixed) w

/-- Let a function and a prototype know each other. -/
def link (fn proto : Nat) (w : World) : World :=
  putHidden proto "constructor" (.obj fn)
    (putSlot fn (.text "prototype") (.data (.obj proto) .frozen) w)

/-- A global constructor with its prototype. -/
def constructor (name : String) (f : Native) (length : Nat) (proto : Intrinsic) (parent : Nat)
    (w : World) : Nat × World :=
  let (id, w) := native f name length w
  let w := w.setObj id fun o => { o with proto := .obj parent, kind := .native f #[] true }
  (id, putHidden Intrinsic.global.id name (.obj id) (link id proto.id w))

/-- A global constructor with functions of its own and functions of its objects. -/
def family (name : String) (f : Native) (length : Nat) (proto : Intrinsic)
    (own objects : List (String × Native × Nat)) (w : World) : World :=
  let (id, w) := constructor name f length proto Intrinsic.function.id w
  methods proto.id objects (methods id own w)

/-- A constructor that was made beforehand becomes known. -/
def reserved (fn : Intrinsic) (name : String) (length : Nat) (proto : Intrinsic)
    (own objects : List (String × Native × Nat)) (w : World) : World :=
  let w := w.setObj fn.id fun o => { o with props := functionTable length name }
  let w := link fn.id proto.id w
  let w := putHidden Intrinsic.global.id name (.obj fn.id) w
  methods proto.id objects (methods fn.id own w)

/-! ## Families -/

/-- Objects and functions. -/
def objects (w : World) : World :=
  let o (f : ObjectFn) : Native := .object f
  let w := family "Object" (o .new) 1 .object
    [("assign", o .assign, 2), ("create", o .create, 2), ("defineProperty", o .defineProperty, 3),
     ("defineProperties", o .defineProperties, 2), ("entries", o .entries, 1),
     ("freeze", o .freeze, 1), ("fromEntries", o .fromEntries, 1),
     ("getOwnPropertyDescriptor", o .getOwnPropertyDescriptor, 2),
     ("getOwnPropertyDescriptors", o .getOwnPropertyDescriptors, 1),
     ("getOwnPropertyNames", o .getOwnPropertyNames, 1),
     ("getOwnPropertySymbols", o .getOwnPropertySymbols, 1),
     ("getPrototypeOf", o .getPrototypeOf, 1), ("setPrototypeOf", o .setPrototypeOf, 2),
     ("is", o .is, 2), ("isExtensible", o .isExtensible, 1), ("isFrozen", o .isFrozen, 1),
     ("isSealed", o .isSealed, 1), ("keys", o .keys, 1),
     ("preventExtensions", o .preventExtensions, 1), ("seal", o .seal, 1),
     ("values", o .values, 1), ("hasOwn", o .hasOwn, 2), ("groupBy", o .groupBy, 2)]
    [("hasOwnProperty", o .hasOwnProperty, 1), ("isPrototypeOf", o .isPrototypeOf, 1),
     ("propertyIsEnumerable", o .propertyIsEnumerable, 1),
     ("toLocaleString", o .toLocaleString, 0), ("toString", o .toString, 0),
     ("valueOf", o .valueOf, 0), ("__defineGetter__", o .defineGetter, 2),
     ("__defineSetter__", o .defineSetter, 2), ("__lookupGetter__", o .lookupGetter, 1),
     ("__lookupSetter__", o .lookupSetter, 1)] w
  let (get, w) := native (o .protoGet) "get __proto__" 0 w
  let (set, w) := native (o .protoSet) "set __proto__" 1 w
  let w := putSlot Intrinsic.object.id (.text "__proto__")
    (.accessor (.obj get) (.obj set) .fixed) w
  let f (f : FunctionFn) : Native := .function f
  let w := family "Function" (f .new) 1 .function []
    [("apply", f .apply, 2), ("bind", f .bind, 1), ("call", f .call, 1),
     ("toString", f .toString, 0)] w
  let w := putSlot Intrinsic.function.id (.text "length") (.data (.num 0) .fixed) w
  let w := putSlot Intrinsic.function.id (.text "name") (.data (.str "") .fixed) w
  symbolMethod Intrinsic.function.id .hasInstance "[Symbol.hasInstance]" (f .hasInstance) 1 .frozen w

/-- Errors. -/
def errors (w : World) : World :=
  let new (kind : ErrorKind) : Native := .error (.new kind)
  let (base, w) := constructor "Error" (new .error) 1 .error Intrinsic.function.id w
  let w := methods base [("captureStackTrace", .error .captureStackTrace, 2)] w
  let w := method Intrinsic.error.id "toString" (.error .toString) 0 w
  ErrorKind.all.foldl (fun w kind =>
    let w := if kind = .error then w else
      (constructor kind.name (new kind) (if kind = .aggregate then 2 else 1) kind.prototype base w).2
    putHidden kind.prototype.id "message" (.str "")
      (putHidden kind.prototype.id "name" (.str kind.name) w)) w

/-- Arrays. -/
def arrays (w : World) : World :=
  let a (f : ArrayFn) : Native := .array f
  let w := reserved .arrayClass "Array" 1 .array
    [("isArray", a .isArray, 1), ("from", a .from_, 1), ("of", a .of_, 0)]
    [("at", a .at_, 1), ("concat", a .concat, 1), ("copyWithin", a .copyWithin, 2),
     ("entries", a .entries, 0), ("every", a .every, 1), ("fill", a .fill, 1),
     ("filter", a .filter, 1), ("find", a .find, 1), ("findIndex", a .findIndex, 1),
     ("findLast", a .findLast, 1), ("findLastIndex", a .findLastIndex, 1), ("flat", a .flat, 0),
     ("flatMap", a .flatMap, 1), ("forEach", a .forEach, 1), ("includes", a .includes, 1),
     ("indexOf", a .indexOf, 1), ("join", a .join, 1), ("keys", a .keys, 0),
     ("lastIndexOf", a .lastIndexOf, 1), ("map", a .map, 1), ("pop", a .pop, 0),
     ("push", a .push, 1), ("reduce", a .reduce, 1), ("reduceRight", a .reduceRight, 1),
     ("reverse", a .reverse, 0), ("shift", a .shift, 0), ("slice", a .slice, 2),
     ("some", a .some, 1), ("sort", a .sort, 1), ("splice", a .splice, 2),
     ("toLocaleString", a .toLocaleString, 0), ("toReversed", a .toReversed, 0),
     ("toSorted", a .toSorted, 1), ("toSpliced", a .toSpliced, 2), ("toString", a .toString, 0),
     ("unshift", a .unshift, 1), ("values", a .values, 0), ("with", a .with, 2)] w
  let w := match (w.obj Intrinsic.array.id).own? (.text "values") with
    | some s => putSlot Intrinsic.array.id WellKnown.iterator.key s w
    | none => w
  let w := getter Intrinsic.arrayClass.id WellKnown.species.key "[Symbol.species]" (a .species) w
  let w := method Intrinsic.arrayIterator.id "next" (a .next) 0 w
  let w := tag Intrinsic.arrayIterator.id "Array Iterator" w
  let g (f : GeneratorFn) : Native := .generator f
  let w := symbolMethod Intrinsic.iterator.id .iterator "[Symbol.iterator]" (g .self) 0 .hidden w
  symbolMethod Intrinsic.asyncIterator.id .asyncIterator "[Symbol.asyncIterator]" (g .self) 0 .hidden w

/-- Texts. -/
def texts (w : World) : World :=
  let s (f : StringFn) : Native := .string f
  let w := family "String" (s .new) 1 .string
    [("fromCharCode", s .fromCharCode, 1), ("fromCodePoint", s .fromCodePoint, 1), ("raw", s .raw, 1)]
    [("at", s .at_, 1), ("charAt", s .charAt, 1), ("charCodeAt", s .charCodeAt, 1),
     ("codePointAt", s .codePointAt, 1), ("concat", s .concat, 1), ("endsWith", s .endsWith, 1),
     ("includes", s .includes, 1), ("indexOf", s .indexOf, 1), ("isWellFormed", s .isWellFormed, 0),
     ("lastIndexOf", s .lastIndexOf, 1), ("localeCompare", s .localeCompare, 1),
     ("normalize", s .normalize, 0), ("padEnd", s .padEnd, 1), ("padStart", s .padStart, 1),
     ("repeat", s .repeat_, 1), ("replace", s .replace, 2), ("replaceAll", s .replaceAll, 2),
     ("slice", s .slice, 2), ("split", s .split, 2), ("startsWith", s .startsWith, 1),
     ("substr", s .substr, 2), ("substring", s .substring, 2), ("toLowerCase", s .toLowerCase, 0),
     ("toLocaleLowerCase", s .toLowerCase, 0), ("toLocaleUpperCase", s .toUpperCase, 0),
     ("toString", s .toString, 0), ("toUpperCase", s .toUpperCase, 0),
     ("toWellFormed", s .toWellFormed, 0), ("trim", s .trim, 0), ("trimEnd", s .trimEnd, 0),
     ("trimStart", s .trimStart, 0), ("valueOf", s .valueOf, 0)] w
  let w := symbolMethod Intrinsic.string.id .iterator "[Symbol.iterator]" (s .iterator) 0 .hidden w
  let w := method Intrinsic.stringIterator.id "next" (s .next) 0 w
  tag Intrinsic.stringIterator.id "String Iterator" w

/-- Fixed values of an object. -/
def constants (id : Nat) (cs : List (String × Float)) (w : World) : World :=
  cs.foldl (fun w (name, x) => putSlot id (.text name) (.data (.num x) .frozen) w) w

/-- Numbers, truth values, symbols and whole numbers of any size. -/
def primitives (w : World) : World :=
  let n (f : NumberFn) : Native := .number f
  let (number, w) := constructor "Number" (n .new) 1 .number Intrinsic.function.id w
  let w := methods Intrinsic.number.id
    [("toExponential", n .toExponential, 1), ("toFixed", n .toFixed, 1),
     ("toLocaleString", n .toLocaleString, 0), ("toPrecision", n .toPrecision, 1),
     ("toString", n .toString, 1), ("valueOf", n .valueOf, 0)] w
  let w := methods Intrinsic.global.id
    [("parseInt", n .parseInt, 2), ("parseFloat", n .parseFloat, 1), ("isNaN", n .globalIsNaN, 1),
     ("isFinite", n .globalIsFinite, 1)] w
  let w := methods number
    [("isFinite", n .isFinite, 1), ("isInteger", n .isInteger, 1), ("isNaN", n .isNaN, 1),
     ("isSafeInteger", n .isSafeInteger, 1), ("parseInt", n .parseInt, 2),
     ("parseFloat", n .parseFloat, 1)] w
  let w := constants number
    [("MAX_VALUE", 1.7976931348623157e308), ("MIN_VALUE", Float.ofBits 1), ("NaN", 0.0 / 0.0),
     ("NEGATIVE_INFINITY", -(1.0 / 0.0)), ("POSITIVE_INFINITY", 1.0 / 0.0),
     ("EPSILON", 2.220446049250313e-16), ("MAX_SAFE_INTEGER", 9007199254740991),
     ("MIN_SAFE_INTEGER", -9007199254740991)] w
  let b (f : BooleanFn) : Native := .boolean f
  let w := family "Boolean" (b .new) 1 .boolean []
    [("toString", b .toString, 0), ("valueOf", b .valueOf, 0)] w
  let s (f : SymbolFn) : Native := .symbol f
  let (symbol, w) := constructor "Symbol" (s .new) 0 .symbol Intrinsic.function.id w
  let w := methods symbol [("for", s .for_, 1), ("keyFor", s .keyFor, 1)] w
  let w := methods Intrinsic.symbol.id [("toString", s .toString, 0), ("valueOf", s .valueOf, 0)] w
  let w := getter Intrinsic.symbol.id (.text "description") "description" (s .description) w
  let w := symbolMethod Intrinsic.symbol.id .toPrimitive "[Symbol.toPrimitive]" (s .toPrimitive) 1
    .fixed w
  let w := tag Intrinsic.symbol.id "Symbol" w
  let w := WellKnown.all.foldl (fun w (k, name) =>
    putSlot symbol (.text name) (.data (.sym k.id) .frozen) w) w
  let g (f : BigIntFn) : Native := .bigint f
  let w := family "BigInt" (g .new) 1 .bigint [("asIntN", g .asIntN, 2), ("asUintN", g .asUintN, 2)]
    [("toString", g .toString, 0), ("valueOf", g .valueOf, 0),
     ("toLocaleString", g .toLocaleString, 0)] w
  tag Intrinsic.bigint.id "BigInt" w

/-- A further object without properties, under a global name. -/
def namespaceObject (name : String) (w : World) : Nat × World :=
  let (id, w) := w.alloc { proto := .obj Intrinsic.object.id }
  (id, tag id name (putHidden Intrinsic.global.id name (.obj id) w))

/-- Mathematics and JSON texts. -/
def tools (w : World) : World :=
  let (math, w) := namespaceObject "Math" w
  let m (f : MathFn) : Native := .math f
  let w := methods math
    [("abs", m .abs, 1), ("acos", m .acos, 1), ("acosh", m .acosh, 1), ("asin", m .asin, 1),
     ("asinh", m .asinh, 1), ("atan", m .atan, 1), ("atan2", m .atan2, 2), ("atanh", m .atanh, 1),
     ("cbrt", m .cbrt, 1), ("ceil", m .ceil, 1), ("clz32", m .clz32, 1), ("cos", m .cos, 1),
     ("cosh", m .cosh, 1), ("exp", m .exp, 1), ("expm1", m .expm1, 1), ("floor", m .floor, 1),
     ("fround", m .fround, 1), ("hypot", m .hypot, 2), ("imul", m .imul, 2), ("log", m .log, 1),
     ("log10", m .log10, 1), ("log1p", m .log1p, 1), ("log2", m .log2, 1), ("max", m .max, 2),
     ("min", m .min, 2), ("pow", m .pow, 2), ("random", m .random, 0), ("round", m .round, 1),
     ("sign", m .sign, 1), ("sin", m .sin, 1), ("sinh", m .sinh, 1), ("sqrt", m .sqrt, 1),
     ("tan", m .tan, 1), ("tanh", m .tanh, 1), ("trunc", m .trunc, 1)] w
  let w := constants math
    [("E", 2.718281828459045), ("LN10", 2.302585092994046), ("LN2", 0.6931471805599453),
     ("LOG10E", 0.4342944819032518), ("LOG2E", 1.4426950408889634), ("PI", 3.141592653589793),
     ("SQRT1_2", 0.7071067811865476), ("SQRT2", 1.4142135623730951)] w
  let (json, w) := namespaceObject "JSON" w
  methods json [("parse", .json .parse, 2), ("stringify", .json .stringify, 3)] w

/-- Promises and generators. -/
def promises (w : World) : World :=
  let p (f : PromiseFn) : Native := .promise f
  let w := reserved .promiseClass "Promise" 1 .promise
    [("resolve", p .resolve, 1), ("reject", p .reject, 1), ("all", p .all, 1),
     ("allSettled", p .allSettled, 1), ("any", p .any, 1), ("race", p .race, 1),
     ("withResolvers", p .withResolvers, 0)]
    [("then", p .then_, 2), ("catch", p .catch_, 1), ("finally", p .finally_, 1)] w
  let w := getter Intrinsic.promiseClass.id WellKnown.species.key "[Symbol.species]" (p .species) w
  let w := tag Intrinsic.promise.id "Promise" w
  let g (f : GeneratorFn) : Native := .generator f
  let w := methods Intrinsic.generator.id
    [("next", g .next, 1), ("return", g .return_, 1), ("throw", g .throw_, 1)] w
  let w := methods Intrinsic.asyncGenerator.id
    [("next", g .asyncNext, 1), ("return", g .asyncReturn, 1), ("throw", g .asyncThrow, 1)] w
  let w := tag Intrinsic.generator.id "Generator" w
  let w := tag Intrinsic.asyncGenerator.id "AsyncGenerator" w
  let w := tag Intrinsic.generatorFunction.id "GeneratorFunction" w
  let w := tag Intrinsic.asyncFunction.id "AsyncFunction" w
  let w := tag Intrinsic.asyncGeneratorFunction.id "AsyncGeneratorFunction" w
  let under (fn proto : Intrinsic) (w : World) : World :=
    putSlot proto.id (.text "constructor") (.data (.obj fn.id) .fixed)
      (putSlot fn.id (.text "prototype") (.data (.obj proto.id) .fixed) w)
  under .asyncGeneratorFunction .asyncGenerator (under .generatorFunction .generator w)

/-- Maps, sets and arrays of bytes. -/
def collections (w : World) : World :=
  let c (f : CollectionFn) : Native := .collection f
  let w := family "Map" (c .newMap) 0 .map [("groupBy", c .groupBy, 2)]
    [("clear", c .clear, 0), ("delete", c .delete, 1), ("entries", c .entries, 0),
     ("forEach", c .forEach, 1), ("get", c .get, 1), ("has", c .has, 1), ("keys", c .keys, 0),
     ("set", c .set, 2), ("values", c .values, 0)] w
  let w := family "Set" (c .newSet) 0 .set []
    [("add", c .add, 1), ("clear", c .clear, 0), ("delete", c .delete, 1),
     ("entries", c .entries, 0), ("forEach", c .forEach, 1), ("has", c .has, 1),
     ("values", c .values, 0)] w
  let w := family "WeakMap" (c .newWeakMap) 0 .weakMap []
    [("delete", c .delete, 1), ("get", c .get, 1), ("has", c .has, 1), ("set", c .set, 2)] w
  let w := family "WeakSet" (c .newWeakSet) 0 .weakSet []
    [("add", c .add, 1), ("delete", c .delete, 1), ("has", c .has, 1)] w
  let w := family "WeakRef" (c .newWeakRef) 1 .weakRef [] [("deref", c .deref, 0)] w
  let secondName (id : Nat) (name : String) (k : Key) (w : World) : World :=
    match (w.obj id).own? (.text name) with
    | some s => putSlot id k s w
    | none => w
  let w := secondName Intrinsic.map.id "entries" WellKnown.iterator.key w
  let w := secondName Intrinsic.set.id "values" WellKnown.iterator.key w
  let w := secondName Intrinsic.set.id "values" (.text "keys") w
  let w := getter Intrinsic.map.id (.text "size") "size" (c .size) w
  let w := getter Intrinsic.set.id (.text "size") "size" (c .size) w
  let w := method Intrinsic.mapIterator.id "next" (c .next) 0 w
  let w := method Intrinsic.setIterator.id "next" (c .next) 0 w
  let w := tag Intrinsic.mapIterator.id "Map Iterator" w
  let w := tag Intrinsic.setIterator.id "Set Iterator" w
  let w := tag Intrinsic.map.id "Map" (tag Intrinsic.set.id "Set" w)
  let w := tag Intrinsic.weakMap.id "WeakMap" (tag Intrinsic.weakSet.id "WeakSet" w)
  let w := tag Intrinsic.weakRef.id "WeakRef" w
  let b (f : BytesFn) : Native := .bytes f
  let (base, w) := native (b .base) "TypedArray" 0 w
  let w := link base Intrinsic.typedArray.id w
  let w := methods Intrinsic.typedArray.id
    [("at", b .at_, 1), ("fill", b .fill, 1), ("set", b .set, 1), ("subarray", b .subarray, 2),
     ("slice", b .slice, 2), ("toString", b .toString, 0), ("join", b .join, 1),
     ("values", b .values, 0), ("forEach", b .forEach, 1), ("map", b .map, 1)] w
  let w := secondName Intrinsic.typedArray.id "values" WellKnown.iterator.key w
  let w := getter Intrinsic.typedArray.id (.text "length") "length" (b .length) w
  let w := getter Intrinsic.typedArray.id (.text "byteLength") "byteLength" (b .length) w
  let (bytes, w) := constructor "Uint8Array" (b .new) 3 .bytes base w
  let w := methods bytes [("from", b .from_, 1), ("of", b .of_, 0)] w
  constants bytes [("BYTES_PER_ELEMENT", 1)] w

/-- Dates. -/
def dates (w : World) : World :=
  let d (f : DateFn) : Native := .date f
  let w := family "Date" (d .new) 7 .date
    [("now", d .now, 0), ("parse", d .parse, 1), ("UTC", d .utc, 7)]
    [("getTime", d .getTime, 0), ("toISOString", d .toISOString, 0), ("toJSON", d .toJSON, 1),
     ("toString", d .toString, 0), ("valueOf", d .valueOf, 0), ("toDateString", d .toDateString, 0),
     ("toTimeString", d .toTimeString, 0), ("toUTCString", d .toUTCString, 0),
     ("getFullYear", d .getFullYear, 0), ("getUTCFullYear", d .getFullYear, 0),
     ("getMonth", d .getMonth, 0), ("getUTCMonth", d .getMonth, 0), ("getDate", d .getDate, 0),
     ("getUTCDate", d .getDate, 0), ("getDay", d .getDay, 0), ("getUTCDay", d .getDay, 0),
     ("getHours", d .getHours, 0), ("getUTCHours", d .getHours, 0),
     ("getMinutes", d .getMinutes, 0), ("getUTCMinutes", d .getMinutes, 0),
     ("getSeconds", d .getSeconds, 0), ("getUTCSeconds", d .getSeconds, 0),
     ("getMilliseconds", d .getMilliseconds, 0), ("getUTCMilliseconds", d .getMilliseconds, 0),
     ("getTimezoneOffset", d .getTimezoneOffset, 0), ("setTime", d .setTime, 1)] w
  symbolMethod Intrinsic.date.id .toPrimitive "[Symbol.toPrimitive]" (d .toPrimitive) 1 .fixed w

/-- Regular expressions. -/
def patterns (w : World) : World :=
  let p (f : PatternFn) : Native := .pattern f
  let w := family "RegExp" (p .new) 2 .regexp [] [("toString", p .toString, 0)] w
  let w := getter Intrinsic.regexp.id (.text "source") "source" (p .source) w
  getter Intrinsic.regexp.id (.text "flags") "flags" (p .flags) w

/-- Functions that reflect on objects, and the functions of the global object. -/
def reflection (w : World) : World :=
  let r (f : ReflectFn) : Native := .reflect f
  let (reflect, w) := namespaceObject "Reflect" w
  let w := methods reflect
    [("apply", r .apply, 3), ("construct", r .construct, 2),
     ("defineProperty", r .defineProperty, 3), ("deleteProperty", r .deleteProperty, 2),
     ("get", r .get, 2), ("getOwnPropertyDescriptor", r .getOwnPropertyDescriptor, 2),
     ("getPrototypeOf", r .getPrototypeOf, 1), ("has", r .has, 2),
     ("isExtensible", r .isExtensible, 1), ("ownKeys", r .ownKeys, 1),
     ("preventExtensions", r .preventExtensions, 1), ("set", r .set, 3),
     ("setPrototypeOf", r .setPrototypeOf, 2)] w
  let (proxy, w) := native (r .proxy) "Proxy" 2 w
  let w := w.setObj proxy ({ · with kind := .native (r .proxy) #[] true })
  let w := methods proxy [("revocable", r .revocable, 2)] w
  let w := putHidden Intrinsic.global.id "Proxy" (.obj proxy) w
  let g (f : GlobalFn) : Native := .global f
  let w := methods Intrinsic.global.id
    [("eval", g .eval, 1), ("queueMicrotask", g .queueMicrotask, 1),
     ("encodeURIComponent", g .encodeURIComponent, 1), ("encodeURI", g .encodeURI, 1),
     ("decodeURIComponent", g .decodeURIComponent, 1), ("decodeURI", g .decodeURI, 1)] w
  let w := constants Intrinsic.global.id [("Infinity", 1.0 / 0.0), ("NaN", 0.0 / 0.0)] w
  let w := putSlot Intrinsic.global.id (.text "undefined") (.data .undefined .frozen) w
  let w := tag Intrinsic.global.id "global" w
  putHidden Intrinsic.global.id "globalThis" (.obj Intrinsic.global.id) w

/-- The world that an engine starts with. -/
def fresh : World :=
  let w := bare |> objects |> errors |> arrays |> texts |> primitives |> tools |> promises
    |> collections |> dates |> patterns |> reflection
  { w with used := 0, captures := 0 }

end Realm

end ScriptHost.Engine
