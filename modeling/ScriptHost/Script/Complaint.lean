/-!
What a reader of scripts complains about. A complaint is a kind with the texts it mentions;
`Complaint.message` is its wording.
-/

namespace ScriptHost.Script

/-- What is wrong with a source text. -/
inductive Complaint where
  | accessorConstructor | ambientInitializer | arrowNotAllowed | assignProperty
  | asyncConstructor | awaitInFunction | awaitIsReserved | awaitInParameter | awaitOnlyForOf
  | awaitStar | badCharacterEscape (expected : String) | breakOutside | breakLabel
  | cannotAssign | commaAfterRest | commaInKey | constructorParameterProperty
  | constNeedsValue | continueLabel | continueOutside | declarationNotAllowed
  | decoratorsNotValid | deleteName | destructuringNeedsValue | digitExpected (radix : Nat)
  | dotsNeedName | duplicateConstructor | duplicateFlag (flag : Char) | duplicateLabel (name : String)
  | emptyParens | emptyTypeParameters | endOfText | escapedKeyword (word : String)
  | evalOrArguments | expected (token got : String) | expectedAName | expectedSemicolon
  | expectedStatementEnd | exponentExpected | exportStringName | expressionExpected
  | fieldNamedConstructor | generatorConstructor | getterParameters | illegalDirective
  | importMetaInScript | importOrExportInScript | importOrExportNested | invalidAssignTarget
  | invalidCharacter (c : Char) | invalidNewTarget | invalidSuper | invalidSuperCall
  | identifierAfterNumber | labelledFunctionInStrict | labelledGenerator | legacyDecimal
  | legacyOctal | letAsName | lineBreakBeforeArrow | lineBreakInThrow | mixedNullish
  | modifierOrder (first second : String) | modifierRepeated (word : String) | modifiersNotAllowed
  | multipleDefaults | multipleParents | nameExpected | notAnExpression | notAPattern
  | notAProperty | numericEnumMember | optionalInObject | optionalWithValue | patternOptional
  | parenSpread | privateConstructor | reservedInImport | reservedInShorthand
  | reservedName (name : String) | restNotLast | restParameterNotLast | restWithValue | restOptional
  | restInSetter | returnOutside | separatorPlace | setterParameters | staticPrototype
  | superPrivate | taggedOptional | tooManyForBindings | topLevelAwait | trailingCommaNotAllowed
  | unaryPower | undeclaredExtends | unexpected (got expected : String) | unicodeEscapeExpected
  | unknownFlags | unterminatedComment | unterminatedRegex | unterminatedString
  | unterminatedTemplate | valueInForIn | withInStrict | withNotSupported | yieldParameter
  | abstractOutside | abstractBody | abstractValue | ambientBody | readonlyMethod
  | nonNullTarget | enumComputed | stringExpected | forInPattern | asyncForOf | argumentsInField
  | optionalConstructorCall | reservedInterfaceName | commaInImport | overloadName
  | decoratorOnOverload | octalNotAvailable | bindingEval | templateEscape
  deriving DecidableEq, Inhabited

namespace Complaint

/-- The wording of a complaint. -/
def message : Complaint → String
  | .accessorConstructor => "Class constructor can't be an accessor"
  | .ambientInitializer => "Initializers are not allowed in ambient contexts"
  | .arrowNotAllowed => "An arrow function is not allowed here"
  | .assignProperty => "assignment property is invalid syntax"
  | .asyncConstructor => "A constructor can't be async"
  | .awaitInFunction => "await isn't allowed in non-async function"
  | .awaitIsReserved => "\x60await\x60 cannot be used as an identifier in an async context"
  | .awaitInParameter => "\x60await\x60 expressions cannot be used in a parameter initializer."
  | .awaitOnlyForOf => "for await syntax is valid only for for-of statement"
  | .awaitStar =>
    "await* has been removed from the async functions proposal. Use Promise.all() instead."
  | .badCharacterEscape wanted => "Bad character escape sequence, expected " ++ wanted
  | .breakOutside =>
    "A 'break' statement can only be used within an enclosing iteration or switch statement"
  | .breakLabel => "A 'break' statement can only jump to a label of an enclosing statement"
  | .cannotAssign => "Cannot assign to this"
  | .commaAfterRest => "Trailing comma isn't permitted after a rest element"
  | .commaInKey => "A comma expression is not allowed in a computed property name"
  | .constructorParameterProperty =>
    "A parameter property is only allowed in a constructor implementation"
  | .constNeedsValue => "'const' declarations must be initialized"
  | .continueLabel => "Jump target cannot cross function boundary"
  | .continueOutside =>
    "A 'continue' statement can only jump to a label of an enclosing iteration statement"
  | .declarationNotAllowed => "Declaration is not allowed"
  | .decoratorsNotValid => "Decorators are not valid here"
  | .deleteName => "'delete' cannot be called on an identifier in strict mode"
  | .destructuringNeedsValue => "Destructuring bindings require initializers"
  | .digitExpected 2 => "Expected a binary digit"
  | .digitExpected 8 => "Expected an octal digit"
  | .digitExpected 16 => "Expected a hexadecimal digit"
  | .digitExpected _ => "Expected a decimal digit"
  | .dotsNeedName => "\x60...\x60 must be followed by an identifier in declaration contexts"
  | .duplicateConstructor => "A class can only have one constructor"
  | .duplicateFlag flag => s!"Duplicated regular expression flag '{flag}'."
  | .duplicateLabel name => s!"Label {name} is already declared"
  | .emptyParens => "Parenthesized expression cannot be empty"
  | .emptyTypeParameters => "Type parameter list cannot be empty"
  | .endOfText => "Unexpected eof"
  | .escapedKeyword word => "Unexpected escape sequence in reserved word: " ++ word
  | .evalOrArguments => "Invalid use of 'arguments' or 'eval' in strict mode"
  | .expected token got => s!"Expected '{token}', got '{got}'"
  | .expectedAName => "Expected ident"
  | .expectedSemicolon => "Expected a semicolon"
  | .expectedStatementEnd => "Expected ';', '\x7d' or <eof>"
  | .exponentExpected => "Expected +, - or decimal digit after e"
  | .exportStringName => "A string literal cannot be used as an exported binding without \x60from\x60."
  | .expressionExpected => "Expression expected"
  | .fieldNamedConstructor => "Classes may not have a non-static field named 'constructor'"
  | .generatorConstructor => "A constructor can't be generator"
  | .getterParameters => "A \x60get\x60 accessor cannot have parameters"
  | .illegalDirective =>
    "Illegal 'use strict' directive in function with non-simple parameter list."
  | .importMetaInScript => "'import.meta' cannot be used outside of module code."
  | .importOrExportInScript => "'import', and 'export' cannot be used outside of module code"
  | .importOrExportNested => "'import', and 'export' are not permitted here"
  | .invalidAssignTarget => "Invalid assignment target"
  | .invalidCharacter c => s!"Unexpected character '{c}'"
  | .invalidNewTarget =>
    "'new.target' is only allowed in the body of a function declaration, function expression, or class."
  | .invalidSuper => "Invalid access to super"
  | .invalidSuperCall => "Invalid \x60super()\x60"
  | .identifierAfterNumber => "Identifier cannot follow number"
  | .labelledFunctionInStrict => "Function cannot be labelled in strict mode"
  | .labelledGenerator => "Generator or async function cannot be labelled"
  | .legacyDecimal => "Legacy decimal escape is not permitted in strict mode"
  | .legacyOctal => "Legacy octal escape is not permitted in strict mode"
  | .letAsName => "let is disallowed as a lexically bound name"
  | .lineBreakBeforeArrow => "Unexpected line break between arrow head and arrow"
  | .lineBreakInThrow => "LineBreak cannot follow 'throw'"
  | .mixedNullish =>
    "Nullish coalescing operator(??) requires parens when mixing with logical operators"
  | .modifierOrder first second => s!"'{first}' modifier must precede '{second}' modifier."
  | .modifierRepeated word => s!"'{word}' modifier already seen."
  | .modifiersNotAllowed => "Modifiers cannot appear here"
  | .multipleDefaults => "A switch block cannot have multiple defaults"
  | .multipleParents => "Classes can only extend a single class"
  | .nameExpected => "Expected an identifier"
  | .notAnExpression => "Not an expression"
  | .notAPattern => "Not a pattern"
  | .notAProperty =>
    "The left-hand side of an assignment expression must be a variable or a property access."
  | .numericEnumMember => "An enum member cannot have a numeric name"
  | .optionalInObject => "An object member cannot be declared optional"
  | .optionalWithValue => "Parameter cannot have question mark and initializer"
  | .patternOptional =>
    "A binding pattern parameter cannot be optional in an implementation signature."
  | .parenSpread => "Parenthesized expression cannot contain spread operator"
  | .privateConstructor => "Classes can't have a private field named '#constructor'"
  | .reservedInImport => "cannot import as reserved word"
  | .reservedInShorthand => "Cannot use a reserved word as a shorthand property"
  | .reservedName name => s!"'{name}' cannot be used as an identifier in strict mode"
  | .restNotLast => "Rest element must be final element"
  | .restParameterNotLast => "A rest parameter must be last in a parameter list"
  | .restWithValue => "A rest parameter cannot have an initializer"
  | .restOptional => "A rest parameter cannot be optional"
  | .restInSetter => "Rest pattern is not allowed in setter"
  | .returnOutside => "Return statement is not allowed here"
  | .separatorPlace => "A numeric separator is only allowed between two digits"
  | .setterParameters => "A \x60set\x60 accessor should have exactly one parameter"
  | .staticPrototype => "Classes may not have static property named 'prototype'"
  | .superPrivate => "Index super with private name is not allowed"
  | .taggedOptional => "Tagged template expressions are not permitted in an optional chain"
  | .tooManyForBindings => "Expected one variable binding"
  | .topLevelAwait => "top level await is only allowed in module"
  | .trailingCommaNotAllowed => "Trailing comma is not allowed"
  | .unaryPower => "** cannot be applied to unary expression"
  | .undeclaredExtends => "\x60extends\x60 clause already seen."
  | .unexpected got wanted => s!"Unexpected token \x60{got}\x60. Expected {wanted}"
  | .unicodeEscapeExpected => "Expected unicode escape"
  | .unknownFlags => "Unknown regular expression flags."
  | .unterminatedComment => "Unterminated block comment"
  | .unterminatedRegex => "Unterminated regexp literal"
  | .unterminatedString => "Unterminated string constant"
  | .unterminatedTemplate => "Unterminated template"
  | .valueInForIn => "Unexpected initializer in for in/of loop"
  | .withInStrict => "With statement are not allowed in strict mode"
  | .withNotSupported =>
    "The 'with' statement is not supported. All symbols in a 'with' block will have type 'any'."
  | .yieldParameter => "'yield' cannot be used as a parameter within generator"
  | .abstractOutside => "Abstract methods can only appear within an abstract class."
  | .abstractBody => "Abstract method cannot have an implementation."
  | .abstractValue => "Abstract property cannot have an initializer."
  | .ambientBody => "An implementation cannot be declared in ambient contexts"
  | .readonlyMethod => "A method cannot be readonly"
  | .nonNullTarget => "The operand of a delete operator must be a property reference."
  | .enumComputed => "Computed property names are not allowed in enums"
  | .stringExpected => "String literal expected"
  | .forInPattern =>
    "The left-hand side of a 'for...in' statement cannot be a destructuring pattern"
  | .asyncForOf => "The left-hand side of a for-of loop may not be 'async'"
  | .argumentsInField => "'arguments' is only allowed in functions and class methods"
  | .optionalConstructorCall => "Constructor in/after an optional chaining is not allowed."
  | .reservedInterfaceName => "interface name is invalid"
  | .commaInImport => "Trailing comma is disallowed inside import(...) arguments"
  | .overloadName => "Function implementation is missing or not immediately following the declaration"
  | .bindingEval =>
    "'eval' and 'arguments' cannot be used as a binding identifier in strict mode"
  | .templateEscape => "Bad character escape sequence, expected 2 hex characters"
  | .octalNotAvailable =>
    "Legacy octal literals are not available when targeting ECMAScript 5 and higher"
  | .decoratorOnOverload => "A decorator can only decorate a method implementation, not an overload"

end Complaint

/-- A complaint and the place in the text that it is about. -/
structure Fault where
  complaint : Complaint
  place : Nat
  deriving DecidableEq, Inhabited

/-- The line of a place: a line ends at a line feed, a carriage return, or both together, and the end
of the text starts no new line. -/
def lineOf (text : Array Char) (place : Nat) : Nat :=
  let place := if place ≥ text.size then text.size - 1 else place
  (List.range place).foldl (fun line i =>
    match text[i]? with
    | some '\n' => line + 1
    | some '\r' => if text[i + 1]? = some '\n' then line else line + 1
    | _ => line) 1

end ScriptHost.Script
