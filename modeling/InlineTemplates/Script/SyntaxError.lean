import InlineTemplates.Text.Shown
import InlineTemplates.Text.Span

/-! # What can be wrong with a program text -/

namespace InlineTemplates.Script

/-- The kinds of syntax errors. A few carry the text that their message quotes. -/
inductive SyntaxErrorKind where
  -- characters and literals
  | unexpectedChar (c : Char)
  | unterminatedBlockComment | unterminatedString | unterminatedTemplate | unterminatedRegex
  | unterminatedJsxText
  | expectedDigit (radix : Nat)
  | separatorNotBetweenDigits | nameAfterNumber | legacyDecimal | legacyOctal | legacyOctalTarget
  | exponentWithoutDigits
  | expectedUnicodeEscape | badEscape (expected : String) | invalidNameChar
  | escapeInReservedWord (word : Text) | invalidUnicodeEscape | invalidStringEscape
  | unexpectedInJsx (suggestions : String)
  | legacyComment | conflictMarker
  | duplicateRegexFlag (flag : Char) | unknownRegexFlag
  -- what was found in place of something else
  | endOfInput
  | unexpected (got expected : String)
  | expected (wanted got : String)
  | expectedName | expectedSemicolon | expectedSemicolonAfterExpr | expectedExpression
  | expectedModuleString | expectedTypeName
  | singleExpression | declarationNotAllowed
  -- names
  | nameInStrict (n : Text) | awaitAsName | evalOrArguments | argumentsInField
  | spaceAfterHash | stringImportBinding (n : Text) | stringExportBinding
  -- expressions
  | invalidTarget | assignToThis | leftHandSide | notPattern
  | assignmentProperty | nullishMix | unaryBeforePower | awaitStar | awaitOutsideAsync
  | awaitInParameter | yieldInParameter | emptyParens | spreadInParens | lineBreakBeforeArrow
  | newTarget | invalidSuper | invalidSuperCall | superOptional | importNotAllowed | importMeta
  | templateInChain | newInChain | deleteName | deleteOperand
  | trailingCommaInImport | arrowNotAllowed
  -- patterns and parameters
  | restNotLast | commaAfterRest | patternAfterDots | restParameterNotLast | restInitializer
  | restOptional | patternWithoutInit | constWithoutInit | optionalPattern | typeAfterAssign
  | parameterProperty | parameterPropertyPattern | optionalWithInitializer | parameterInitializer
  -- statements
  | withInStrict | withStatement | returnOutside | lineBreakAfterThrow | defaultTwice
  | importOutsideModule | breakOutside | continueOutside | jumpTarget | noSuchLabel
  | duplicateLabel (n : Text) | labelledAsync | labelledFunction | loopVariables | loopInitializer
  | forOfType | forOfAsync | forInPattern | forAwait | emptyDeclarations
  | useStrictParameters | exportWithoutFrom (n : Text) | asyncModifier | trailingComma
  | usingNotEnabled | usingNotAllowed | usingInForIn | usingPattern | usingWithoutInit
  -- functions and classes
  | constructorTwice | constructorAccessor | asyncConstructor | generatorConstructor
  | fieldNamedConstructor | privateConstructor | constructorType | constructorTypeParams
  | constructorModifier (word : String) | privateModifier (word : String)
  | readonlyMethod | readonlyAccessor | getterParameters | setterParameters | setterRest
  | extendsTwice | extendsMany | extendsAfterImplements | implementsTwice | className
  | abstractPlace | abstractMember | abstractInitializer
  | abstractBody | memberModifierTwice (word : String) | memberModifierOrder (word after : String)
  | memberModifierClash (word other : String) | privateAccess
  | overrideWithoutExtends | optionalMember | declareMember | declareTwice | ambientBody
  | interfaceName | modifiersHere
  -- types
  | emptyTypeParams | indexParameters | enumNumericName | enumComputedName
  | typeModifierTwice | typeModifierTwiceExport | nonNullAssertion (op : String)
  | typeParameterModifier (word : String) | variancePosition (word : String)
  | constModifierPosition (word : String) | heritageName
  | tupleRequiredAfterOptional | privateInInterface | commaInComputed
  -- elements
  | emptyJsxAttribute | invalidJsxValue | jsxClosing (tag : String) | jsxClosingFragment
deriving DecidableEq, Repr

/-- A syntax error and where it is. -/
structure SyntaxError where
  span : Span
  kind : SyntaxErrorKind
deriving DecidableEq, Repr

namespace SyntaxErrorKind

/-- A character in quotes. -/
def quotedChar (c : Char) : String :=
  String.ofList (['\''] ++ Text.shownChar '\'' c ++ ['\''])

def digitName (radix : Nat) : String :=
  if radix == 2 then "a binary" else if radix == 8 then "an octal"
  else if radix == 10 then "a decimal" else "a hexadecimal"

/-- The message of a syntax error. -/
def message : SyntaxErrorKind → String
  | unexpectedChar c => "Unexpected character " ++ quotedChar c
  | unterminatedBlockComment => "Unterminated block comment"
  | unterminatedString => "Unterminated string constant"
  | unterminatedTemplate => "Unterminated template"
  | unterminatedRegex => "Unterminated regexp literal"
  | unterminatedJsxText => "Unterminated JSX contents"
  | expectedDigit radix => "Expected " ++ digitName radix ++ " digit"
  | separatorNotBetweenDigits => "A numeric separator is only allowed between two digits"
  | nameAfterNumber => "Identifier cannot follow number"
  | legacyDecimal => "Legacy decimal escape is not permitted in strict mode"
  | legacyOctal => "Legacy octal escape is not permitted in strict mode"
  | legacyOctalTarget => 
    "Legacy octal literals are not available when targeting ECMAScript 5 and higher"
  | exponentWithoutDigits => "Expected +, - or decimal digit after e"
  | expectedUnicodeEscape => "Expected unicode escape"
  | badEscape e => "Bad character escape sequence, expected " ++ e
  | invalidNameChar => "Invalid character in identifier"
  | escapeInReservedWord w => "Unexpected escape sequence in reserved word: " ++ String.ofList w
  | invalidUnicodeEscape => "Invalid unicode escape"
  | invalidStringEscape => "Invalid string escape"
  | unexpectedInJsx s => "Unexpected token. Did you mean " ++ s ++ "?"
  | legacyComment => "Legacy comments cannot be used in module code"
  | conflictMarker => "Merge conflict marker encountered."
  | duplicateRegexFlag f => "Duplicated regular expression flag '" ++ f.toString ++ "'."
  | unknownRegexFlag => "Unknown regular expression flags."
  | endOfInput => "Unexpected eof"
  | unexpected got wanted => "Unexpected token `" ++ got ++ "`. Expected " ++ wanted
  | expected wanted got => "Expected '" ++ wanted ++ "', got '" ++ got ++ "'"
  | expectedName => "Expected ident"
  | expectedSemicolon => "Expected a semicolon"
  | expectedSemicolonAfterExpr => "Expected ';', '\x7d' or <eof>"
  | expectedExpression => "Expression expected"
  | expectedModuleString => "literal in an import type should be string literal"
  | expectedTypeName => "Expected an identifier"
  | singleExpression => "Unexpected token `)`. Expected a single expression"
  | declarationNotAllowed => "Declaration is not allowed"
  | nameInStrict n => "`" ++ String.ofList n ++ "` cannot be used as an identifier in strict mode"
  | awaitAsName => "`await` cannot be used as an identifier in an async context"
  | evalOrArguments =>
    "'eval' and 'arguments' cannot be used as a binding identifier in strict mode"
  | argumentsInField => "'arguments' is only allowed in functions and class methods"
  | spaceAfterHash => "Unexpected space between # and identifier"
  | stringImportBinding n => "A string literal cannot be used as an imported binding.\n" ++
    "- Did you mean `import \x7b \"" ++ String.ofList n ++ "\" as foo \x7d`?"
  | stringExportBinding =>
    "A string literal cannot be used as an exported binding without `from`."
  | invalidTarget => "Invalid assignment target"
  | assignToThis => "Cannot assign to this"
  | leftHandSide =>
    "The left-hand side of an assignment expression must be a variable or a property access."
  | notPattern => "Not a pattern"
  | assignmentProperty => "assignment property is invalid syntax"
  | nullishMix =>
    "Nullish coalescing operator(??) requires parens when mixing with logical operators"
  | unaryBeforePower => "'**' cannot be applied to unary/await expression."
  | awaitStar =>
    "await* has been removed from the async functions proposal. Use Promise.all() instead."
  | awaitOutsideAsync => "await isn't allowed in non-async function"
  | awaitInParameter => "`await` expressions cannot be used in a parameter initializer."
  | yieldInParameter => "'yield' cannot be used as a parameter within generator"
  | emptyParens => "Parenthesized expression cannot be empty"
  | spreadInParens => "Parenthesized expression cannot contain spread operator"
  | lineBreakBeforeArrow => "Unexpected line break between arrow head and arrow"
  | newTarget => "'new.target' is only allowed in the body of a function declaration, " ++
    "function expression, or class."
  | invalidSuper => "Invalid access to super"
  | invalidSuperCall => "Invalid `super()`"
  | superOptional => "Super call cannot be optional"
  | importNotAllowed => "Import is not allowed here"
  | importMeta => "'import.meta' cannot be used outside of module code."
  | templateInChain => "Tagged template literal is not allowed in optional chain."
  | newInChain => "Constructor in/after an optional chaining is not allowed."
  | deleteName => "'delete' cannot be called on an identifier in strict mode"
  | deleteOperand => "The operand of a delete operator must be a property reference."
  | trailingCommaInImport => "Trailing comma is disallowed inside import(...) arguments"
  | arrowNotAllowed => "An arrow function is not allowed here"
  | restNotLast => "Rest element must be final element"
  | commaAfterRest => "Trailing comma isn't permitted after a rest element"
  | patternAfterDots => "`...` must be followed by an identifier in declaration contexts"
  | restParameterNotLast => "A rest parameter must be last in a parameter list"
  | restInitializer => "A rest parameter cannot have an initializer"
  | restOptional => "A rest parameter cannot be optional"
  | patternWithoutInit => "Destructuring bindings require initializers"
  | constWithoutInit => "'const' declarations must be initialized"
  | optionalPattern =>
    "A binding pattern parameter cannot be optional in an implementation signature."
  | typeAfterAssign => "Type annotations must come before default assignments"
  | parameterProperty => "A parameter property is only allowed in a constructor implementation"
  | parameterPropertyPattern =>
    "Typescript parameter property must be an identifier or assignment pattern"
  | optionalWithInitializer => "Parameter cannot have question mark and initializer"
  | parameterInitializer =>
    "A parameter initializer is only allowed in a function or constructor implementation"
  | withInStrict => "With statement are not allowed in strict mode"
  | withStatement => "The 'with' statement is not supported. " ++
    "All symbols in a 'with' block will have type 'any'."
  | returnOutside => "Return statement is not allowed here"
  | lineBreakAfterThrow => "LineBreak cannot follow 'throw'"
  | defaultTwice => "A switch block cannot have multiple defaults"
  | importOutsideModule => "'import', and 'export' cannot be used outside of module code"
  | breakOutside =>
    "A 'break' statement can only be used within an enclosing iteration or switch statement"
  | continueOutside =>
    "A 'continue' statement can only jump to a label of an enclosing iteration statement"
  | jumpTarget => "Jump target cannot cross function boundary"
  | noSuchLabel => "A 'break' statement can only jump to a label of an enclosing statement"
  | duplicateLabel n => "Label " ++ String.ofList n ++ " is already declared"
  | labelledAsync => "Generator or async function cannot be labelled"
  | labelledFunction => "Function cannot be labelled in strict mode"
  | loopVariables => "Expected one variable binding"
  | loopInitializer => "Unexpected initializer in for in/of loop"
  | forOfType => "The left-hand side of a 'for...of' statement cannot use a type annotation"
  | forOfAsync => "The left-hand side of a `for...of` statement may not be `async`"
  | forInPattern => "The left-hand side of a 'for...in' statement cannot be a destructuring pattern"
  | forAwait => "for await syntax is valid only for for-of statement"
  | emptyDeclarations => "Variable declaration list cannot be empty"
  | useStrictParameters =>
    "Illegal 'use strict' directive in function with non-simple parameter list."
  | exportWithoutFrom n => "`" ++ String.ofList n ++ "` cannot be used without `from` clause"
  | asyncModifier => "`async` modifier cannot be used here"
  | trailingComma => "Trailing comma is not allowed"
  | usingNotEnabled =>
    "Using declaration is not enabled. Set jsc.parser.explicitResourceManagement to true"
  | usingNotAllowed => "Using declaration is not allowed here"
  | usingInForIn => "Using declaration is not allowed in for-in loop"
  | usingPattern => "Using declaration only allows identifiers"
  | usingWithoutInit => "Using declaration requires initializer"
  | constructorTwice => "A class can only have one constructor"
  | constructorAccessor => "Class constructor can't be an accessor."
  | asyncConstructor => "Constructor can't be an async function"
  | generatorConstructor => "A constructor cannot be generator"
  | fieldNamedConstructor => "Classes may not have a non-static field named 'constructor'"
  | privateConstructor => "Classes can't have a private field named '#constructor'."
  | constructorType => "Type annotation cannot appear on a constructor declaration"
  | constructorTypeParams => "Type parameters cannot appear on a constructor declaration"
  | constructorModifier w => "'" ++ w ++ "' modifier cannot appear on a constructor declaration"
  | privateModifier w => "'" ++ w ++ "' modifier cannot be used with a private identifier"
  | readonlyMethod => "A method cannot be readonly"
  | readonlyAccessor => "A getter or a setter cannot be readonly"
  | setterRest => "Rest pattern is not allowed in setter"
  | getterParameters => "A `get` accessor cannot have parameters"
  | setterParameters => "A `set` accessor must have exactly one parameter"
  | extendsTwice => "`extends` clause already seen."
  | extendsMany => "Classes can only extend a single class"
  | extendsAfterImplements => "'extends' clause must precede 'implements' clause."
  | implementsTwice => "`implements` clause already seen"
  | className => "Invalid class name"
  | abstractPlace => "`abstract` modifier can only appear on a class or method declaration"
  | abstractMember => "Abstract methods can only appear within an abstract class."
  | abstractInitializer => "Abstract property cannot have an initializer."
  | abstractBody => "Abstract method cannot have an implementation."
  | memberModifierTwice w => "'" ++ w ++ "' modifier already seen."
  | memberModifierOrder w a => "'" ++ w ++ "' modifier must precede '" ++ a ++ "' modifier."
  | memberModifierClash w o => "'" ++ w ++ "' modifier cannot be used with '" ++ o ++ "' modifier."
  | privateAccess => "An accessibility modifier cannot be used with a private identifier."
  | overrideWithoutExtends => "This member cannot have an 'override' modifier because its " ++
    "containing class does not extend another class."
  | optionalMember => "An object member cannot be declared optional"
  | declareMember => "`declare` modifier cannot appear on class elements of this kind"
  | declareTwice => "`declare` modifier not allowed for code already in an ambient context"
  | ambientBody => "An implementation cannot be declared in ambient contexts"
  | interfaceName => "interface name is invalid"
  | modifiersHere => "Modifiers cannot appear here"
  | emptyTypeParams => "Type parameter list cannot be empty"
  | indexParameters => "An index signature must have exactly one parameter"
  | enumNumericName => "An enum member cannot have a numeric name"
  | enumComputedName => "Computed property names are not allowed in enums"
  | typeModifierTwice => "The 'type' modifier cannot be used on a named import when " ++
    "'import type' is used on its import statement."
  | typeModifierTwiceExport => "The 'type' modifier cannot be used on a named export when " ++
    "'export type' is used on its export statement."
  | nonNullAssertion op =>
    "Typescript non-null assertion operator is not allowed with '" ++ op ++ "'"
  | typeParameterModifier w => "'" ++ w ++ "' modifier cannot appear on a type parameter"
  | variancePosition w =>
    "'" ++ w ++ "' modifier can only appear on a type parameter of a class, interface or type alias"
  | constModifierPosition w =>
    "'" ++ w ++ "' modifier can only appear on a type parameter of a function, method or class"
  | heritageName => "An interface can only extend an identifier/qualified-name with optional " ++
    "type arguments."
  | tupleRequiredAfterOptional => "A required element cannot follow an optional element."
  | privateInInterface => "private names are not allowed in interface"
  | commaInComputed => "A comma expression is not allowed in a computed property name"
  | emptyJsxAttribute => "JSX attributes must only be assigned a non-empty expression"
  | invalidJsxValue => "JSX value should be either an expression or a quoted JSX text"
  | jsxClosing tag => "Expected corresponding JSX closing tag for <" ++ tag ++ ">"
  | jsxClosingFragment => "Expected corresponding JSX closing tag for <>"

/-- How a message shows the fault of a token that could not be read. -/
def detail : SyntaxErrorKind → String
  | unexpectedChar c => "UnexpectedChar \x7b c: " ++ quotedChar c ++ " \x7d"
  | unterminatedTemplate => "UnterminatedTpl"
  | unterminatedRegex => "UnterminatedRegExp"
  | unterminatedJsxText => "UnterminatedJSXContents"
  | expectedDigit radix => "ExpectedDigit \x7b radix: " ++ toString radix ++ " \x7d"
  | nameAfterNumber => "IdentAfterNum"
  | exponentWithoutDigits => "NumLitTerminatedWithExp"
  | expectedUnicodeEscape => "ExpectedUnicodeEscape"
  | badEscape e => "BadCharacterEscapeSequence \x7b expected: \"" ++ e ++ "\" \x7d"
  | escapeInReservedWord w =>
    "EscapeInReservedWord \x7b word: \"" ++ String.ofList w ++ "\" \x7d"
  | invalidUnicodeEscape => "InvalidUnicodeEscape"
  | invalidStringEscape => "InvalidStrEscape"
  | invalidNameChar => "InvalidIdentChar"
  | conflictMarker => "TS1185"
  | k => k.message

end SyntaxErrorKind
end InlineTemplates.Script
