import EcmaFront.Lexer.Fault
import EcmaFront.Operator
import EcmaFront.Token.Location

/-!
Why a text is rejected, and where.
-/

set_option autoImplicit false

namespace EcmaFront

/-- What was broken: a token, the grammar, a rule of strict code, or a rule on names and places. -/
inductive ErrorKind where
  | lexer | grammar | strictMode | semantic
  deriving DecidableEq, Repr, Inhabited

def ErrorKind.text : ErrorKind → String
  | .lexer => "LexerError"
  | .grammar => "SyntaxError"
  | .strictMode => "StrictModeError"
  | .semantic => "SemanticError"

/-- Parts of the language that are recognised but not parsed. -/
inductive Feature where
  | classes | modules | templates
  deriving DecidableEq, Repr, Inhabited

inductive Cause where
  | lexical (fault : Option LexFault)
  | unexpectedEnd | unexpectedString | unexpectedNumber
  | unexpectedIdentifier (name : String)
  | unexpectedToken (kind : TokenKind)
  | reservedWord (word : String)
  | strictReservedWord (word : String)
  | expected (wanted : TokenKind) (found : String)
  | tooDeep
  | unsupported (feature : Feature)
  | directiveAfterParameters | directiveAgainstNames
  | functionAsStatement | declarationAsStatement
  | missingInitializer (pattern : Bool)
  | missingLoopInitializer
  | manyLoopVariables (loop : EachLoop)
  | loopVariableInitializer (loop : EachLoop)
  | loopTarget (loop : EachLoop)
  | continueToBlock (label : String)
  | undefinedLabel (label : String)
  | repeatedLabel (label : String)
  | continueOutsideLoop | breakOutsideLoop | returnOutsideFunction
  | newlineAfterThrow
  | withInStrictCode
  | repeatedDefault
  | tryAlone
  | assignmentTarget | prefixTarget | postfixTarget
  | unexpectedOperator
  | deleteOfName
  | newTarget | superCall | superMember | superAlone
  | dataAndAccessor (name : String)
  | repeatedAccessor (name : String)
  | repeatedPrototype
  | shorthandInitializer
  | functionName (name : String)
  | variableName (name : String)
  | assignmentTo (name : String)
  | alreadyDeclared (name : String)
  | letAsName
  | newlineBeforeArrow
  | restParameterNotLast | restElementNotLast
  | getterParameters | setterParameters
  | repeatedParameter
  /-- The same, where strict code is the reason. -/
  | strictRepeatedParameter
  | noScope | notAFunction
  /-- The bound on the work of a parse was too low. -/
  | exhausted
  deriving DecidableEq, Repr

namespace Cause

def kind : Cause → ErrorKind
  | .lexical _ => .lexer
  | .strictReservedWord _ | .directiveAgainstNames | .functionAsStatement | .withInStrictCode
  | .deleteOfName | .functionName _ | .variableName _ | .assignmentTo _
  | .strictRepeatedParameter =>
    .strictMode
  | .continueToBlock _ | .undefinedLabel _ | .repeatedLabel _ | .continueOutsideLoop
  | .breakOutsideLoop | .newTarget | .superCall | .superMember | .alreadyDeclared _ => .semantic
  | _ => .grammar

def message : Cause → String
  | .lexical fault => (fault.map LexFault.message).getD "Invalid token"
  | .unexpectedEnd => "Unexpected end of script"
  | .unexpectedString => "Unexpected string literal"
  | .unexpectedNumber => "Unexpected number"
  | .unexpectedIdentifier name => "Unexpected identifier '" ++ name ++ "'"
  | .unexpectedToken kind => "Unexpected token '" ++ kind.text ++ "'"
  | .reservedWord word => "Unexpected use of reserved word '" ++ word ++ "'"
  | .strictReservedWord word => "Unexpected use of reserved word '" ++ word ++ "' in strict mode"
  | .expected wanted found => "Expected '" ++ wanted.text ++ "' but found '" ++ found ++ "'"
  | .tooDeep => "Maximum nesting depth exceeded"
  | .unsupported .classes => "Classes are not supported"
  | .unsupported .modules => "Modules are not supported"
  | .unsupported .templates => "Template literals are not supported"
  | .directiveAfterParameters =>
    "Illegal 'use strict' directive in function with non-simple parameter list"
  | .directiveAgainstNames => "Invalid parameters or function name in strict mode"
  | .functionAsStatement =>
    "In strict mode code, functions can only be declared at top level or inside a block"
  | .declarationAsStatement => "Lexical declaration cannot appear in a single-statement context"
  | .missingInitializer pattern =>
    "Missing initializer in " ++ (if pattern then "destructuring" else "const") ++ " declaration"
  | .missingLoopInitializer => "Missing initializer in for loop declaration"
  | .manyLoopVariables loop =>
    "Only a single variable may be declared in a for-" ++ loop.word ++ " loop"
  | .loopVariableInitializer loop =>
    "for-" ++ loop.word ++ " loop variable declaration may not have an initializer"
  | .loopTarget loop => "Invalid left-hand side in for-" ++ loop.word ++ " loop"
  | .continueToBlock label => "Cannot continue to the non-loop label '" ++ label ++ "'"
  | .undefinedLabel label => "Undefined label '" ++ label ++ "'"
  | .repeatedLabel label => "Label '" ++ label ++ "' has already been declared"
  | .continueOutsideLoop => "'continue' is only valid inside a loop statement"
  | .breakOutsideLoop => "'break' is only valid inside a switch or loop statement"
  | .returnOutsideFunction => "Return statements are only valid inside functions"
  | .newlineAfterThrow => "Illegal newline after throw"
  | .withInStrictCode => "'with' statements are not valid in strict mode"
  | .repeatedDefault => "More than one default clause in switch statement"
  | .tryAlone => "Missing catch or finally after try"
  | .assignmentTarget => "Invalid left-hand side in assignment"
  | .prefixTarget => "Invalid left-hand side expression in prefix operation"
  | .postfixTarget => "Invalid left-hand side expression in postfix operation"
  | .unexpectedOperator => "Unexpected token"
  | .deleteOfName => "Delete of an unqualified identifier in strict mode"
  | .newTarget => "new.target expression is not allowed here"
  | .superCall => "super() is only valid inside a derived class constructor"
  | .superMember => "'super' property access is only valid inside methods"
  | .superAlone => "'super' keyword unexpected here"
  | .dataAndAccessor name =>
    "Object literal may not have data and accessor property with the same name '" ++ name ++ "'"
  | .repeatedAccessor name =>
    "Object literal may not have multiple get/set accessors with the same name '" ++ name ++ "'"
  | .repeatedPrototype => "Duplicate __proto__ fields are not allowed in object literals"
  | .shorthandInitializer => "Invalid shorthand property initializer"
  | .functionName name => "Cannot declare a function named '" ++ name ++ "' in strict mode"
  | .variableName name => "Cannot declare a variable named '" ++ name ++ "' in strict mode"
  | .assignmentTo name => "Cannot assign to '" ++ name ++ "' in strict mode"
  | .alreadyDeclared name => "Identifier '" ++ name ++ "' has already been declared"
  | .letAsName => "let is disallowed as a lexically bound name"
  | .newlineBeforeArrow => "Line terminator not permitted before arrow"
  | .restParameterNotLast => "Rest parameter must be last formal parameter"
  | .restElementNotLast => "Rest element must be last element"
  | .getterParameters => "Getter must not have any formal parameters."
  | .setterParameters => "Setter must have exactly one formal parameter."
  | .repeatedParameter | .strictRepeatedParameter =>
    "Duplicate parameter name not allowed in this context"
  | .noScope => "Scope stack underflow"
  | .notAFunction => "Expected a function"
  | .exhausted => "Parsing took more steps than the length of the text allows"

end Cause

/-- A rejected text. Line and column are those of the first unit of the offending token, from
one. -/
structure ParseError where
  cause : Cause
  url : String
  line : Nat
  column : Nat
  deriving DecidableEq, Repr

namespace ParseError

def atExtent (cause : Cause) (url : String) (extent : Extent) : ParseError :=
  ⟨cause, url, extent.line, extent.column⟩

def text (e : ParseError) : String :=
  e.cause.kind.text ++ ": " ++ e.cause.message ++ " (" ++ e.url ++ ":" ++ toString e.line ++ ":" ++
    toString e.column ++ ")"

end ParseError

end EcmaFront
