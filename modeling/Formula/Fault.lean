/-
What can go wrong, as causes. A cause determines its code, which programs
look at, and its message, which people read; both are read off the
constructor and nowhere else. A fault is a cause with the place it was
found at, if one is known, and an identifier that a caller may attach.
-/
import Formula.Text.Place
import Formula.Value.Basic

namespace Formula

-- ================================================================== codes

/-- The codes of faults. -/
inductive Code where
  | unknown
  | internal
  | unexpectedEnd
  | errorNear
  | errorAt
  | unknownSymbol
  | unexpectedSymbol
  | missedCloseParenthesis
  | missedCloseSquareBracket
  | mismatchedBrackets
  | missingVariable
  | notClosedSection
  | unexpectedSectionEnd
  | varNotFound
  | funcNotFound
  | wrongParamCount
  | badParamType
  | unsupportedOperation
  | badConversion
  | divisionByZero
  deriving DecidableEq, Repr

/-- The stable name of a code. -/
def Code.name : Code → String
  | .unknown => "UNKNOWN"
  | .internal => "INTERNAL"
  | .unexpectedEnd => "UNEXPECTED_END"
  | .errorNear => "ERROR_NEAR"
  | .errorAt => "ERROR_AT"
  | .unknownSymbol => "UNKNOWN_SYMBOL"
  | .unexpectedSymbol => "UNEXPECTED_SYMBOL"
  | .missedCloseParenthesis => "MISSED_CLOSE_PARENTHESIS"
  | .missedCloseSquareBracket => "MISSED_CLOSE_SQUARE_BRACKET"
  | .mismatchedBrackets => "MISMATCHED_BRACKETS"
  | .missingVariable => "MISSING_VARIABLE"
  | .notClosedSection => "NOT_CLOSED_SECTION"
  | .unexpectedSectionEnd => "UNEXPECTED_SECTION_END"
  | .varNotFound => "VAR_NOT_FOUND"
  | .funcNotFound => "FUNC_NOT_FOUND"
  | .wrongParamCount => "WRONG_PARAM_COUNT"
  | .badParamType => "BAD_PARAM_TYPE"
  | .unsupportedOperation => "UNSUPPORTED_OPERATION"
  | .badConversion => "BAD_CONVERSION"
  | .divisionByZero => "DIVISION_BY_ZERO"

-- ================================================================= causes

/-- Why something failed. -/
inductive Cause where
  /-- A token was wanted where the text is over. -/
  | endOfInput
  | unterminatedString (quote : Char)
  | unterminatedComment
  /-- A symbol or character that means nothing in expressions. -/
  | unknownSymbol (text : String)
  | invalidNumber (text : String)
  | endOfExpression
  | nestedTooDeep (limit : Nat)
  /-- No operand can begin with this token. -/
  | wrongOperand (text : String)
  /-- The expression is over and this token is left. -/
  | leftover (text : String)
  | missingParenthesis
  | missingBracket
  | emptyStack
  | badCount
  | valuesLeft (count : Nat)
  | variableNotFound (name : String)
  | functionNotFound (name : String)
  | unsupported (operation : String) (left right : Value.Kind)
  | unsupportedFor (operation : String) (operand : Value.Kind)
  | badConversion (source target : Value.Kind)
  /-- The pattern makes no regular expression. -/
  | invalidPattern (reason : String)
  | overflow (operation : String)
  | divisionByZero
  | absOverflow
  | argumentCount (function : String) (expected actual : Nat)
  | tooFewArguments (function : String) (least actual : Nat)
  | notANumber (function : String) (actual : Value.Kind)
  /-- A token that fits no tag at this point of a template. -/
  | unexpectedSymbol (text : String)
  | mismatchedBrackets (opening closing : String)
  | missingName
  /-- A tag is being read that no bracket has opened. -/
  | noOpenTag
  | endOfTemplate
  | sectionsTooDeep (limit : Nat)
  | unexpectedSectionEnd (name : String)
  | sectionNotClosed (name : String)
  /-- A failure reported by a function of the host program. -/
  | reported (code : Code) (message : String)
  deriving DecidableEq, Repr

namespace Cause

/-- The code of a cause. -/
def code : Cause → Code
  | endOfInput | unterminatedString _ | unterminatedComment | endOfExpression | endOfTemplate =>
    .unexpectedEnd
  | unknownSymbol _ => .unknownSymbol
  | invalidNumber _ | nestedTooDeep _ | wrongOperand _ => .errorAt
  | leftover _ => .errorNear
  | missingParenthesis => .missedCloseParenthesis
  | missingBracket => .missedCloseSquareBracket
  | emptyStack | badCount | valuesLeft _ | noOpenTag => .internal
  | variableNotFound _ => .varNotFound
  | functionNotFound _ => .funcNotFound
  | unsupported .. | unsupportedFor .. | overflow _ | absOverflow => .unsupportedOperation
  | badConversion .. | invalidPattern _ => .badConversion
  | divisionByZero => .divisionByZero
  | argumentCount .. | tooFewArguments .. => .wrongParamCount
  | notANumber .. => .badParamType
  | unexpectedSymbol _ | sectionsTooDeep _ => .unexpectedSymbol
  | mismatchedBrackets .. => .mismatchedBrackets
  | missingName => .missingVariable
  | unexpectedSectionEnd _ => .unexpectedSectionEnd
  | sectionNotClosed _ => .notClosedSection
  | reported code _ => code

/-- The message of a cause. -/
def message : Cause → String
  | endOfInput => "Unexpected end of input"
  | unterminatedString quote => "Unterminated string starting with " ++ quote.toString
  | unterminatedComment => "Unterminated block comment"
  | unknownSymbol text => "Unknown symbol " ++ text
  | invalidNumber text => "Invalid number " ++ text
  | endOfExpression => "Unexpected end of expression"
  | nestedTooDeep limit => "Expression is nested deeper than " ++ limit.repr ++ " levels"
  | wrongOperand text => "Syntax error at " ++ text
  | leftover text => "Syntax error near " ++ text
  | missingParenthesis => "Missing closing parenthesis"
  | missingBracket => "Missing closing square bracket"
  | emptyStack => "Calculation stack is empty"
  | badCount => "Invalid element count on the stack"
  | valuesLeft count => "Evaluation left " ++ count.repr ++ " values on the stack"
  | variableNotFound name => "Variable " ++ name ++ " was not found"
  | functionNotFound name => "Function " ++ name ++ " was not found"
  | unsupported operation left right =>
    "Operation \x27" ++ operation ++ "\x27 is not supported for " ++ left.name ++ " and "
      ++ right.name
  | unsupportedFor operation operand =>
    "Operation \x27" ++ operation ++ "\x27 is not supported for " ++ operand.name
  | badConversion source target => "Cannot convert " ++ source.name ++ " to " ++ target.name
  | invalidPattern reason => "Invalid LIKE pattern: " ++ reason
  | overflow operation => "Integer overflow in \x27" ++ operation ++ "\x27"
  | divisionByZero => "Division by zero"
  | absOverflow => "Integer overflow in Abs"
  | argumentCount function expected actual =>
    "Function " ++ function ++ " expects " ++ expected.repr ++ " arguments, got " ++ actual.repr
  | tooFewArguments function least actual =>
    "Function " ++ function ++ " expects at least " ++ least.repr ++ " arguments, got "
      ++ actual.repr
  | notANumber function actual =>
    "Function " ++ function ++ " expects a numeric argument, got " ++ actual.name
  | unexpectedSymbol text => "Unexpected symbol " ++ text
  | mismatchedBrackets opening closing => "Mismatched brackets " ++ opening ++ " and " ++ closing
  | missingName => "Missing variable name"
  | noOpenTag => "Tag state without an open tag"
  | endOfTemplate => "Unexpected end of template inside a tag"
  | sectionsTooDeep limit => "Sections are nested deeper than " ++ limit.repr ++ " levels"
  | unexpectedSectionEnd name => "Unexpected section end " ++ name
  | sectionNotClosed name => "Section " ++ name ++ " is not closed"
  | reported _ message => message

end Cause

-- ================================================================= faults

/-- A cause and where it was found. -/
structure Fault where
  cause : Cause
  line : Option Nat
  column : Option Nat
  correlation : Option String
  deriving DecidableEq, Repr

namespace Fault

/-- A cause that belongs to no place. -/
def of (cause : Cause) : Fault := ⟨cause, none, none, none⟩

/-- A cause found at a place. -/
def atPlace (cause : Cause) (place : Place) : Fault :=
  ⟨cause, some place.line, some place.column, none⟩

/-- The fault with a place, unless it already has a line. -/
def locate (fault : Fault) (place : Place) : Fault :=
  match fault.line with
  | none => { fault with line := some place.line, column := some place.column }
  | some _ => fault

/-- Where a fault was found, in words. -/
def suffix (fault : Fault) : String :=
  match fault.line, fault.column with
  | some line, some column => " at line " ++ line.repr ++ ", column " ++ column.repr
  | some line, none => " at line " ++ line.repr
  | none, _ => ""

/-- A fault as one line of text. -/
def text (fault : Fault) : String :=
  fault.cause.code.name ++ ": " ++ fault.cause.message ++ fault.suffix

end Fault

/-- A value or a fault. -/
abbrev Outcome := Except Fault Value

end Formula
