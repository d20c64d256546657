import ComponentLang.StableSort
import ComponentLang.Token.Basic

namespace ComponentLang

inductive Severity where
  | warning | error
  deriving DecidableEq, Repr

def Severity.name : Severity → String
  | .warning => "warning"
  | .error => "error"

inductive DiagnosticCode where
  | unterminatedString
  | unexpectedToken
  | expectedToken
  | unexpectedEndOfInput
  | invalidType
  | invalidExpression
  | invalidIdentifier
  | stringExpected
  | duplicateDeclaration
  | unknownIdentifier
  deriving DecidableEq, Repr

namespace DiagnosticCode

def all : List DiagnosticCode :=
  [.unterminatedString, .unexpectedToken, .expectedToken,
    .unexpectedEndOfInput, .invalidType, .invalidExpression,
    .invalidIdentifier, .stringExpected, .duplicateDeclaration,
    .unknownIdentifier]

def name : DiagnosticCode → String
  | .unterminatedString => "UnterminatedString"
  | .unexpectedToken => "UnexpectedToken"
  | .expectedToken => "ExpectedToken"
  | .unexpectedEndOfInput => "UnexpectedEndOfInput"
  | .invalidType => "InvalidType"
  | .invalidExpression => "InvalidExpression"
  | .invalidIdentifier => "InvalidIdentifier"
  | .stringExpected => "StringExpected"
  | .duplicateDeclaration => "DuplicateDeclaration"
  | .unknownIdentifier => "UnknownIdentifier"

def ofName? (text : String) : Option DiagnosticCode :=
  all.find? fun code => code.name == text

end DiagnosticCode

structure Diagnostic where
  severity : Severity
  code : DiagnosticCode
  message : String
  token : Token
  suggestion : Option String := none
  deriving DecidableEq, Repr

namespace Diagnostic

def isError (diagnostic : Diagnostic) : Bool :=
  diagnostic.severity == .error

def position (diagnostic : Diagnostic) : Position :=
  diagnostic.token.start

/-- A place as it is shown to a reader, who counts from one. -/
def place (diagnostic : Diagnostic) : String :=
  toString (diagnostic.token.line + 1) ++ ":" ++
    toString (diagnostic.token.column + 1)

def summary (diagnostic : Diagnostic) : String :=
  diagnostic.severity.name ++ ":" ++ diagnostic.place ++ ": " ++
    diagnostic.message ++
    match diagnostic.suggestion with
    | some hint => " (" ++ hint ++ ")"
    | none => ""

/-- Document order; diagnostics at one place keep their order. -/
def sortByPosition (diagnostics : List Diagnostic) : List Diagnostic :=
  StableSort.sort (fun first second => first.position.le second.position)
    diagnostics

end Diagnostic

end ComponentLang
