import ComponentLang.Diagnostic.Basic
import ComponentLang.Diagnostic.Suggestion
import ComponentLang.Grammar.Expected
import ComponentLang.Scan.Document
import ComponentLang.Symbol

namespace ComponentLang

inductive Cause where
  | unterminatedString (block : Bool)
  | unexpectedToken
  /-- Another token stands where a terminal has to. -/
  | mismatch (candidates : List Terminal)
  /-- A statement ends, before the given text, where it has to go on. -/
  | abandoned (expected : Expected) (found : String)
  | endOfInput (expected : Expected)
  | invalidType (known : List String)
  | invalidExpression
  | invalidIdentifier
  | stringExpected
  | duplicateDeclaration (earlier : Clash)
  | unknownIdentifier (known : List String)
  deriving DecidableEq, Repr

structure Finding where
  cause : Cause
  anchor : Token
  deriving DecidableEq, Repr

namespace Cause

def code : Cause → DiagnosticCode
  | .unterminatedString _ => .unterminatedString
  | .unexpectedToken => .unexpectedToken
  | .mismatch _ | .abandoned _ _ => .expectedToken
  | .endOfInput _ => .unexpectedEndOfInput
  | .invalidType _ => .invalidType
  | .invalidExpression => .invalidExpression
  | .invalidIdentifier => .invalidIdentifier
  | .stringExpected => .stringExpected
  | .duplicateDeclaration _ => .duplicateDeclaration
  | .unknownIdentifier _ => .unknownIdentifier

def message (cause : Cause) (text : String) : String :=
  match cause with
  | .unterminatedString block => Scan.unterminatedMessage block
  | .unexpectedToken => "Unexpected token: " ++ text
  | .mismatch candidates =>
      "Expected " ++ (Expected.oneOf candidates).description ++ ", found " ++
        Expected.quoted text
  | .abandoned expected found =>
      "Expected " ++ expected.description ++ ", found " ++
        Expected.quoted found
  | .endOfInput expected =>
      "Expected " ++ expected.description ++ ", found end of input"
  | .invalidType _ => "Invalid type: " ++ text
  | .invalidExpression => "Invalid expression: " ++ text
  | .invalidIdentifier => "Invalid identifier: " ++ text
  | .stringExpected => "String expected, found " ++ Expected.quoted text
  | .duplicateDeclaration earlier =>
      "Duplicate declaration: " ++ earlier.message
  | .unknownIdentifier _ => "Unknown identifier: " ++ text

def suggestion (cause : Cause) (anchor : Token) : Option String :=
  match cause with
  | .unexpectedToken =>
      if anchor.kind == .nil then
        Suggestion.didYouMean anchor.text (Keyword.all.map Keyword.spelling)
      else none
  | .mismatch candidates =>
      Suggestion.didYouMean anchor.text (candidates.map Terminal.spelling)
  | .invalidType known =>
      Suggestion.didYouMean anchor.text
        (BuiltinType.all.map BuiltinType.spelling ++ known)
  | .invalidIdentifier =>
      if Literal.isReserved anchor.text then
        some ("escape the reserved word as " ++
          Expected.quoted ("$" ++ anchor.text))
      else none
  | .unknownIdentifier known =>
      Suggestion.didYouMean (Literal.nameOf anchor.text) known
  | _ => none

end Cause

namespace Finding

def diagnostic (finding : Finding) (severity : Severity) : Diagnostic where
  severity
  code := finding.cause.code
  message := finding.cause.message finding.anchor.text
  token := finding.anchor
  suggestion := finding.cause.suggestion finding.anchor

def ofLexicalError (error : Scan.LexicalError) : Finding where
  cause := .unterminatedString error.block
  anchor := error.token

end Finding

end ComponentLang
