import ComponentLang.Diagnostic.Collector
import ComponentLang.Finding
import ComponentLang.Grammar.Reading
import ComponentLang.Options.Basic
import ComponentLang.Scope
import ComponentLang.Symbol.Store

namespace ComponentLang

/-- What a visitor knows on its way over the tokens of a document. -/
structure Visitor where
  options : Options
  cursor : TokenCursor
  scopes : ScopeStack := {}
  symbols : SymbolStore := {}
  /-- The tokens given a semantic kind, latest first. -/
  classified : List Token := []
  /-- Statements behind which scopes had to be closed. -/
  resets : Nat := 0
  sink : DiagnosticCollector
  deriving Repr

/-- What became of a name that is being defined. -/
structure DefinedName where
  name : Option String := none
  /-- A scope was opened, which is to be closed. -/
  opened : Bool := false
  deriving DecidableEq, Repr

namespace Visitor

def start (options : Options) (sink : DiagnosticCollector)
    (tokens : List Token) : Visitor where
  options
  cursor := .ofList tokens
  sink

def report (visitor : Visitor) (severity : Severity) (cause : Cause)
    (anchor : Token) : Visitor :=
  { visitor with
    sink := visitor.sink.report (Finding.diagnostic ⟨cause, anchor⟩ severity) }

def error (visitor : Visitor) (cause : Cause) (anchor : Token) : Visitor :=
  visitor.report .error cause anchor

def moveTo (visitor : Visitor) (cursor : TokenCursor) : Visitor :=
  { visitor with cursor }

/-- Takes the next token. At the end of the document, what was expected is
missing. -/
def advance (visitor : Visitor) (expected : Expected) : Outcome × Visitor :=
  match visitor.cursor.next? with
  | some (_, cursor) => (.finished, visitor.moveTo cursor)
  | none =>
      (.ended,
        visitor.error (.endOfInput expected) (.marker visitor.cursor.place))

/-- Takes the next token as the start of what is expected, or goes back in front
of it and gives the statement up. -/
def need (visitor : Visitor) (expected : Expected) : Outcome × Visitor :=
  match visitor.advance expected with
  | (.finished, ahead) =>
      match ahead.cursor.current? with
      | none => (.finished, ahead)
      | some found =>
          if expected.accepts found || !visitor.cursor.canResumeAt found then
            (.finished, ahead)
          else
            let anchor :=
              if visitor.cursor.isLater found then .marker visitor.cursor.place
              else found
            (.abandoned found.line,
              (ahead.error (.abandoned expected found.text) anchor).moveTo
                visitor.cursor)
  | stopped => stopped

def rescue (visitor : Visitor) (candidates : List Terminal) : Visitor :=
  match visitor.cursor.rescue? candidates with
  | some cursor => visitor.moveTo cursor
  | none => visitor

/-- Takes the next token as one of the candidates. Another token is reported,
and passed over if a candidate stands further on in its line. -/
def expect (visitor : Visitor) (candidates : List Terminal) :
    Outcome × Visitor :=
  match visitor.need (.oneOf candidates) with
  | (.finished, visitor) =>
      match visitor.cursor.current? with
      | none => (.finished, visitor)
      | some found =>
          if (Terminal.find? candidates found.text).isSome then
            (.finished, visitor)
          else
            (.finished,
              (visitor.error (.mismatch candidates) found).rescue candidates)
  | stopped => stopped

def strings (visitor : Visitor) : Visitor :=
  visitor.moveTo visitor.cursor.passStrings

def classify (visitor : Visitor) (kind : TokenKind) (modifiers : Modifiers) :
    Visitor :=
  let cursor := visitor.cursor.reclassify kind modifiers
  { visitor with
    cursor, classified := cursor.current?.toList ++ visitor.classified }

def complain (visitor : Visitor) (complaint : Complaint) : Visitor :=
  match visitor.cursor.current? with
  | none => visitor
  | some token =>
      match complaint with
      | .unexpectedToken => visitor.error .unexpectedToken token
      | .invalidExpression => visitor.error .invalidExpression token
      | .invalidType => visitor.error (.invalidType visitor.symbols.names) token
      | .stringExpected => visitor.error .stringExpected token

/-- Classifies the current token as what its name stands for. Whether an unknown
name is reported is up to the options. -/
def resolve (visitor : Visitor) : Visitor :=
  match visitor.cursor.current? with
  | none => visitor
  | some token =>
      if Literal.isIdentifier token.text then
        match visitor.symbols.lookup? (Literal.nameOf token.text) with
        | some symbol => visitor.classify symbol.kind symbol.modifiers
        | none =>
            match visitor.options.unknownIdentifiers.severity? with
            | some severity =>
                visitor.report severity
                  (.unknownIdentifier visitor.symbols.names) token
            | none => visitor
      else visitor.error .invalidIdentifier token

/-- Reports a name that its scope has already, if the options ask for that. A
module may be opened again. -/
def refuse (visitor : Visitor) (clash : Clash) (kind : TokenKind)
    (token : Token) : Visitor :=
  if clash.kind == .namespace && kind == .namespace then visitor
  else
    match visitor.options.duplicateDeclarations.severity? with
    | some severity =>
        visitor.report severity (.duplicateDeclaration clash) token
    | none => visitor

def openScope (visitor : Visitor) (name : String) (kind : TokenKind) :
    Visitor :=
  { visitor with scopes := visitor.scopes.push ⟨name, kind⟩ }

def popScope (visitor : Visitor) : Visitor :=
  { visitor with scopes := visitor.scopes.pop.2 }

def closeScope (visitor : Visitor) (opened : Bool) : Visitor :=
  if opened then visitor.popScope else visitor

def register (visitor : Visitor) (symbol : Symbol) (token : Token) : Visitor :=
  let (declared, symbols) := visitor.symbols.declare symbol
  let visitor := { visitor with symbols }
  match declared with
  | .ok _ => visitor
  | .error clash => visitor.refuse clash symbol.kind token

/-- Declares the name that the current token is, if it is a valid one, and opens
a scope for it, if names of this kind open one. -/
def declare (visitor : Visitor) (kind : TokenKind) (modifiers : Modifiers) :
    DefinedName × Visitor :=
  match visitor.cursor.current? with
  | none => ({}, visitor)
  | some token =>
      if Literal.isIdentifier token.text then
        let name := Literal.nameOf token.text
        let symbol : Symbol :=
          { name
            scope := visitor.scopes.path
            kind
            modifiers := modifiers.withDeclaration
            line := token.line
            column := token.column }
        let visitor :=
          (visitor.register symbol token).classify kind symbol.modifiers
        ({ name := some name, opened := kind.opensScope },
          if kind.opensScope then visitor.openScope name kind else visitor)
      else ({}, visitor.error .invalidIdentifier token)

/-- Takes the next token as the name of a definition and declares it. -/
def define (visitor : Visitor) (kind : TokenKind) (modifiers : Modifiers) :
    Outcome × DefinedName × Visitor :=
  match visitor.need .identifier with
  | (.finished, visitor) => (.finished, visitor.declare kind modifiers)
  | (stopped, visitor) => (stopped, {}, visitor)

/-- Between statements of the document only the global scope is open. -/
def settle (visitor : Visitor) : Visitor :=
  if visitor.scopes.depth == 1 then visitor
  else
    { visitor with
      scopes := visitor.scopes.reset, resets := visitor.resets + 1 }

end Visitor

end ComponentLang
