import ComponentLang.Finding
import ComponentLang.Grammar.Reading
import ComponentLang.Scope

namespace ComponentLang

/-- The visit of a document without options: what was found takes the place of
what is reported, and a table that of the store. -/
structure Walk where
  cursor : TokenCursor
  scopes : ScopeStack := {}
  symbols : SymbolTable := {}
  /-- The tokens given a semantic kind, latest first. -/
  classified : List Token := []
  /-- What was found, latest first. -/
  findings : List Finding := []
  /-- Statements behind which scopes had to be closed. -/
  resets : Nat := 0
  deriving Repr

namespace Walk

def report (walk : Walk) (cause : Cause) (anchor : Token) : Walk :=
  { walk with findings := ⟨cause, anchor⟩ :: walk.findings }

def start (tokens : List Token) : Walk where
  cursor := .ofList tokens

/-! Steps that take a token. -/

def moveTo (walk : Walk) (cursor : TokenCursor) : Walk :=
  { walk with cursor }

def place (walk : Walk) : Position :=
  walk.cursor.place

def advance (walk : Walk) (expected : Expected) : Outcome × Walk :=
  match walk.cursor.next? with
  | some (_, cursor) => (.finished, walk.moveTo cursor)
  | none =>
      (.ended, walk.report (.endOfInput expected) (.marker walk.place))

def isLater (walk : Walk) (token : Token) : Bool :=
  walk.cursor.isLater token

def canResumeAt (walk : Walk) (token : Token) : Bool :=
  walk.cursor.canResumeAt token

theorem canResumeAt_def (walk : Walk) (token : Token) :
    walk.canResumeAt token =
      (token.text == Operator.rightBrace.spelling ||
        (token.kind == .keyword &&
          (Keyword.ofSpelling? token.text).any Keyword.startsStatement &&
          walk.isLater token)) := rfl

/-- Takes the next token as the start of what is expected, or gives the
statement up in front of it. -/
def need (walk : Walk) (expected : Expected) : Outcome × Walk :=
  match walk.cursor.next? with
  | none => walk.advance expected
  | some (token, cursor) =>
      if expected.accepts token || !walk.canResumeAt token then
        (.finished, walk.moveTo cursor)
      else
        (.abandoned token.line,
          walk.report (.abandoned expected token.text)
            (if walk.isLater token then .marker walk.place else token))

def rescue (walk : Walk) (candidates : List Terminal) : Walk :=
  match walk.cursor.rescue? candidates with
  | some cursor => walk.moveTo cursor
  | none => walk

def expect (walk : Walk) (candidates : List Terminal) : Outcome × Walk :=
  match walk.need (.oneOf candidates) with
  | (.finished, walk) =>
      match walk.cursor.current? with
      | none => (.finished, walk)
      | some token =>
          if (Expected.oneOf candidates).accepts token then (.finished, walk)
          else
            (.finished,
              (walk.report (.mismatch candidates) token).rescue candidates)
  | stopped => stopped

def strings (walk : Walk) : Walk :=
  walk.moveTo walk.cursor.passStrings

/-! Steps about the current token. -/

def holds (walk : Walk) (test : Test) : Bool :=
  walk.cursor.holds test

def classify (walk : Walk) (kind : TokenKind) (modifiers : Modifiers) : Walk :=
  let cursor := walk.cursor.reclassify kind modifiers
  { walk with cursor, classified := cursor.current?.toList ++ walk.classified }

def complain (walk : Walk) (complaint : Complaint) : Walk :=
  match walk.cursor.current? with
  | none => walk
  | some token =>
      match complaint with
      | .unexpectedToken => walk.report .unexpectedToken token
      | .invalidExpression => walk.report .invalidExpression token
      | .invalidType => walk.report (.invalidType walk.symbols.names) token
      | .stringExpected => walk.report .stringExpected token

def resolve (walk : Walk) : Walk :=
  match walk.cursor.current? with
  | none => walk
  | some token =>
      if Literal.isIdentifier token.text then
        match walk.symbols.lookup? (Literal.nameOf token.text) with
        | some symbol => walk.classify symbol.kind symbol.modifiers
        | none => walk.report (.unknownIdentifier walk.symbols.names) token
      else walk.report .invalidIdentifier token

def reportDuplicate (walk : Walk) (registration : Registration)
    (kind : TokenKind) (token : Token) : Walk :=
  match registration with
  | .duplicate earlier =>
      if earlier.kind == .namespace && kind == .namespace then walk
      else walk.report (.duplicateDeclaration earlier.clash) token
  | _ => walk

def declare (walk : Walk) (kind : TokenKind) (modifiers : Modifiers) :
    Option String × Walk :=
  match walk.cursor.current? with
  | none => (none, walk)
  | some token =>
      if Literal.isIdentifier token.text then
        let name := Literal.nameOf token.text
        let (registration, symbols) := walk.symbols.declare
          { name
            scope := walk.scopes.path
            kind
            modifiers := modifiers.withDeclaration
            line := token.line
            column := token.column }
        (some name,
          ({ walk with symbols }.reportDuplicate registration kind token).classify
            kind modifiers.withDeclaration)
      else (none, walk.report .invalidIdentifier token)

/-- Takes the next token as the name of a definition and declares it. The
answer holds the name, if it is a valid one. -/
def define (walk : Walk) (kind : TokenKind) (modifiers : Modifiers) :
    Outcome × Option String × Walk :=
  match walk.need .identifier with
  | (.finished, walk) => (.finished, walk.declare kind modifiers)
  | (stopped, walk) => (stopped, none, walk)

def openScope (walk : Walk) (name : String) (kind : TokenKind) : Walk :=
  { walk with scopes := walk.scopes.push ⟨name, kind⟩ }

def closeScope (walk : Walk) : Walk :=
  { walk with scopes := walk.scopes.pop.2 }

def settle (walk : Walk) : Walk :=
  if walk.scopes.depth == 1 then walk
  else
    { walk with scopes := walk.scopes.reset, resets := walk.resets + 1 }

def beginning (walk : Walk) (block : Block) : Beginning :=
  walk.cursor.beginning block

end Walk

end ComponentLang
