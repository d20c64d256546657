import ComponentLang.Visitor.Run

namespace ComponentLang

/-- What there is to tell about a document. -/
structure Analysis where
  tokens : List Token
  /-- The tokens that were given a semantic kind, in document order. -/
  classified : List Token
  diagnostics : List Diagnostic
  symbols : List Symbol
  /-- The greatest number of scopes open at once, the global one among them. -/
  peakScopeDepth : Nat
  scopeResets : Nat
  deriving DecidableEq, Repr

namespace Analysis

def ofVisitor (visitor : Visitor) : Analysis where
  tokens := visitor.cursor.toList
  classified := visitor.classified.reverse
  diagnostics := visitor.sink.toList
  symbols := visitor.symbols.toList
  peakScopeDepth := visitor.scopes.peak
  scopeResets := visitor.resets

def errors (analysis : Analysis) : List Diagnostic :=
  analysis.diagnostics.filter fun diagnostic => diagnostic.severity == .error

def warnings (analysis : Analysis) : List Diagnostic :=
  analysis.diagnostics.filter fun diagnostic => diagnostic.severity == .warning

def hasErrors (analysis : Analysis) : Bool :=
  analysis.diagnostics.any Diagnostic.isError

/-- The kind of the first token with the given text. -/
def kindOf? (analysis : Analysis) (text : String) : Option TokenKind :=
  (analysis.tokens.find? fun token => token.text == text).map Token.kind

def symbol? (analysis : Analysis) (name : String) : Option Symbol :=
  analysis.symbols.find? fun symbol => symbol.name == name

end Analysis

structure Cancelled where
  deriving DecidableEq, Repr

def Cancelled.message (_ : Cancelled) : String :=
  "analysis cancelled"

/-- Analyzes tokens. The diagnostics come in report order. -/
def analyze (options : Options) (tokens : List Token) : Analysis :=
  let visitor := Visitor.start options (.limited options) tokens
  .ofVisitor (visitor.document fun _ => false).2

/-- Analyzes tokens as long as `cancelled` does not hold of the number of
reports so far; it is asked before each statement of the document. The answer
tells whether the end was reached; every report is kept. -/
def analyzeWhile (options : Options) (cancelled : Nat → Bool)
    (tokens : List Token) : Bool × Analysis :=
  let visitor := Visitor.start options {} tokens
  let (complete, visitor) :=
    visitor.document fun visitor => cancelled visitor.sink.received
  (complete, .ofVisitor visitor)

/-- Analyzes tokens, unless the analysis meets the end of its leave. -/
def analyzeUnless (options : Options) (cancelled : Nat → Bool)
    (tokens : List Token) : Except Cancelled Analysis :=
  let visitor := Visitor.start options (.limited options) tokens
  match visitor.document fun visitor => cancelled visitor.sink.received with
  | (true, visitor) => .ok (.ofVisitor visitor)
  | (false, _) => .error ⟨⟩

/-- Scans and analyzes a text. Lexical errors are reported before all else; the
diagnostics that are kept come in document order. -/
def analyzeSource (options : Options) (text : String) : Analysis :=
  let scanned := scan text
  let sink := scanned.errors.foldl
    (fun sink error =>
      sink.report ((Finding.ofLexicalError error).diagnostic .error))
    (.limited options)
  let visitor := Visitor.start options sink scanned.tokens
  let analysis := Analysis.ofVisitor (visitor.document fun _ => false).2
  { analysis with
    diagnostics := Diagnostic.sortByPosition analysis.diagnostics }

end ComponentLang
