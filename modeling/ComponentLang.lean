import ComponentLang.Analysis
import ComponentLang.Check.Arguments
import ComponentLang.Check.Encode
import ComponentLang.Check.Report
import ComponentLang.Check.Response
import ComponentLang.Diagnostic.Basic
import ComponentLang.Diagnostic.Collector
import ComponentLang.Diagnostic.Rendering
import ComponentLang.Diagnostic.Suggestion
import ComponentLang.Finding
import ComponentLang.Grammar.Expected
import ComponentLang.Grammar.Procedure
import ComponentLang.Grammar.Production
import ComponentLang.Grammar.Progress
import ComponentLang.Grammar.Reading
import ComponentLang.Grammar.Rule
import ComponentLang.Grammar.Statement
import ComponentLang.Highlight
import ComponentLang.Json.Lexeme
import ComponentLang.Json.Printer
import ComponentLang.Json.Reader
import ComponentLang.Json.Value
import ComponentLang.KeyedMap
import ComponentLang.Main
import ComponentLang.Options.Basic
import ComponentLang.Options.Decode
import ComponentLang.Proofs.Analysis.BodyClosing
import ComponentLang.Proofs.Analysis.Brackets
import ComponentLang.Proofs.Analysis.Cancellation
import ComponentLang.Proofs.Analysis.Causality
import ComponentLang.Proofs.Analysis.DocumentOrder
import ComponentLang.Proofs.Analysis.Duplicates
import ComponentLang.Proofs.Analysis.Expressions
import ComponentLang.Proofs.Analysis.Highlights
import ComponentLang.Proofs.Analysis.Notices
import ComponentLang.Proofs.Analysis.Parameters
import ComponentLang.Proofs.Analysis.Policies
import ComponentLang.Proofs.Analysis.Precedence
import ComponentLang.Proofs.Analysis.Reanalysis
import ComponentLang.Proofs.Analysis.Recovery
import ComponentLang.Proofs.Analysis.Renaming
import ComponentLang.Proofs.Analysis.ReportBound
import ComponentLang.Proofs.Analysis.Reports
import ComponentLang.Proofs.Analysis.SameReading
import ComponentLang.Proofs.Analysis.StringContents
import ComponentLang.Proofs.Analysis.Trivia
import ComponentLang.Proofs.Analysis.Truncation
import ComponentLang.Proofs.Analysis.WellFormed
import ComponentLang.Proofs.Check.ExitStatus
import ComponentLang.Proofs.Check.ManyFiles
import ComponentLang.Proofs.Diagnostic.Rendering
import ComponentLang.Proofs.Diagnostic.Sorting
import ComponentLang.Proofs.Diagnostic.Suggestions
import ComponentLang.Proofs.Grammar.Acceptance
import ComponentLang.Proofs.Grammar.Braces
import ComponentLang.Proofs.Grammar.Brackets
import ComponentLang.Proofs.Grammar.Definitions
import ComponentLang.Proofs.Grammar.Expressions
import ComponentLang.Proofs.Grammar.Fences
import ComponentLang.Proofs.Grammar.Freshness
import ComponentLang.Proofs.Grammar.Lookahead
import ComponentLang.Proofs.Grammar.Procedures
import ComponentLang.Proofs.Grammar.Scopes
import ComponentLang.Proofs.Grammar.Signatures
import ComponentLang.Proofs.Grammar.Sparing
import ComponentLang.Proofs.Grammar.Terminals
import ComponentLang.Proofs.Grammar.Turns
import ComponentLang.Proofs.Highlight.Decoding
import ComponentLang.Proofs.Json.Reading
import ComponentLang.Proofs.Json.Spelling
import ComponentLang.Proofs.Scan.Append
import ComponentLang.Proofs.Scan.Brackets
import ComponentLang.Proofs.Scan.Categories
import ComponentLang.Proofs.Scan.Errors
import ComponentLang.Proofs.Scan.Escapes
import ComponentLang.Proofs.Scan.Kinds
import ComponentLang.Proofs.Scan.Layout
import ComponentLang.Proofs.Scan.Literals
import ComponentLang.Proofs.Scan.Lossless
import ComponentLang.Proofs.Scan.Pieces
import ComponentLang.Proofs.Scan.Printing
import ComponentLang.Proofs.Scan.Quotes
import ComponentLang.Proofs.Scan.Respacing
import ComponentLang.Proofs.Scan.Shift
import ComponentLang.Proofs.Scan.Strings
import ComponentLang.Proofs.Scan.Words
import ComponentLang.Proofs.Symbol.History
import ComponentLang.Proofs.Symbol.Occurrences
import ComponentLang.Proofs.Symbol.Renaming
import ComponentLang.Proofs.Symbol.Store
import ComponentLang.Proofs.Symbol.Tables
import ComponentLang.Proofs.Syntax.Beginnings
import ComponentLang.Proofs.Syntax.Chains
import ComponentLang.Proofs.Syntax.Item
import ComponentLang.Proofs.Syntax.Lexemes
import ComponentLang.Proofs.Syntax.Printing
import ComponentLang.Proofs.Syntax.Tree
import ComponentLang.Proofs.Text.ByteOrder
import ComponentLang.Proofs.Text.EditDistance
import ComponentLang.Proofs.Text.Terminators
import ComponentLang.Proofs.Token.Alike
import ComponentLang.Proofs.Token.Brackets
import ComponentLang.Proofs.Token.Extension
import ComponentLang.Proofs.Token.Landings
import ComponentLang.Proofs.Token.Moves
import ComponentLang.Proofs.Token.Nesting
import ComponentLang.Proofs.Token.Pairing
import ComponentLang.Proofs.Token.Passing
import ComponentLang.Proofs.Token.Rereading
import ComponentLang.Proofs.Token.Shift
import ComponentLang.Proofs.Token.Sites
import ComponentLang.Proofs.Token.Trivia
import ComponentLang.Proofs.Token.Visited
import ComponentLang.Proofs.Visitor.Balance
import ComponentLang.Proofs.Visitor.Documents
import ComponentLang.Proofs.Visitor.Enactment
import ComponentLang.Proofs.Visitor.Indifference
import ComponentLang.Proofs.Visitor.Progress
import ComponentLang.Proofs.Visitor.Refinement
import ComponentLang.Proofs.Vocabulary.Grammars
import ComponentLang.Proofs.Vocabulary.Numbers
import ComponentLang.Proofs.Walk.Acceptance
import ComponentLang.Proofs.Walk.Alike
import ComponentLang.Proofs.Walk.Anchors
import ComponentLang.Proofs.Walk.Bodies
import ComponentLang.Proofs.Walk.Brackets
import ComponentLang.Proofs.Walk.Causality
import ComponentLang.Proofs.Walk.Consumption
import ComponentLang.Proofs.Walk.Declarations
import ComponentLang.Proofs.Walk.Documents
import ComponentLang.Proofs.Walk.Endings
import ComponentLang.Proofs.Walk.Fence
import ComponentLang.Proofs.Walk.Highlights
import ComponentLang.Proofs.Walk.Inside
import ComponentLang.Proofs.Walk.Invariants
import ComponentLang.Proofs.Walk.Likeness
import ComponentLang.Proofs.Walk.Lockstep
import ComponentLang.Proofs.Walk.Occurrences
import ComponentLang.Proofs.Walk.Precedence
import ComponentLang.Proofs.Walk.Recognition
import ComponentLang.Proofs.Walk.Renaming
import ComponentLang.Proofs.Walk.ReportOrder
import ComponentLang.Proofs.Walk.Requirements
import ComponentLang.Proofs.Walk.Rereading
import ComponentLang.Proofs.Walk.ScopeBalance
import ComponentLang.Proofs.Walk.Shift
import ComponentLang.Proofs.Walk.Signatures
import ComponentLang.Proofs.Walk.Simulation
import ComponentLang.Proofs.Walk.Sparing
import ComponentLang.Proofs.Walk.Steady
import ComponentLang.Proofs.Walk.Steps
import ComponentLang.Proofs.Walk.Stopping
import ComponentLang.Proofs.Walk.Trivia
import ComponentLang.Proofs.Walk.Turns
import ComponentLang.Proofs.Walk.Visits
import ComponentLang.Proofs.Walk.Yields
import ComponentLang.Scan.Document
import ComponentLang.Scan.Piece
import ComponentLang.Scope
import ComponentLang.StableSort
import ComponentLang.Symbol
import ComponentLang.Symbol.Store
import ComponentLang.Text.Blank
import ComponentLang.Text.CodeUnit
import ComponentLang.Text.EditDistance
import ComponentLang.Text.Lines
import ComponentLang.Token.Basic
import ComponentLang.Token.Cursor
import ComponentLang.Token.Kind
import ComponentLang.Token.Modifiers
import ComponentLang.Visitor.Run
import ComponentLang.Visitor.State
import ComponentLang.Vocabulary.BuiltinType
import ComponentLang.Vocabulary.Delimiter
import ComponentLang.Vocabulary.Keyword
import ComponentLang.Vocabulary.Literal
import ComponentLang.Vocabulary.Operator
import ComponentLang.Vocabulary.Terminal
import ComponentLang.Walk.Allowance
import ComponentLang.Walk.Progress
import ComponentLang.Walk.Reports
import ComponentLang.Walk.Run
import ComponentLang.Walk.State
