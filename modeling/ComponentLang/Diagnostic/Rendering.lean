import ComponentLang.Diagnostic.Basic
import ComponentLang.Text.Lines

namespace ComponentLang.Diagnostic

/-- The line of a text that a diagnostic concerns; none is shown as empty. -/
def shownLine (diagnostic : Diagnostic) (source : String) : List Char :=
  (Text.lines source.toList)[diagnostic.token.line]?.getD []

def indent (diagnostic : Diagnostic) (line : List Char) : Nat :=
  Text.charsWithin diagnostic.token.column line

def carets (diagnostic : Diagnostic) (line : List Char) : Nat :=
  max 1 (Text.charsWithin diagnostic.token.length
    (line.drop (diagnostic.indent line)))

def render (diagnostic : Diagnostic) (source : String) : String :=
  let line := diagnostic.shownLine source
  diagnostic.severity.name ++ "[" ++ diagnostic.code.name ++ "]:" ++
    diagnostic.place ++ ": " ++ diagnostic.message ++
    "\n  " ++ String.ofList line ++
    "\n  " ++ String.ofList (List.replicate (diagnostic.indent line) ' ') ++
    String.ofList (List.replicate (diagnostic.carets line) '^') ++
    match diagnostic.suggestion with
    | some hint => "\n  help: " ++ hint
    | none => ""

end ComponentLang.Diagnostic
