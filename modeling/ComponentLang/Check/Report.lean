import ComponentLang.Check.Arguments
import ComponentLang.Check.Encode
import ComponentLang.Diagnostic.Rendering
import ComponentLang.Json.Printer

namespace ComponentLang.Check

/-- A text that was checked, under the path by which it is reported. -/
structure Checked where
  path : String
  text : String
  analysis : Analysis
  deriving DecidableEq, Repr

def Checked.ofText (options : Options) (path text : String) : Checked where
  path
  text
  analysis := analyzeSource options text

def showModifiers (modifiers : Modifiers) : String :=
  "Modifiers(" ++
    (if modifiers.names.isEmpty then "0x0" else modifiers.listing) ++ ")"

def tokenLine (path : String) (token : Token) : String :=
  path ++ ":" ++ toString (token.line + 1) ++ ":" ++
    toString (token.column + 1) ++ ": " ++ token.text ++ " " ++
    token.kind.name ++ " " ++ showModifiers token.modifiers

def countLines (checked : Checked) : List String :=
  let errors := checked.analysis.errors.length
  let warnings := checked.analysis.warnings.length
  if errors + warnings = 0 then []
  else
    [checked.path ++ ": " ++ toString errors ++ " error(s), " ++
      toString warnings ++ " warning(s)"]

def readable (tokens : Bool) (checked : Checked) : String :=
  let diagnostics := checked.analysis.diagnostics.map fun diagnostic =>
    checked.path ++ ": " ++ diagnostic.render checked.text
  let classified :=
    if tokens then checked.analysis.classified.map (tokenLine checked.path)
    else []
  String.join
    ((diagnostics ++ classified ++ countLines checked).map (· ++ "\n"))

def fileToJson (tokens : Bool) (checked : Checked) : Json :=
  let classified := checked.analysis.classified
  .ofFields
    ([("path", .ofString checked.path),
        ("diagnostics",
          .array (checked.analysis.diagnostics.map Diagnostic.toJson))] ++
      if tokens then
        [("classified", .array (classified.map Token.toJson)),
          ("semantic_tokens",
            .array ((Highlight.encode classified).map Json.ofNat))]
      else [])

def reportToJson (tokens : Bool) (files : List Checked) : Json :=
  .ofFields
    [("legend", Highlight.legendToJson),
      ("files", .array (files.map (fileToJson tokens)))]

def report (format : Format) (tokens : Bool) (files : List Checked) : String :=
  match format with
  | .human => String.join (files.map (readable tokens))
  | .json => (reportToJson tokens files).pretty ++ "\n"

end ComponentLang.Check
