import ComponentLang.Analysis
import ComponentLang.Highlight
import ComponentLang.Json.Value

namespace ComponentLang

def Token.toJson (token : Token) : Json :=
  .ofFields
    [("line", .ofNat token.line), ("start_column", .ofNat token.column),
      ("length", .ofNat token.length), ("kind", .ofString token.kind.name),
      ("text", .ofString token.text),
      ("modifiers", .ofString token.modifiers.listing)]

def Diagnostic.toJson (diagnostic : Diagnostic) : Json :=
  .ofFields
    [("severity", .ofString diagnostic.severity.name),
      ("code", .ofString diagnostic.code.name),
      ("message", .ofString diagnostic.message),
      ("token", diagnostic.token.toJson),
      ("suggestion", (diagnostic.suggestion.map Json.ofString).getD .null)]

def Symbol.toJson (symbol : Symbol) : Json :=
  .ofFields
    [("name", .ofString symbol.name), ("scope", .ofString symbol.scope),
      ("kind", .ofString symbol.kind.name),
      ("modifiers", .ofString symbol.modifiers.listing),
      ("line", .ofNat symbol.line), ("column", .ofNat symbol.column)]

def Analysis.toJson (analysis : Analysis) : Json :=
  .ofFields
    [("tokens", .array (analysis.tokens.map Token.toJson)),
      ("classified", .array (analysis.classified.map Token.toJson)),
      ("diagnostics", .array (analysis.diagnostics.map Diagnostic.toJson)),
      ("symbols", .array (analysis.symbols.map Symbol.toJson)),
      ("peak_scope_depth", .ofNat analysis.peakScopeDepth),
      ("scope_resets", .ofNat analysis.scopeResets)]

def Highlight.legendToJson : Json :=
  .ofFields
    [("token_types", .array (Highlight.tokenTypes.map Json.ofString)),
      ("token_modifiers", .array (Highlight.tokenModifiers.map Json.ofString))]

end ComponentLang
