import ComponentLang.Analysis
import ComponentLang.Walk.Run

namespace ComponentLang

namespace Options

/-- The severity of findings with a cause, unless they are not reported. -/
def severity? (options : Options) : Cause → Option Severity
  | .unknownIdentifier _ => options.unknownIdentifiers.severity?
  | .duplicateDeclaration _ => options.duplicateDeclarations.severity?
  | _ => some .error

def report? (options : Options) (finding : Finding) : Option Diagnostic :=
  (options.severity? finding.cause).map finding.diagnostic

def keep (options : Options) (diagnostics : List Diagnostic) :
    List Diagnostic :=
  (diagnostics.foldl DiagnosticCollector.report (.limited options)).toList

end Options

namespace Walk

def diagnostics (walk : Walk) (options : Options) : List Diagnostic :=
  walk.findings.reverse.filterMap options.report?

def reportCount (walk : Walk) (options : Options) : Nat :=
  walk.findings.countP fun finding => (options.report? finding).isSome

end Walk

namespace Analysis

def ofWalk (walk : Walk) (diagnostics : List Diagnostic) : Analysis where
  tokens := walk.cursor.toList
  classified := walk.classified.reverse
  diagnostics
  symbols := walk.symbols.toList
  peakScopeDepth := walk.scopes.peak
  scopeResets := walk.resets

end Analysis

end ComponentLang
