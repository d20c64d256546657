import ComponentLang.Diagnostic.Basic

namespace ComponentLang

inductive ReportLevel where
  | off | warning | error
  deriving DecidableEq, Repr

namespace ReportLevel

def all : List ReportLevel :=
  [.off, .warning, .error]

def name : ReportLevel → String
  | .off => "off"
  | .warning => "warning"
  | .error => "error"

def ofName? (text : String) : Option ReportLevel :=
  all.find? fun level => level.name == text

def severity? : ReportLevel → Option Severity
  | .off => none
  | .warning => some .warning
  | .error => some .error

end ReportLevel

/-- What is reported, how severely, and how much of it. -/
structure Options where
  /-- References to names that are not declared so far. -/
  unknownIdentifiers : ReportLevel := .off
  /-- Second declarations of a name in one scope. -/
  duplicateDeclarations : ReportLevel := .warning
  maxDiagnostics : Nat := 100
  deriving DecidableEq, Repr

namespace Options

/-- Reports every finding as an error. -/
def strict : Options where
  unknownIdentifiers := .error
  duplicateDeclarations := .error

end Options

end ComponentLang
