import ComponentLang.Proofs.Analysis.Notices
import ComponentLang.Proofs.Check.ExitStatus
import ComponentLang.Proofs.Visitor.Indifference

namespace ComponentLang

namespace Options

/-- The severity of reports with a code, unless there are none. -/
def severityOf? (options : Options) : DiagnosticCode → Option Severity
  | .unknownIdentifier => options.unknownIdentifiers.severity?
  | .duplicateDeclaration => options.duplicateDeclarations.severity?
  | _ => some .error

/-- The report as the options make it. -/
def admit? (options : Options) (diagnostic : Diagnostic) : Option Diagnostic :=
  (options.severityOf? diagnostic.code).map fun severity =>
    { diagnostic with severity }

def regrade (options : Options) (diagnostic : Diagnostic) : Diagnostic :=
  { diagnostic with
    severity :=
      (options.severityOf? diagnostic.code).getD diagnostic.severity }

theorem severity?_eq_severityOf? (options : Options) (cause : Cause) :
    options.severity? cause = options.severityOf? cause.code := by
  cases cause <;> rfl

theorem severityOf?_of_grammar (options : Options) {code : DiagnosticCode}
    (grammar : code.concernsNames = false) :
    options.severityOf? code = some .error := by
  cases code <;> first | rfl | cases grammar

theorem report?_strict (finding : Finding) :
    Options.strict.report? finding = some (finding.diagnostic .error) := by
  obtain ⟨cause, anchor⟩ := finding
  cases cause <;> rfl

theorem report?_eq_admit? (options : Options) (finding : Finding) :
    options.report? finding = options.admit? (finding.diagnostic .error) := by
  rw [report?, severity?_eq_severityOf?]
  rfl

/-- Every list of reports is made from the strict one, entry by entry. -/
theorem walkReports_eq_filterMap (options : Options) (tokens : List Token) :
    options.walkReports tokens =
      (Options.strict.walkReports tokens).filterMap options.admit? := by
  simp only [walkReports_eq, Walk.diagnostics, List.filterMap_filterMap,
    report?_strict, Option.bind_some]
  congr 1
  funext finding
  exact options.report?_eq_admit? finding

theorem severityOf?_of_mem_walkReports {options : Options}
    {tokens : List Token} {diagnostic : Diagnostic}
    (member : diagnostic ∈ options.walkReports tokens) :
    options.severityOf? diagnostic.code = some diagnostic.severity := by
  rw [walkReports_eq_filterMap] at member
  obtain ⟨strict, -, admitted⟩ := List.mem_filterMap.mp member
  obtain ⟨severity, severity_eq, rfl⟩ := Option.map_eq_some_iff.mp admitted
  exact severity_eq

theorem filter_walkReports (first second : Options) (tokens : List Token) :
    (first.walkReports tokens).filter
        (fun diagnostic => !diagnostic.code.concernsNames) =
      (second.walkReports tokens).filter
        fun diagnostic => !diagnostic.code.concernsNames := by
  have among (options : Options) (diagnostic : Diagnostic) :
      (options.admit? diagnostic).filter
          (fun diagnostic => !diagnostic.code.concernsNames) =
        if diagnostic.code.concernsNames then none
        else some { diagnostic with severity := .error } := by
    unfold admit?
    split
    · next names =>
        cases options.severityOf? diagnostic.code <;> simp [names]
    · next grammar =>
        rw [options.severityOf?_of_grammar (Bool.eq_false_iff.mpr grammar)]
        simp [grammar]
  rw [first.walkReports_eq_filterMap, second.walkReports_eq_filterMap,
    List.filter_filterMap, List.filter_filterMap]
  simp only [among]

theorem walkReports_eq_map {first second : Options}
    (same : ∀ code, first.severityOf? code = none ↔
      second.severityOf? code = none) (tokens : List Token) :
    second.walkReports tokens =
      (first.walkReports tokens).map second.regrade := by
  rw [first.walkReports_eq_filterMap, second.walkReports_eq_filterMap,
    List.map_filterMap]
  congr 1
  funext diagnostic
  have here := same diagnostic.code
  simp only [admit?, Option.map_map]
  cases first_eq : first.severityOf? diagnostic.code with
  | none => rw [here.mp first_eq]; rfl
  | some severity =>
      cases second_eq : second.severityOf? diagnostic.code with
      | none => rw [here.mpr second_eq] at first_eq; cases first_eq
      | some other => simp [regrade, second_eq]

theorem severityOf?_congr {first second : Options}
    (unknown : first.unknownIdentifiers = .off ↔
      second.unknownIdentifiers = .off)
    (duplicate : first.duplicateDeclarations = .off ↔
      second.duplicateDeclarations = .off) (code : DiagnosticCode) :
    first.severityOf? code = none ↔ second.severityOf? code = none := by
  have off_iff (level : ReportLevel) :
      level.severity? = none ↔ level = .off := by
    cases level <;> simp [ReportLevel.severity?]
  cases code with
  | unknownIdentifier => exact (off_iff _).trans (unknown.trans (off_iff _).symm)
  | duplicateDeclaration =>
      exact (off_iff _).trans (duplicate.trans (off_iff _).symm)
  | _ => exact Iff.rfl

end Options

/-- From any state on, visitors make the same steps under different options, and
leave the same behind but for what they report. So two analyses of the same
tokens agree in all but their diagnostics. These are the first reports, as many
as the limit admits, of a list that is one and the same but for the reports about
names: a level that is off leaves out those of its code, and another level
changes nothing but their severity. -/
theorem options_filter_reports (first second : Options)
    (tokens : List Token) :
    (∀ depth procedure (visitor : Visitor) sink,
      Visitor.Agree (visitor.run depth procedure)
        ({ visitor with options := second, sink }.run depth procedure)) ∧
    analyze second tokens =
      { analyze first tokens with
        diagnostics := (analyze second tokens).diagnostics } ∧
    (first.walkReports tokens).filter
        (fun diagnostic => !diagnostic.code.concernsNames) =
      (second.walkReports tokens).filter
        (fun diagnostic => !diagnostic.code.concernsNames) ∧
    (first.unknownIdentifiers = .off →
      ∀ diagnostic ∈ first.walkReports tokens,
        diagnostic.code ≠ .unknownIdentifier) ∧
    (first.duplicateDeclarations = .off →
      ∀ diagnostic ∈ first.walkReports tokens,
        diagnostic.code ≠ .duplicateDeclaration) ∧
    ((first.unknownIdentifiers = .off ↔ second.unknownIdentifiers = .off) →
      (first.duplicateDeclarations = .off ↔
        second.duplicateDeclarations = .off) →
      second.walkReports tokens =
        (first.walkReports tokens).map second.regrade) ∧
    ∀ limit, (analyze (first.withLimit limit) tokens).diagnostics =
      (first.walkReports tokens).take limit := by
  refine ⟨fun depth procedure visitor sink =>
      Visitor.agree_run depth procedure (.intro second sink),
    analyze_eq_with_diagnostics first second tokens,
    first.filter_walkReports second tokens, ?unknown, ?duplicate, ?graded,
    ?cut⟩
  case unknown =>
    intro off diagnostic member code_eq
    have made := Options.severityOf?_of_mem_walkReports member
    rw [code_eq, Options.severityOf?, off] at made
    cases made
  case duplicate =>
    intro off diagnostic member code_eq
    have made := Options.severityOf?_of_mem_walkReports member
    rw [code_eq, Options.severityOf?, off] at made
    cases made
  case graded =>
    intro unknown duplicate
    exact Options.walkReports_eq_map
      (Options.severityOf?_congr unknown duplicate) tokens
  case cut =>
    intro limit
    rw [analyze_eq_ofWalk, ← first.walkReports_withLimit limit,
      Options.walkReports_eq]
    exact (first.withLimit limit).keep_eq_take _

def strayNames : String :=
  "constant a = b\nconstant a = 1\n;"

theorem options_filter_reports_strayNames :
    Options.strict.walkReports (scan strayNames).tokens =
      (({ unknownIdentifiers := .warning } : Options).walkReports
        (scan strayNames).tokens).map Options.strict.regrade ∧
    (({ unknownIdentifiers := .warning } : Options).walkReports
      (scan strayNames).tokens).map Diagnostic.severity =
      [.warning, .warning, .error] ∧
    ∀ diagnostic ∈ ({} : Options).walkReports (scan strayNames).tokens,
      diagnostic.code ≠ .unknownIdentifier := by
  obtain ⟨-, -, -, -, -, graded, -⟩ := options_filter_reports
    { unknownIdentifiers := .warning } .strict (scan strayNames).tokens
  obtain ⟨-, -, -, unknown, -⟩ := options_filter_reports {} {}
    (scan strayNames).tokens
  exact ⟨graded (by decide) (by decide), by decide +kernel, unknown rfl⟩

end ComponentLang
