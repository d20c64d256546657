import ComponentLang.Proofs.Analysis.SameReading

namespace ComponentLang

namespace Options

def lexicalReports (options : Options) (text : String) : List Diagnostic :=
  ((scan text).errors.map Finding.ofLexicalError).filterMap options.report?

/-- The reports on tokens, as they are made and whatever the limit. -/
def walkReports (options : Options) (tokens : List Token) : List Diagnostic :=
  (analyzeWhile options (fun _ => false) tokens).2.diagnostics

/-- The options admit every report on the text. -/
def Unlimited (options : Options) (text : String) : Prop :=
  (options.lexicalReports text).length +
    (options.walkReports (scan text).tokens).length ≤ options.maxDiagnostics

instance (options : Options) (text : String) :
    Decidable (options.Unlimited text) :=
  inferInstanceAs (Decidable (_ ≤ _))

theorem walkReports_eq (options : Options) (tokens : List Token) :
    options.walkReports tokens =
      (Walk.document (fun _ => false) tokens).2.diagnostics options := by
  rw [walkReports, analyzeWhile_eq_ofWalk]
  rfl

theorem mem_walkReports_iff {options : Options} {tokens : List Token}
    {diagnostic : Diagnostic} :
    diagnostic ∈ options.walkReports tokens ↔
      ∃ finding ∈ (Walk.document (fun _ => false) tokens).2.findings,
        options.report? finding = some diagnostic := by
  rw [walkReports_eq, Walk.diagnostics, List.mem_filterMap]
  simp only [List.mem_reverse]

theorem token_of_report? {options : Options} {finding : Finding}
    {diagnostic : Diagnostic}
    (report_eq : options.report? finding = some diagnostic) :
    diagnostic.token = finding.anchor := by
  obtain ⟨severity, -, rfl⟩ := Option.map_eq_some_iff.mp report_eq
  rfl

theorem code_of_report? {options : Options} {finding : Finding}
    {diagnostic : Diagnostic}
    (report_eq : options.report? finding = some diagnostic) :
    diagnostic.code = finding.cause.code := by
  obtain ⟨severity, -, rfl⟩ := Option.map_eq_some_iff.mp report_eq
  rfl

theorem severity_of_report? {options : Options} {finding : Finding}
    {diagnostic : Diagnostic}
    (report_eq : options.report? finding = some diagnostic) :
    options.severity? finding.cause = some diagnostic.severity := by
  obtain ⟨severity, severity_eq, rfl⟩ := Option.map_eq_some_iff.mp report_eq
  exact severity_eq

end Options

variable {options : Options} {text : String}

theorem diagnostics_analyze (tokens : List Token)
    (fits : (options.walkReports tokens).length ≤ options.maxDiagnostics) :
    (analyze options tokens).diagnostics = options.walkReports tokens := by
  rw [analyze_eq_ofWalk]
  change options.keep _ = _
  rw [options.keep_eq_take, ← options.walkReports_eq]
  exact List.take_of_length_le fits

theorem diagnostics_analyzeSource (unlimited : options.Unlimited text) :
    (analyzeSource options text).diagnostics =
      Diagnostic.sortByPosition (options.lexicalReports text ++
        options.walkReports (scan text).tokens) := by
  rw [analyzeSource_eq_ofWalk]
  change Diagnostic.sortByPosition (options.keep _) = _
  rw [options.keep_eq_take, ← options.walkReports_eq]
  congr 1
  apply List.take_of_length_le
  rw [List.length_append]
  exact unlimited

theorem of_mem_diagnostics {diagnostic : Diagnostic}
    (member : diagnostic ∈ (analyzeSource options text).diagnostics) :
    diagnostic ∈ options.lexicalReports text ∨
      diagnostic ∈ options.walkReports (scan text).tokens := by
  rw [analyzeSource_eq_ofWalk] at member
  have kept := StableSort.mem_sort.mp member
  rw [options.keep_eq_take, ← options.walkReports_eq] at kept
  exact List.mem_append.mp (List.mem_of_mem_take kept)

theorem mem_diagnostics_analyzeSource (unlimited : options.Unlimited text)
    {diagnostic : Diagnostic} :
    diagnostic ∈ (analyzeSource options text).diagnostics ↔
      diagnostic ∈ options.lexicalReports text ∨
        diagnostic ∈ options.walkReports (scan text).tokens := by
  rw [diagnostics_analyzeSource unlimited, Diagnostic.sortByPosition,
    StableSort.mem_sort, List.mem_append]

/-- But for its diagnostics, the analysis of a text is that of its tokens. -/
theorem analyzeSource_eq (options : Options) (text : String) :
    analyzeSource options text =
      { analyze options (scan text).tokens with
        diagnostics := (analyzeSource options text).diagnostics } := by
  rw [analyzeSource_eq_ofWalk, analyze_eq_ofWalk]
  rfl

end ComponentLang
