import ComponentLang.Check.Response
import ComponentLang.Proofs.Analysis.Reports

namespace ComponentLang

namespace Options

/-- Every report on a text, as they count when their number is limited. -/
def reports (options : Options) (text : String) : List Diagnostic :=
  options.lexicalReports text ++ options.walkReports (scan text).tokens

def reportsBeforeError (options : Options) (text : String) : Nat :=
  (options.reports text).findIdx Diagnostic.isError

def withLimit (options : Options) (limit : Nat) : Options :=
  { options with maxDiagnostics := limit }

theorem lexicalReports_withLimit (options : Options) (limit : Nat)
    (text : String) :
    (options.withLimit limit).lexicalReports text =
      options.lexicalReports text := rfl

theorem walkReports_withLimit (options : Options) (limit : Nat)
    (tokens : List Token) :
    (options.withLimit limit).walkReports tokens =
      options.walkReports tokens := by
  rw [walkReports_eq, walkReports_eq]
  rfl

theorem reports_withLimit (options : Options) (limit : Nat) (text : String) :
    (options.withLimit limit).reports text = options.reports text := by
  rw [reports, reports, lexicalReports_withLimit, walkReports_withLimit]

theorem isError_of_mem_reports {options : Options} {text : String}
    (unknown : options.unknownIdentifiers ≠ .warning)
    (duplicate : options.duplicateDeclarations ≠ .warning)
    {diagnostic : Diagnostic} (member : diagnostic ∈ options.reports text) :
    diagnostic.isError := by
  have error {finding : Finding}
      (report_eq : options.report? finding = some diagnostic) :
      diagnostic.isError := by
    have severity_eq := severity_of_report? report_eq
    rw [Diagnostic.isError, beq_iff_eq]
    unfold severity? at severity_eq
    split at severity_eq
    · cases level_eq : options.unknownIdentifiers <;>
        simp_all [ReportLevel.severity?]
    · cases level_eq : options.duplicateDeclarations <;>
        simp_all [ReportLevel.severity?]
    · exact (Option.some.inj severity_eq).symm
  rcases List.mem_append.mp member with lexical | walked
  · obtain ⟨finding, -, report_eq⟩ := List.mem_filterMap.mp lexical
    exact error report_eq
  · obtain ⟨finding, -, report_eq⟩ := mem_walkReports_iff.mp walked
    exact error report_eq

end Options

theorem hasErrors_eq_any_take (options : Options) (text : String) :
    (analyzeSource options text).hasErrors =
      ((options.reports text).take options.maxDiagnostics).any
        Diagnostic.isError := by
  rw [analyzeSource_eq_ofWalk]
  change (Diagnostic.sortByPosition (options.keep _)).any _ = _
  rw [options.keep_eq_take, ← options.walkReports_eq, Bool.eq_iff_iff,
    List.any_eq_true, List.any_eq_true]
  simp only [Diagnostic.sortByPosition, StableSort.mem_sort]
  rfl

/-- An analysis has errors when one of its reports is an error and the limit is
not used up before. -/
theorem hasErrors_iff {options : Options} {text : String} :
    (analyzeSource options text).hasErrors ↔
      (options.reports text).any Diagnostic.isError ∧
        options.reportsBeforeError text < options.maxDiagnostics := by
  have among (diagnostics : List Diagnostic) :
      diagnostics.any Diagnostic.isError ↔
        diagnostics.findIdx Diagnostic.isError < diagnostics.length := by
    rw [List.any_eq_true, List.findIdx_lt_length]
  rw [hasErrors_eq_any_take, among, among, List.findIdx_take, List.length_take,
    Options.reportsBeforeError]
  omega

theorem hasErrors_of_unlimited {options : Options} {text : String}
    (unlimited : options.Unlimited text) :
    (analyzeSource options text).hasErrors =
      (options.reports text).any Diagnostic.isError := by
  rw [hasErrors_eq_any_take, List.take_of_length_le]
  rw [Options.reports, List.length_append]
  exact unlimited

namespace Check

theorem status_respond {arguments : Arguments} {read : String → Option String}
    {input : Option String} {options : Options}
    {sources : List (String × String)}
    (decoded : arguments.options? read = some options)
    (readable : arguments.sources? read input = some sources) :
    (arguments.respond read input).status =
      if sources.any fun source => (analyzeSource options source.2).hasErrors
      then 1 else 0 := by
  rw [Arguments.respond, decoded, readable]
  simp only [List.any_map]
  rfl

/-- The exit status of a check of readable files is zero or one. It is one
exactly when the analysis of some file without a limit, at the same levels, has
an error in front of which fewer reports are made than the limit admits. If
nothing is reported as a warning, a limit other than zero makes no difference. -/
theorem status_eq_one_iff {arguments : Arguments}
    {read : String → Option String} {input : Option String} {options : Options}
    {sources : List (String × String)} {ample : Nat}
    (decoded : arguments.options? read = some options)
    (readable : arguments.sources? read input = some sources)
    (unlimited : ∀ source ∈ sources,
      (options.withLimit ample).Unlimited source.2) :
    ((arguments.respond read input).status = 0 ∨
      (arguments.respond read input).status = 1) ∧
    ((arguments.respond read input).status = 1 ↔
      ∃ source ∈ sources,
        (analyzeSource (options.withLimit ample) source.2).hasErrors ∧
          options.reportsBeforeError source.2 < options.maxDiagnostics) ∧
    (options.unknownIdentifiers ≠ .warning →
      options.duplicateDeclarations ≠ .warning → 0 < options.maxDiagnostics →
      ((arguments.respond read input).status = 1 ↔
        ∃ source ∈ sources,
          (analyzeSource (options.withLimit ample) source.2).hasErrors)) := by
  have failed_iff : (arguments.respond read input).status = 1 ↔
      ∃ source ∈ sources,
        (analyzeSource (options.withLimit ample) source.2).hasErrors ∧
          options.reportsBeforeError source.2 < options.maxDiagnostics := by
    have one_iff {failed : Bool} : (if failed then 1 else 0) = 1 ↔ failed := by
      cases failed <;> decide
    rw [status_respond decoded readable, one_iff, List.any_eq_true]
    refine exists_congr fun source => and_congr_right fun member => ?_
    rw [hasErrors_iff, hasErrors_of_unlimited (unlimited source member),
      options.reports_withLimit]
  refine ⟨?_, failed_iff, ?_⟩
  · rw [status_respond decoded readable]
    split
    · exact .inr rfl
    · exact .inl rfl
  · intro unknown duplicate positive
    rw [failed_iff]
    refine exists_congr fun source => and_congr_right fun member =>
      and_iff_left_of_imp fun errors => ?_
    rw [hasErrors_of_unlimited (unlimited source member),
      options.reports_withLimit, List.any_eq_true] at errors
    obtain ⟨diagnostic, made, -⟩ := errors
    -- Every report is an error, so the first one is.
    have first : options.reportsBeforeError source.2 = 0 := by
      unfold Options.reportsBeforeError
      cases reports_eq : options.reports source.2 with
      | nil => rfl
      | cons report rest =>
          have error : report.isError := by
            apply Options.isError_of_mem_reports unknown duplicate
            rw [reports_eq]
            exact List.mem_cons_self
          rw [List.findIdx_cons, error]
          rfl
    omega

def duplicateFirst : String :=
  "constant a = 1\nconstant a = 2\n;"

def sampleFiles : String → Option String
  | "o.json" => some "\x7b\"max_diagnostics\":1\x7d"
  | "a.fpp" => some duplicateFirst
  | _ => none

def oneKept : Arguments where
  config := some "o.json"
  files := ["a.fpp"]

theorem status_eq_one_iff_oneKept :
    Request.ofArguments ["-c", "o.json", "a.fpp"] = .check oneKept ∧
    ((oneKept.respond sampleFiles none).status = 1 ↔
      ∃ source ∈ [("a.fpp", duplicateFirst)],
        (analyzeSource (({ maxDiagnostics := 1 } : Options).withLimit 2)
            source.2).hasErrors ∧
          ({ maxDiagnostics := 1 } : Options).reportsBeforeError source.2 <
            1) := by
  have facts : Request.ofArguments ["-c", "o.json", "a.fpp"] = .check oneKept ∧
      oneKept.options? sampleFiles = some { maxDiagnostics := 1 } ∧
      oneKept.sources? sampleFiles none = some [("a.fpp", duplicateFirst)] ∧
      ∀ source ∈ [("a.fpp", duplicateFirst)],
        (({ maxDiagnostics := 1 } : Options).withLimit 2).Unlimited
          source.2 := by
    decide +kernel
  obtain ⟨asked, decoded, readable, unlimited⟩ := facts
  exact ⟨asked, (status_eq_one_iff decoded readable unlimited).2.1⟩

/-- The one report that is kept is the warning, so that the check succeeds,
though the file has an error. -/
theorem status_depends_on_limit :
    (Request.ofArguments ["-c", "o.json", "a.fpp"]).respond sampleFiles none =
      ⟨0, "a.fpp: warning[DuplicateDeclaration]:2:10: Duplicate declaration: " ++
        "`a` is already declared in `<global>` as Variable\n" ++
        "  constant a = 2\n           ^\na.fpp: 0 error(s), 1 warning(s)\n"⟩ ∧
    oneKept.options? sampleFiles = some { maxDiagnostics := 1 } ∧
    (({ maxDiagnostics := 1 } : Options).withLimit 2).Unlimited
      duplicateFirst ∧
    (analyzeSource (({ maxDiagnostics := 1 } : Options).withLimit 2)
      duplicateFirst).hasErrors := by
  decide +kernel

end Check

end ComponentLang
