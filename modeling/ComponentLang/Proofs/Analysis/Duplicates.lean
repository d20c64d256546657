import ComponentLang.Proofs.Analysis.DocumentOrder
import ComponentLang.Proofs.Diagnostic.Sorting
import ComponentLang.Proofs.Walk.Occurrences

namespace ComponentLang

/-- What is reported of an occurrence that duplicates an earlier one. -/
def Occurrence.report (severity : Severity) (later first : Occurrence) :
    Diagnostic where
  severity
  code := .duplicateDeclaration
  message := "Duplicate declaration: " ++
    ("`" ++ first.name ++ "` is already declared in `" ++
      scopePath first.scopes ++ "` as " ++ first.kind.name)
  token := later.token
  suggestion := none

namespace Options

variable {options : Options} {severity : Severity}

theorem report?_duplicate
    (enabled : options.duplicateDeclarations.severity? = some severity)
    (pair : Occurrence × Occurrence) :
    options.report? (Occurrence.finding pair) =
      some (pair.1.report severity pair.2) := by
  have severity_eq : options.severity? (Occurrence.finding pair).cause =
      some severity := enabled
  rw [report?, severity_eq]
  rfl

theorem filter_report?_duplicate (options : Options) (findings : List Finding) :
    (findings.filterMap options.report?).filter
        (fun diagnostic => diagnostic.code == .duplicateDeclaration) =
      (findings.filter Finding.isDuplicate).filterMap options.report? := by
  rw [List.filter_filterMap, List.filterMap_filter]
  congr 1
  funext finding
  cases report_eq : options.report? finding with
  | none => simp
  | some diagnostic =>
      rw [Option.filter_some, code_of_report? report_eq]
      rfl

theorem filter_lexicalReports (options : Options) (text : String) :
    (options.lexicalReports text).filter
      (fun diagnostic => diagnostic.code == .duplicateDeclaration) = [] := by
  rw [lexicalReports, filter_report?_duplicate, List.filter_eq_nil_iff.mpr]
  · rfl
  · intro finding member
    obtain ⟨error, -, rfl⟩ := List.mem_map.mp member
    exact Bool.false_ne_true

theorem filter_walkReports_duplicate
    (enabled : options.duplicateDeclarations.severity? = some severity)
    (tokens : List Token) :
    (options.walkReports tokens).filter
        (fun diagnostic => diagnostic.code == .duplicateDeclaration) =
      (Occurrence.duplicates (Walk.occurrences tokens)).map fun pair =>
        pair.1.report severity pair.2 := by
  rw [walkReports_eq, Walk.diagnostics, filter_report?_duplicate,
    Walk.filter_findings_document, List.filterMap_map]
  have reported : options.report? ∘ Occurrence.finding =
      some ∘ fun pair => pair.1.report severity pair.2 :=
    funext fun pair => report?_duplicate enabled pair
  rw [reported, List.filterMap_eq_map]

end Options

section Reports

variable {options : Options} {text : String} {severity : Severity}

theorem filter_diagnostics_duplicate
    (enabled : options.duplicateDeclarations.severity? = some severity)
    (unlimited : options.Unlimited text) :
    (analyzeSource options text).diagnostics.filter
        (fun diagnostic => diagnostic.code == .duplicateDeclaration) =
      (Occurrence.duplicates (Walk.occurrences (scan text).tokens)).map
        fun pair => pair.1.report severity pair.2 := by
  rw [diagnostics_analyzeSource unlimited, Diagnostic.sortByPosition,
    StableSort.filter_sort_by, List.filter_append,
    options.filter_lexicalReports, List.nil_append, StableSort.sort_of_pairwise,
    Options.filter_walkReports_duplicate enabled]
  exact (options.walkReports_ordered text).filter _

theorem nodup_occurrences (text : String) :
    ((Walk.occurrences (scan text).tokens).map Occurrence.token).Nodup := by
  have distinct : (scan text).tokens.Nodup := by
    refine (Scan.before_scan text).imp ?_
    rintro token _ before rfl
    have later := before.start_lt
    rw [Position.lt_def] at later
    omega
  exact distinct.sublist (Walk.occurrences_sublist _)

theorem reported_iff
    (enabled : options.duplicateDeclarations.severity? = some severity)
    (unlimited : options.Unlimited text) {earlier later : List Occurrence}
    {occurrence : Occurrence}
    (here : Walk.occurrences (scan text).tokens =
      earlier ++ occurrence :: later) (diagnostic : Diagnostic) :
    (diagnostic ∈ (analyzeSource options text).diagnostics ∧
      diagnostic.code = .duplicateDeclaration ∧
      diagnostic.token = occurrence.token) ↔
    ∃ first, earlier.find? occurrence.meets = some first ∧
      occurrence.reopens first = false ∧
      diagnostic = occurrence.report severity first := by
  have reports := filter_diagnostics_duplicate enabled unlimited
  have distinct := nodup_occurrences text
  constructor
  · rintro ⟨member, code_eq, token_eq⟩
    have among : diagnostic ∈ (analyzeSource options text).diagnostics.filter
        fun diagnostic => diagnostic.code == .duplicateDeclaration :=
      List.mem_filter.mpr ⟨member, beq_iff_eq.mpr code_eq⟩
    rw [reports] at among
    obtain ⟨⟨other, first⟩, pair_mem, rfl⟩ := List.mem_map.mp among
    obtain ⟨front, back, there, duplicated⟩ :=
      Occurrence.mem_duplicates.mp pair_mem
    obtain ⟨rfl, rfl⟩ := eq_of_split_eq distinct there here token_eq
    obtain ⟨found, fresh⟩ := Option.filter_eq_some_iff.mp duplicated
    exact ⟨first, found, by simpa using fresh, rfl⟩
  · rintro ⟨first, found, fresh, rfl⟩
    have duplicated : occurrence.duplicated? earlier = some first :=
      Option.filter_eq_some_iff.mpr ⟨found, by simpa using fresh⟩
    have among : occurrence.report severity first ∈
        (analyzeSource options text).diagnostics.filter
          fun diagnostic => diagnostic.code == .duplicateDeclaration := by
      rw [reports]
      exact List.mem_map.mpr ⟨(occurrence, first),
        Occurrence.mem_duplicates.mpr ⟨earlier, later, here, duplicated⟩, rfl⟩
    exact ⟨(List.mem_filter.mp among).1, rfl, rfl⟩

end Reports

/-- Names are defined at tokens of a text, in their order. What is reported of
duplicates is, in the same order, each occurrence that meets an earlier one of
its name in its scopes, with the first that it meets, unless both are modules;
so an occurrence is reported exactly when there is such a first one, where it
stands and as a duplicate of that one. -/
theorem duplicates_reported (options : Options) (text : String)
    (severity : Severity)
    (enabled : options.duplicateDeclarations.severity? = some severity)
    (unlimited : options.Unlimited text) :
    ((Walk.occurrences (scan text).tokens).map Occurrence.token).Sublist
      (scan text).tokens ∧
    (analyzeSource options text).diagnostics.filter
        (fun diagnostic => diagnostic.code == .duplicateDeclaration) =
      (Occurrence.duplicates (Walk.occurrences (scan text).tokens)).map
        (fun pair => pair.1.report severity pair.2) ∧
    ∀ earlier occurrence later,
      Walk.occurrences (scan text).tokens = earlier ++ occurrence :: later →
        ∀ diagnostic : Diagnostic,
          (diagnostic ∈ (analyzeSource options text).diagnostics ∧
            diagnostic.code = .duplicateDeclaration ∧
            diagnostic.token = occurrence.token) ↔
          ∃ first, earlier.find? occurrence.meets = some first ∧
            occurrence.reopens first = false ∧
            diagnostic = occurrence.report severity first := by
  refine ⟨Walk.occurrences_sublist _, ?_, ?_⟩
  · exact filter_diagnostics_duplicate enabled unlimited
  · intro earlier occurrence later here diagnostic
    exact reported_iff enabled unlimited here diagnostic

def reopened : String :=
  "module M \x7b constant a = 1 \x7d
module M \x7b type $a \x7d
port P(a: U8, ref a: F32)
constant P = 3
constant M = 4"

theorem duplicates_reported_reopened :
    ReportLevel.severity? .error = some .error ∧
    Options.Unlimited .strict reopened ∧
    ((Occurrence.duplicates (Walk.occurrences (scan reopened).tokens)).map
      fun pair => ((pair.1.report .error pair.2).place,
        (pair.1.report .error pair.2).message)) =
      [("2:17", "Duplicate declaration: `a` is already declared in `M` as Variable"),
        ("3:19", "Duplicate declaration: `a` is already declared in `P` as Parameter"),
        ("4:10", "Duplicate declaration: `P` is already declared in `<global>` as Port"),
        ("5:10", "Duplicate declaration: `M` is already declared in `<global>` as Namespace")] ∧
    (analyzeSource .strict reopened).diagnostics.filter
        (fun diagnostic => diagnostic.code == .duplicateDeclaration) =
      (Occurrence.duplicates (Walk.occurrences (scan reopened).tokens)).map
        fun pair => pair.1.report .error pair.2 := by
  refine ⟨rfl, and_assoc.mp ((and_iff_left_of_imp fun facts => ?_).mpr ?_)⟩
  · exact (duplicates_reported .strict reopened .error rfl facts.1).2.1
  · decide +kernel

end ComponentLang
