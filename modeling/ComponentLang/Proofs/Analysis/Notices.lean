import ComponentLang.Proofs.Analysis.Reports
import ComponentLang.Proofs.Diagnostic.Sorting
import ComponentLang.Proofs.Walk.Shift

namespace ComponentLang

namespace Notice

def sort (notices : List Notice) : List Notice :=
  StableSort.sort (fun first second => first.position.le second.position)
    notices

theorem filter_sort (among : Notice → Bool) (notices : List Notice) :
    (sort notices).filter among = sort (notices.filter among) :=
  StableSort.filter_sort_by position among notices

theorem sort_map_shift (count : Nat) (notices : List Notice) :
    sort (notices.map (shift count)) = (sort notices).map (shift count) := by
  have same (first second : Notice) :
      (first.shift count).position.le (second.shift count).position =
        first.position.le second.position := by
    rw [Bool.eq_iff_iff, Position.le_iff, Position.le_iff]
    simp [position, shift]
  have sorted := StableSort.map_sort
    (fun first second : Notice => first.position.le second.position)
    (shift count) notices
  simp only [same] at sorted
  exact sorted.symm

end Notice

def Diagnostic.notices (diagnostics : List Diagnostic) : List Notice :=
  (diagnostics.filter fun diagnostic => !diagnostic.code.concernsNames).map
    Diagnostic.notice

theorem Diagnostic.notices_sortByPosition (diagnostics : List Diagnostic) :
    notices (sortByPosition diagnostics) =
      Notice.sort (notices diagnostics) := by
  rw [notices, sortByPosition, StableSort.filter_sort_by position]
  exact StableSort.map_sort
    (fun first second : Notice => first.position.le second.position)
    Diagnostic.notice _

namespace Options

/-- Whatever the options, findings that do not concern names are errors. -/
theorem report?_of_grammar (options : Options) {finding : Finding}
    (grammar : finding.cause.code.concernsNames = false) :
    options.report? finding = some (finding.diagnostic .error) := by
  obtain ⟨cause, anchor⟩ := finding
  cases cause <;> first | rfl | nomatch grammar

theorem notices_report? (options : Options) (findings : List Finding) :
    Diagnostic.notices (findings.filterMap options.report?) =
      Finding.notices findings := by
  induction findings with
  | nil => rfl
  | cons finding rest induction =>
      rw [List.filterMap_cons, Finding.notices, List.filter_cons]
      cases names : finding.concernsNames with
      | true =>
          rw [if_neg (by simp), ← Finding.notices, ← induction]
          split
          · rfl
          · next diagnostic report_eq =>
              have code := code_of_report? report_eq
              change finding.cause.code.concernsNames = true at names
              rw [← code] at names
              rw [Diagnostic.notices, List.filter_cons_of_neg (by simp [names])]
              rfl
      | false =>
          rw [options.report?_of_grammar names, if_pos (by simp),
            List.map_cons, ← Finding.notices, ← induction]
          simp only
          rw [Diagnostic.notices, List.filter_cons_of_pos]
          · rfl
          · change (!finding.cause.code.concernsNames) = true
            rw [show finding.cause.code.concernsNames = false from names]
            rfl

end Options

def findings (text : String) : List Finding :=
  (scan text).errors.map Finding.ofLexicalError ++
    (Walk.document (fun _ => false) (scan text).tokens).2.findings.reverse

theorem notices_analyzeSource {options : Options} {text : String}
    (unlimited : options.Unlimited text) :
    Diagnostic.notices (analyzeSource options text).diagnostics =
      Notice.sort (Finding.notices (findings text)) := by
  rw [diagnostics_analyzeSource unlimited, Diagnostic.notices_sortByPosition,
    Options.walkReports_eq, Options.lexicalReports, Walk.diagnostics,
    ← List.filterMap_append, Options.notices_report?]
  rfl

end ComponentLang
