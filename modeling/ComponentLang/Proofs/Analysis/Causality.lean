import ComponentLang.Proofs.Scan.Append
import ComponentLang.Proofs.Visitor.Documents
import ComponentLang.Proofs.Walk.Causality

namespace ComponentLang

theorem Analysis.filter_of_account {first second : Walk} {count : Nat}
    (same : first.account count = second.account count)
    (diagnostics others : List Diagnostic) :
    (ofWalk first diagnostics).tokens.filter (fun token => token.line < count) =
      (ofWalk second others).tokens.filter (fun token => token.line < count) ∧
    (ofWalk first diagnostics).classified.filter
        (fun token => token.line < count) =
      (ofWalk second others).classified.filter
        (fun token => token.line < count) ∧
    (ofWalk first diagnostics).symbols.filter
        (fun symbol => symbol.line < count) =
      (ofWalk second others).symbols.filter
        (fun symbol => symbol.line < count) := by
  refine ⟨congrArg Walk.Account.tokens same, ?_,
    congrArg Walk.Account.symbols same⟩
  simp only [ofWalk, List.filter_reverse]
  exact congrArg List.reverse (congrArg Walk.Account.classified same)

/-- Texts that agree on their first lines have the same tokens there. The
analysis gives these the same kinds and modifiers, and finds the same symbols
declared among them. -/
theorem first_lines_decide (options : Options) {first second : String}
    {count : Nat}
    (same : (Text.lines first.toList).take count =
      (Text.lines second.toList).take count) :
    (scan first).tokens.filter (fun token => token.line < count) =
      (scan second).tokens.filter (fun token => token.line < count) ∧
    (analyzeSource options first).tokens.filter
        (fun token => token.line < count) =
      (analyzeSource options second).tokens.filter
        (fun token => token.line < count) ∧
    (analyzeSource options first).classified.filter
        (fun token => token.line < count) =
      (analyzeSource options second).classified.filter
        (fun token => token.line < count) ∧
    (analyzeSource options first).symbols.filter
        (fun symbol => symbol.line < count) =
      (analyzeSource options second).symbols.filter
        (fun symbol => symbol.line < count) := by
  obtain ⟨front, left, right, first_eq, second_eq, early, left_late,
    right_late⟩ := Scan.exists_scan_of_take_eq same
  have none_early {others : List Token}
      (late : ∀ token ∈ others, count ≤ token.line) :
      others.filter (fun token => token.line < count) = [] := by
    rw [List.filter_eq_nil_iff]
    intro token member
    simpa using late token member
  rw [analyzeSource_eq_ofWalk, analyzeSource_eq_ofWalk]
  refine ⟨?_, Analysis.filter_of_account ?_ _ _⟩
  · rw [first_eq, second_eq, List.filter_append, List.filter_append,
      none_early left_late, none_early right_late]
  · simp only [first_eq, second_eq]
    exact Walk.account_document early left_late right_late

def openModule : String :=
  "module M \x7b\nconstant a = b +"

def closedModule : String :=
  "module M \x7b\nconstant a = b +\n1 \x7d\nconstant b = a \"\"\"\n\x7d"

theorem first_lines_decide_openModule :
    (Text.lines openModule.toList).take 2 =
      (Text.lines closedModule.toList).take 2 ∧
    (analyzeSource .strict closedModule).classified.filter
        (fun token => token.line < 2) =
      (analyzeSource .strict openModule).classified ∧
    (analyzeSource .strict openModule).classified.length = 2 := by
  have facts : (Text.lines openModule.toList).take 2 =
        (Text.lines closedModule.toList).take 2 ∧
      (analyzeSource .strict openModule).classified.filter
          (fun token => token.line < 2) =
        (analyzeSource .strict openModule).classified ∧
      (analyzeSource .strict openModule).classified.length = 2 := by
    decide +kernel
  obtain ⟨same, whole, two⟩ := facts
  obtain ⟨-, -, classified, -⟩ := first_lines_decide .strict same
  exact ⟨same, classified.symm.trans whole, two⟩

end ComponentLang
