import ComponentLang.Proofs.Analysis.Reports
import ComponentLang.Proofs.Scan.Brackets
import ComponentLang.Proofs.Walk.Brackets

namespace ComponentLang

theorem Options.severity?_of_fault (options : Options) {cause : Cause}
    (fault : cause.concernsNames = false) :
    options.severity? cause = some .error := by
  cases cause with
  | duplicateDeclaration _ | unknownIdentifier _ => nomatch fault
  | _ => rfl

theorem faultless_of_not_hasErrors {options : Options} {text : String}
    (unlimited : options.Unlimited text)
    (accepted : (analyzeSource options text).hasErrors = false) :
    (Walk.document (fun _ => false) (scan text).tokens).2.Faultless := by
  intro finding member
  cases fault : finding.cause.concernsNames with
  | true => rfl
  | false =>
      have report_eq : options.report? finding =
          some (finding.diagnostic .error) := by
        rw [Options.report?, options.severity?_of_fault fault, Option.map_some]
      have reported := (mem_diagnostics_analyzeSource unlimited).mpr
        (.inr (Options.mem_walkReports_iff.mpr ⟨finding, member, report_eq⟩))
      have error := List.any_eq_false.mp accepted _ reported
      exact absurd rfl error

/-- If no error is reported on a text without triple quotes, whose reports are
all admitted, then its brackets are properly nested and matched. -/
theorem brackets_matched (options : Options) (text : String)
    (unquoted : ¬Scan.tripleQuote <:+: text.toList)
    (unlimited : options.Unlimited text)
    (accepted : (analyzeSource options text).hasErrors = false) :
    WellBracketed (scan text).tokens :=
  Walk.wellBracketed_of_faultless (Scan.bracketsAreOperators_scan unquoted)
    (faultless_of_not_hasErrors unlimited accepted)

def nestedBrackets : String :=
  "module M \x7b\nport p(a: T) # )\narray b = [[(1 + 2), \"]\"]] U8\n\x7d"

theorem brackets_matched_nestedBrackets :
    (analyzeSource {} nestedBrackets).hasErrors = false ∧
    WellBracketed (scan nestedBrackets).tokens := by
  have facts : ¬Scan.tripleQuote <:+: nestedBrackets.toList ∧
      Options.Unlimited {} nestedBrackets ∧
      (analyzeSource {} nestedBrackets).hasErrors = false := by
    decide +kernel
  obtain ⟨unquoted, unlimited, accepted⟩ := facts
  exact ⟨accepted, brackets_matched {} nestedBrackets unquoted unlimited
    accepted⟩

end ComponentLang
