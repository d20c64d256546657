import ComponentLang.Proofs.Analysis.Highlights
import ComponentLang.Proofs.Analysis.SameReading
import ComponentLang.Proofs.Walk.Rereading

namespace ComponentLang

def Diagnostic.unclassified (diagnostic : Diagnostic) : Diagnostic :=
  { diagnostic with token := diagnostic.token.reclassify .nil {} }

theorem Finding.Retold.diagnostic {first second : Finding}
    (retold : Finding.Retold first second) (severity : Severity) :
    (first.diagnostic severity).unclassified =
      (second.diagnostic severity).unclassified := by
  obtain ⟨line, column, text⟩ := Token.site_eq_iff.mp retold.site
  have suggestion := retold.suggestion
  rw [retold.cause] at suggestion
  simp only [Diagnostic.unclassified, Finding.diagnostic, Token.reclassify,
    retold.cause, suggestion, line, column, text]

theorem Walk.Told.diagnostics {walk again : Walk} (told : Told walk again)
    (options : Options) :
    (options.keep (again.diagnostics options)).map Diagnostic.unclassified =
      (options.keep (walk.diagnostics options)).map Diagnostic.unclassified := by
  have kept : List.Forall₂
      (fun left right => Diagnostic.unclassified left = right.unclassified)
      (options.keep (walk.diagnostics options))
      (options.keep (again.diagnostics options)) :=
    options.keep_rel (Walk.diagnostics_rel options
      (told.findings.imp fun _ _ retold =>
        ⟨congrArg Cause.code retold.cause, retold.diagnostic⟩))
  rw [← List.forall₂_eq_eq_eq, List.forall₂_map_left_iff,
    List.forall₂_map_right_iff]
  exact kept.flip.imp fun _ _ => Eq.symm

/-- A second analysis leaves everything as the first one left it, and reports
the same, on tokens that are classified by then. -/
theorem analyze_analyzed (options : Options) (text : String) :
    let analysis := analyze options (scan text).tokens
    let again := analyze options analysis.tokens
    again = { analysis with diagnostics := again.diagnostics } ∧
      again.diagnostics.map Diagnostic.unclassified =
        analysis.diagnostics.map Diagnostic.unclassified := by
  obtain ⟨whole, told⟩ := Walk.document_reread (Scan.lexical_scan text)
  simp only [analyze_eq_ofWalk, Analysis.ofWalk]
  rw [whole, told.classified, told.symbols, told.scopes, told.resets]
  exact ⟨rfl, told.diagnostics options⟩

end ComponentLang
