import ComponentLang.Proofs.Analysis.DocumentOrder
import ComponentLang.Proofs.Scan.Words
import ComponentLang.Proofs.Walk.Highlights

namespace ComponentLang

/-- What an analysis makes of a scanned token. -/
structure Token.HighlightOf (scanned token : Token) : Prop where
  line : token.line = scanned.line
  column : token.column = scanned.column
  length : token.length = scanned.length
  text : token.text = scanned.text
  plain : token.kind.isSemantic = false →
    token.kind = scanned.kind ∧ token.modifiers = {}
  settled : scanned.isSettled → token = scanned

theorem Token.Becomes.highlightOf {scanned token : Token}
    (becomes : scanned.Becomes token) (lexical : Scan.IsLexical scanned) :
    scanned.HighlightOf token := by
  cases becomes with
  | same => exact ⟨rfl, rfl, rfl, rfl, fun _ => ⟨rfl, lexical.modifiers⟩, fun _ => rfl⟩
  | classified _ identifier semantic =>
      refine ⟨rfl, rfl, rfl, rfl, fun plain => ?_, fun settled => ?_⟩
      · exact absurd semantic (Bool.eq_false_iff.mp plain)
      · exact absurd settled
          (Bool.eq_false_iff.mp (lexical.unsettled identifier))

namespace Scan

theorem lexical_scan (text : String) :
    Walk.Highlights.Lexical (scan text).tokens :=
  fun _ => isLexical_of_mem_scan

end Scan

theorem becomes_analyze (options : Options) (text : String) :
    List.Forall₂ Token.Becomes (scan text).tokens
      (analyze options (scan text).tokens).tokens := by
  rw [tokens_analyze]
  exact (Walk.highlights_document _ (Scan.lexical_scan text)).1

/-- The classified tokens are those with a semantic kind, in document order and
without repetition. The others are as they were scanned. -/
theorem classified_eq_filter_tokens (options : Options) (text : String) :
    let scanned := (scan text).tokens
    let analysis := analyze options scanned
    List.Forall₂ Token.HighlightOf scanned analysis.tokens ∧
      analysis.classified =
        analysis.tokens.filter (fun token => token.kind.isSemantic) ∧
      analysis.classified.Pairwise
        (fun first second => first.start < second.start) ∧
      analysis.classified.Nodup := by
  intro scanned analysis
  have became := becomes_analyze options text
  have classified_eq : analysis.classified =
      analysis.tokens.filter fun token => token.kind.isSemantic := by
    simp only [analysis, scanned, classified_analyze, tokens_analyze]
    exact (Walk.highlights_document _ (Scan.lexical_scan text)).2
  have ascends : analysis.classified.Pairwise fun first second =>
      first.start < second.start := by
    have ordered := Token.pairwise_before_of_sites
      (Token.Becomes.map_site became) (Scan.before_scan text)
    rw [classified_eq]
    exact (ordered.imp Token.Before.start_lt).filter _
  refine ⟨?_, classified_eq, ascends, ?_⟩
  · exact ((List.forall₂_and_left _ _).mpr ⟨Scan.lexical_scan text, became⟩).imp
      fun _ _ ⟨lexical, becomes⟩ => becomes.highlightOf lexical
  · refine ascends.imp fun before same => ?_
    rw [same] at before
    exact Position.not_lt.mpr (Position.le_refl _) before

end ComponentLang
