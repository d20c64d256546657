import ComponentLang.Proofs.Scan.Categories
import ComponentLang.Proofs.Token.Brackets

namespace ComponentLang.Scan

theorem bracketIsOperator_of_sign {sign : Char} {token : Token}
    (marks : sign ∈ ['"', '#', '@'])
    (begins : token.text.toList.head? = some sign) :
    token.BracketIsOperator := by
  have others : ∀ bracket : Bracket,
      (bracket.opener.spelling.toList.head? == some sign) = false ∧
        (bracket.closer.spelling.toList.head? == some sign) = false := by
    intro bracket
    simp only [List.mem_cons, List.not_mem_nil, or_false] at marks
    rcases marks with rfl | rfl | rfl <;> cases bracket <;> decide
  have spelled := beq_iff_eq.mpr begins
  intro opened
  rw [token.read_of_test (·.toList.head? == some sign) others spelled,
    Bracket.read_of_test (·.toList.head? == some sign) others spelled]

theorem bracketIsOperator_of_lexicalKind {token : Token}
    (kind_eq : token.kind = lexicalKind token.text) :
    token.BracketIsOperator := by
  intro opened
  unfold Token.read
  split
  · rfl
  · next other =>
      rw [kind_eq] at other
      refine (Bracket.read_of_test (fun text => lexicalKind text != .operator)
        (fun bracket => ?_) ?_ opened).symm
      · cases bracket <;> decide +kernel
      · exact bne_iff_ne.mpr fun operator => other (beq_iff_eq.mpr operator)

theorem bracketIsOperator_of_isCategorized {token : Token}
    (categorized : token.IsCategorized) : token.BracketIsOperator := by
  unfold Token.IsCategorized category at categorized
  split at categorized
  · next begins => exact bracketIsOperator_of_sign (by simp) begins
  · next begins => exact bracketIsOperator_of_sign (by simp) begins
  · next begins => exact bracketIsOperator_of_sign (by simp) begins
  · exact bracketIsOperator_of_lexicalKind categorized

/-- In a text without triple quotes all brackets are operators. -/
theorem bracketsAreOperators_scan {text : String}
    (unquoted : ¬tripleQuote <:+: text.toList) :
    BracketsAreOperators (scan text).tokens :=
  fun token member =>
    bracketIsOperator_of_isCategorized (isCategorized_scan unquoted token member)

end ComponentLang.Scan
