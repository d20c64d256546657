import ComponentLang.Proofs.Analysis.DocumentOrder
import ComponentLang.Proofs.Scan.Kinds
import ComponentLang.Proofs.Syntax.Beginnings
import ComponentLang.Proofs.Walk.Trivia

namespace ComponentLang

theorem Terminal.head?_spelling_ne {terminal : Terminal}
    (meant : terminal.isMeaningful) :
    terminal.spelling.toList.head? ∉ [some '#', some '@', some '\\'] := by
  cases terminal with
  | keyword word => cases word <;> decide +kernel
  | operator sign =>
      cases sign with
      | backslash => nomatch meant
      | _ => decide +kernel

theorem Token.isSilent_of_head? {token : Token}
    (begins : token.text.toList.head? ∈ [some '#', some '@', some '\\']) :
    token.IsSilent := by
  intro terminal meant spelled
  rw [spelled] at begins
  exact terminal.head?_spelling_ne meant begins

namespace Scan

theorem text_of_lexicalKind {token : Token}
    (lexical : token.kind = lexicalKind token.text) (trivia : token.isTrivia) :
    token.text = "\\" := by
  have among := lexicalKind_mem token.text
  rw [← lexical] at among
  rw [Token.isTrivia] at trivia
  generalize token.kind = kind at among trivia
  simp only [List.mem_cons, List.not_mem_nil, or_false] at among
  rcases among with rfl | rfl | rfl | rfl | rfl
  case inr.inr.inl => exact beq_iff_eq.mp trivia
  all_goals cases trivia

theorem head?_of_isTrivia {token : Token} (piece : IsPiece token)
    (trivia : token.isTrivia) :
    token.text.toList.head? ∈ [some '#', some '@', some '\\'] := by
  rcases piece with string | ⟨char, rest, text_eq, kind_eq⟩
  · rw [Token.isTrivia, string] at trivia
    cases trivia
  · have word (lexical : token.kind = lexicalKind token.text) :
        token.text.toList.head? ∈ [some '#', some '@', some '\\'] := by
      rw [text_of_lexicalKind lexical trivia]
      decide
    have string (kind : token.kind = .string) :
        token.text.toList.head? ∈ [some '#', some '@', some '\\'] := by
      rw [Token.isTrivia, kind] at trivia
      cases trivia
    revert text_eq kind_eq
    fun_cases splitPiece char rest with
    | case1 rest | case2 rest =>
        intro text_eq _
        simp [text_eq, Piece.text]
    | case3 | case4 | case5 | case6 => exact fun _ kind_eq => string kind_eq
    | case7 | case8 | case9 =>
        intro text_eq kind_eq
        exact word (kind_eq.trans (congrArg lexicalKind text_eq.symm))

theorem quiet_scan (text : String) : Quiet (scan text).tokens where
  ascends := (before_scan text).imp fun before => by
    unfold Token.Before at before
    omega
  silent token member trivia :=
    Token.isSilent_of_head? (head?_of_isTrivia (isPiece_of_mem_scan member) trivia)

end Scan

/-- Deleting the trivia among the tokens of a text leaves its analysis as it
is, but for the trivia in the list of tokens. -/
theorem analyze_meaningful (options : Options) (text : String) :
    analyze options (meaningful (scan text).tokens) =
      { analyze options (scan text).tokens with
        tokens := meaningful (analyze options (scan text).tokens).tokens } := by
  have same := Walk.document_meaningful (Scan.quiet_scan text)
  rw [analyze_eq_ofWalk, analyze_eq_ofWalk, same]
  change Analysis.ofWalk _ _ = _
  rw [Analysis.ofWalk, Walk.trim]
  change Analysis.mk (TokenCursor.toList (TokenCursor.trim _)) _ _ _ _ _ = _
  rw [TokenCursor.toList_trim]
  rfl

end ComponentLang
