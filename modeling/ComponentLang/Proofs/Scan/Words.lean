import ComponentLang.Proofs.Scan.Kinds
import ComponentLang.Proofs.Syntax.Beginnings

namespace ComponentLang

/-- Whether the token's kind says all there is to say about it, so that no
analysis gives it another one. -/
def Token.isSettled (token : Token) : Bool :=
  match token.kind with
  | .number | .operator | .type | .comment | .remark => true
  | .keyword =>
      (Keyword.ofSpelling? token.text).any fun word => !word.isContextual
  | _ => false

theorem Keyword.isContextual_of_isIdentifier {word : Keyword}
    (identifier : Literal.isIdentifier word.spelling) : word.isContextual := by
  cases contextual : word.isContextual with
  | true => rfl
  | false =>
      have reserved := @Terminal.isIdentifier_spelling (.keyword word)
        (by rw [Terminal.isReserved, contextual]; rfl)
      exact absurd identifier (Bool.eq_false_iff.mp reserved)

theorem Operator.ofSpelling?_eq_none {text : String}
    (identifier : Literal.isIdentifier text) : ofSpelling? text = none := by
  cases found : ofSpelling? text with
  | none => rfl
  | some sign =>
      obtain rfl := ofSpelling?_eq_some_iff.mp found
      have reserved := @Terminal.isIdentifier_spelling (.operator sign) rfl
      exact absurd identifier (Bool.eq_false_iff.mp reserved)

namespace Scan

theorem lexicalKind_of_isIdentifier {text : String}
    (identifier : Literal.isIdentifier text) :
    lexicalKind text =
      if (Keyword.ofSpelling? text).isSome then .keyword else .nil := by
  rw [lexicalKind, Literal.builtinType_eq_none identifier,
    Operator.ofSpelling?_eq_none identifier,
    Literal.isNumber_eq_false identifier]
  rfl

theorem isSettled_of_isIdentifier {token : Token} (piece : IsPiece token)
    (identifier : Literal.isIdentifier token.text) : token.isSettled = false := by
  have word (lexical : token.kind = lexicalKind token.text) :
      token.isSettled = false := by
    rw [lexicalKind_of_isIdentifier identifier] at lexical
    cases found : Keyword.ofSpelling? token.text with
    | none =>
        rw [found] at lexical
        rw [Token.isSettled, lexical]
        rfl
    | some word =>
        obtain spelled := Keyword.ofSpelling?_eq_some_iff.mp found
        rw [← spelled] at identifier
        rw [found] at lexical
        rw [Token.isSettled, lexical, found]
        exact congrArg Bool.not (Keyword.isContextual_of_isIdentifier identifier)
  rcases piece with string | ⟨char, rest, text_eq, kind_eq⟩
  · rw [Token.isSettled, string]
  · obtain ⟨first, others, chars_eq, front⟩ :=
      Literal.exists_front_of_isIdentifier identifier
    have begins {sign : Char} {chars : List Char}
        (text_eq : token.text = String.ofList (sign :: chars)) : first = sign := by
      rw [text_eq, String.toList_ofList] at chars_eq
      exact (List.cons.inj chars_eq).1.symm
    revert text_eq kind_eq
    fun_cases splitPiece char rest with
    | case1 rest | case2 rest =>
        intro text_eq _
        obtain rfl := begins text_eq
        rcases front with escape | start <;> contradiction
    | case3 | case4 | case5 | case6 =>
        intro _ kind_eq
        rw [Token.isSettled, kind_eq]
        rfl
    | case7 | case8 | case9 =>
        intro text_eq kind_eq
        exact word (kind_eq.trans (congrArg lexicalKind text_eq.symm))

theorem isSemantic_lexicalKind (text : String) :
    (lexicalKind text).isSemantic = false := by
  have among := lexicalKind_mem text
  generalize lexicalKind text = kind at among
  revert kind
  decide

theorem Piece.isSemantic_kind (piece : Piece) : piece.kind.isSemantic = false := by
  unfold Piece.kind
  split
  · exact isSemantic_lexicalKind piece.text
  all_goals rfl

theorem lexicalKind_of_kind_nil {text : String} {token : Token}
    (member : token ∈ (scan text).tokens) (nil : token.kind = .nil) :
    lexicalKind token.text = .nil := by
  rcases isPiece_of_mem_scan member with string | ⟨char, rest, text_eq, kind_eq⟩
  · rw [nil] at string
    cases string
  · rw [nil] at kind_eq
    unfold Piece.kind at kind_eq
    split at kind_eq
    · rw [text_eq]
      exact kind_eq.symm
    all_goals cases kind_eq

/-- What scanning tells about the kind of a token. -/
structure IsLexical (token : Token) : Prop where
  kind : token.kind.isSemantic = false
  modifiers : token.modifiers = {}
  unsettled : Literal.isIdentifier token.text → token.isSettled = false

theorem isLexical_of_mem_scan {text : String} {token : Token}
    (member : token ∈ (scan text).tokens) : IsLexical token := by
  have piece := isPiece_of_mem_scan member
  refine ⟨?_, modifiers_of_mem_scan member, isSettled_of_isIdentifier piece⟩
  rcases piece with string | ⟨char, rest, -, kind_eq⟩
  · rw [string]
    rfl
  · rw [kind_eq]
    exact Piece.isSemantic_kind _

end Scan

end ComponentLang
