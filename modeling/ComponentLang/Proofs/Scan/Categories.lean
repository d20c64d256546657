import ComponentLang.Proofs.Scan.Kinds
import ComponentLang.Proofs.Scan.Quotes

namespace ComponentLang

namespace Scan

def category (text : String) : TokenKind :=
  match text.toList.head? with
  | some '#' => .comment
  | some '@' => .remark
  | some '"' => .string
  | _ => lexicalKind text

end Scan

/-- The token has the kind that its text tells. -/
def Token.IsCategorized (token : Token) : Prop :=
  token.kind = Scan.category token.text

instance (token : Token) : Decidable token.IsCategorized :=
  inferInstanceAs (Decidable (token.kind = Scan.category token.text))

namespace Scan

theorem infix_of_mem_linesFrom {earlier : List (List Char)}
    {line text found : List Char}
    (member : found ∈ Text.linesFrom earlier line text) :
    found ∈ earlier ∨ found <:+: line.reverse ++ text := by
  -- A finished line ends where its terminator begins.
  have ends {line behind rest : List Char} {earlier : List (List Char)}
      (later : found ∈ line.reverse :: earlier ∨ found <:+: [].reverse ++ rest)
      (within : rest <:+ behind) :
      found ∈ earlier ∨ found <:+: line.reverse ++ behind := by
    rcases later with here | below
    · rcases List.mem_cons.mp here with rfl | before
      · exact .inr (List.prefix_append _ _).isInfix
      · exact .inl before
    · exact .inr (below.trans (within.isInfix.trans
        (List.suffix_append _ _).isInfix))
  fun_induction Text.linesFrom earlier line text with
  | case1 earlier line =>
      rw [List.reverse_cons, List.mem_append, List.mem_reverse] at member
      rw [List.append_nil]
      refine member.imp_right fun last => ?_
      obtain rfl := List.mem_singleton.mp last
      exact List.infix_rfl
  | case2 earlier line rest induction =>
      exact ends (induction member)
        ((List.suffix_cons _ _).trans (List.suffix_cons _ _))
  | case3 earlier line rest _ induction =>
      exact ends (induction member) (List.suffix_cons _ _)
  | case4 earlier line rest induction =>
      exact ends (induction member) (List.suffix_cons _ _)
  | case5 earlier line char rest _ _ _ induction =>
      rw [List.append_cons, ← List.reverse_cons]
      exact induction member

theorem infix_of_mem_lines {text line : List Char}
    (member : line ∈ Text.lines text) : line <:+: text :=
  (infix_of_mem_linesFrom member).resolve_left List.not_mem_nil

theorem shape_splitPiece {char : Char} {rest : List Char}
    (unquoted : ¬tripleQuote <:+: char :: rest) (closed : Bool) :
    (splitPiece char rest).1.shape ≠ .block closed := by
  fun_cases splitPiece char rest with
  | case3 rest front left _ =>
      exact absurd (List.prefix_append tripleQuote rest).isInfix unquoted
  | case4 rest _ =>
      exact absurd (List.prefix_append tripleQuote rest).isInfix unquoted
  | _ => rintro ⟨⟩

theorem kind_splitPiece {char : Char} {rest : List Char}
    (unquoted : ¬tripleQuote <:+: char :: rest) :
    (splitPiece char rest).1.kind = category (splitPiece char rest).1.text := by
  have unblocked := shape_splitPiece unquoted
  fun_cases splitPiece char rest with
  | case3 rest front left found =>
      rw [splitPiece, found] at unblocked
      exact absurd rfl (unblocked true)
  | case4 rest found =>
      rw [splitPiece, found] at unblocked
      exact absurd rfl (unblocked false)
  | _ => simp_all [category, Piece.kind, Piece.text]

theorem isCategorized_cut {line : List Char}
    (unquoted : ¬tripleQuote <:+: line) (row column : Nat) :
    (∀ token ∈ (scanPart row column line).tokens, token.IsCategorized) ∧
      (scanPart row column line).opening = none := by
  have split_off {placed : Placed} (member : placed ∈ cut column line) :
      ∃ char rest, placed.piece = (splitPiece char rest).1 ∧
        ¬tripleQuote <:+: char :: rest := by
    obtain ⟨char, rest, piece_eq, suffix⟩ := exists_of_mem_cut member
    exact ⟨char, rest, piece_eq,
      fun inside => unquoted (inside.trans suffix.isInfix)⟩
  constructor
  · intro token member
    obtain ⟨placed, among, rfl⟩ := List.mem_map.mp member
    obtain ⟨char, rest, piece_eq, unquoted_piece⟩ := split_off among
    unfold Token.IsCategorized Placed.token
    rw [piece_eq]
    exact kind_splitPiece unquoted_piece
  · rw [scanPart, List.findSome?_eq_none_iff]
    intro placed among
    obtain ⟨char, rest, piece_eq, unquoted_piece⟩ := split_off among
    refine placed.opening?_eq_none ?_ row
    rw [piece_eq]
    exact shape_splitPiece unquoted_piece false

theorem isCategorized_scanLines {lines : List (List Char)}
    (unquoted : ∀ line ∈ lines, ¬tripleQuote <:+: line) (row : Nat) :
    ∀ token ∈ (scanLines row none lines).tokens, token.IsCategorized := by
  induction lines generalizing row with
  | nil =>
      rw [scanLines_nil]
      nofun
  | cons line rest induction =>
      obtain ⟨here, later⟩ := List.forall_mem_cons.mp unquoted
      obtain ⟨categorized, unopened⟩ := isCategorized_cut here row 0
      rw [scanLines_cons]
      intro token member
      rcases List.mem_append.mp member with first | below
      · exact categorized token first
      · apply induction later (row + 1) token
        rwa [← unopened]

theorem isCategorized_scan {text : String}
    (unquoted : ¬tripleQuote <:+: text.toList) :
    ∀ token ∈ (scan text).tokens, token.IsCategorized :=
  isCategorized_scanLines (fun _ member inside =>
    unquoted (inside.trans (infix_of_mem_lines member))) 0

end Scan

end ComponentLang
