import ComponentLang.Proofs.Token.Nesting
import ComponentLang.Scan.Document

namespace ComponentLang.Scan

open Nesting

def IsPiece (token : Token) : Prop :=
  token.kind = .string ∨ ∃ char rest,
    token.text = (splitPiece char rest).1.text ∧
      token.kind = (splitPiece char rest).1.kind

theorem exists_of_mem_cut {column : Nat} {line : List Char} {placed : Placed}
    (member : placed ∈ cut column line) :
    ∃ char rest, placed.piece = (splitPiece char rest).1 ∧
      char :: rest <:+ line := by
  match line with
  | [] =>
      rw [cut_nil] at member
      nomatch member
  | char :: rest =>
      by_cases gap : isGap char
      · rw [cut_cons_of_isGap column rest gap] at member
        obtain ⟨first, others, piece_eq, suffix⟩ := exists_of_mem_cut member
        exact ⟨first, others, piece_eq, suffix.trans (List.suffix_cons char rest)⟩
      · rw [cut_cons_of_not_isGap column rest gap] at member
        rcases List.mem_cons.mp member with rfl | later
        · exact ⟨char, rest, rfl, List.suffix_refl _⟩
        · have shorter := length_splitPiece char rest
          obtain ⟨first, others, piece_eq, suffix⟩ := exists_of_mem_cut later
          exact ⟨first, others, piece_eq,
            suffix.trans ⟨_, splitPiece_append char rest⟩⟩
termination_by line.length
decreasing_by
  · exact Nat.lt_succ_self _
  · exact shorter

theorem isPiece_of_mem_cut {row column : Nat} {line : List Char} {token : Token}
    (member : token ∈ (cut column line).map (Placed.token row)) :
    IsPiece token := by
  obtain ⟨placed, among, rfl⟩ := List.mem_map.mp member
  obtain ⟨char, rest, piece_eq, -⟩ := exists_of_mem_cut among
  exact .inr ⟨char, rest, congrArg Piece.text piece_eq,
    congrArg Piece.kind piece_eq⟩

/-- What the pieces of every line are, and the lines of a string as well, is what
all tokens of a text are. -/
theorem forall_mem_scan (property : Token → Prop)
    (pieces : ∀ row column line,
      ∀ token ∈ (cut column line).map (Placed.token row), property token)
    (strings : ∀ row chars, property (stringToken row chars)) (text : String) :
    ∀ token ∈ (scan text).tokens, property token := by
  have within (row : Nat) (opening : Option Token) (line : List Char) :
      ∀ token ∈ (scanLine row opening line).tokens, property token := by
    unfold scanLine
    split
    · exact pieces row 0 line
    · split
      · exact List.forall_mem_singleton.mpr (strings row line)
      · exact List.forall_mem_cons.mpr ⟨strings row _, pieces row _ _⟩
  unfold scan
  generalize Text.lines text.toList = lines, 0 = row, none = opening
  induction lines generalizing row opening with
  | nil =>
      rw [scanLines_nil]
      nofun
  | cons line rest induction =>
      rw [scanLines_cons]
      exact List.forall_mem_append.mpr ⟨within row opening line, induction _ _⟩

theorem isPiece_of_mem_scan {text : String} {token : Token}
    (member : token ∈ (scan text).tokens) : IsPiece token := by
  refine forall_mem_scan IsPiece ?_ ?_ text token member
  · exact fun _ _ _ _ => isPiece_of_mem_cut
  · exact fun _ _ => .inl rfl

theorem modifiers_of_mem_scan {text : String} {token : Token}
    (member : token ∈ (scan text).tokens) : token.modifiers = {} := by
  refine forall_mem_scan (fun token => token.modifiers = {}) ?_ ?_ text token
    member
  · intro row column line token among
    obtain ⟨placed, -, rfl⟩ := List.mem_map.mp among
    rfl
  · exact fun _ _ => rfl

theorem isDeclaration_of_mem_scan {text : String} {token : Token}
    (member : token ∈ (scan text).tokens) : token.isDeclaration = false :=
  congrArg Modifiers.declaration (modifiers_of_mem_scan member)

theorem kind_splitPiece_of_brace {char : Char} {rest : List Char} {brace : Brace}
    (spelled : (splitPiece char rest).1.text = brace.sign.spelling) :
    (splitPiece char rest).1.kind = .operator ∨
      (splitPiece char rest).1.kind = .string := by
  have word : lexicalKind brace.sign.spelling = .operator := by
    cases brace <;> decide +kernel
  unfold Piece.kind
  rw [spelled, word]
  fun_cases splitPiece char rest with
  | case1 rest =>
      have sign := congrArg (·.toList.head?) spelled
      cases brace <;> simp [splitPiece, Piece.text] at sign <;> contradiction
  | case2 rest =>
      have sign := congrArg (·.toList.head?) spelled
      cases brace <;> simp [splitPiece, Piece.text] at sign <;> contradiction
  | _ => simp

theorem bracesAreOperators_scan {text : String}
    (strings : ∀ token ∈ (scan text).tokens, token.kind = .string →
      Brace.ofSpelling? token.text = none) :
    BracesAreOperators (scan text).tokens := by
  intro token member
  unfold Token.brace?
  cases spelled : Brace.ofSpelling? token.text with
  | none => split <;> rfl
  | some brace =>
      have no_string : token.kind ≠ .string := by
        intro string
        rw [strings token member string] at spelled
        nomatch spelled
      rcases isPiece_of_mem_scan member with string | ⟨char, rest, text_eq, kind_eq⟩
      · exact absurd string no_string
      · have named := Brace.ofSpelling?_eq_some_iff.mp spelled
        rw [text_eq] at named
        rcases kind_splitPiece_of_brace named with operator | string
        · rw [kind_eq, operator]
          rfl
        · exact absurd (kind_eq.trans string) no_string

end ComponentLang.Scan
