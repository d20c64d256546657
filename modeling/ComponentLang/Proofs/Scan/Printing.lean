import ComponentLang.Proofs.Scan.Pieces

namespace ComponentLang

namespace Text

/-- A terminator ends the line. With the line feed behind it, a carriage return
is one terminator. -/
theorem exists_below {char : Char} (terminator : Scan.isTerminator char)
    (rest : List Char) :
    ∃ below, (below = rest ∨ rest = '\n' :: below) ∧ ∀ earlier line,
      linesFrom earlier line (char :: rest) =
        linesFrom (line.reverse :: earlier) [] below := by
  rcases Bool.or_eq_true_iff.mp terminator with carriage | feed
  · obtain rfl := beq_iff_eq.mp carriage
    by_cases pair : ∃ below, rest = '\n' :: below
    · obtain ⟨below, rfl⟩ := pair
      exact ⟨below, .inr rfl, fun earlier line => linesFrom.eq_2 ..⟩
    · refine ⟨rest, .inl rfl, fun earlier line => linesFrom.eq_3 _ _ _ ?_⟩
      exact fun below same => pair ⟨below, same⟩
  · obtain rfl := beq_iff_eq.mp feed
    exact ⟨rest, .inl rfl, fun earlier line => linesFrom.eq_4 ..⟩

theorem linesFrom_of_not_isTerminator (earlier : List (List Char))
    (line rest : List Char) {char : Char}
    (goes : Scan.isTerminator char = false) :
    linesFrom earlier line (char :: rest) = linesFrom earlier (char :: line) rest := by
  have no_return : char ≠ '\r' := by
    rintro rfl
    nomatch goes
  have no_feed : char ≠ '\n' := by
    rintro rfl
    nomatch goes
  rw [linesFrom.eq_5]
  · exact fun _ same _ => no_return same
  · exact no_return
  · exact no_feed

theorem exists_linesFrom (text : List Char) :
    ∃ first others, ∀ earlier line,
      linesFrom earlier line text =
        earlier.reverse ++ (line.reverse ++ first) :: others := by
  induction text with
  | nil => exact ⟨[], [], fun earlier line => by simp [linesFrom]⟩
  | cons char rest induction =>
      cases terminator : Scan.isTerminator char with
      | false =>
          obtain ⟨first, others, rest_eq⟩ := induction
          refine ⟨char :: first, others, fun earlier line => ?_⟩
          rw [linesFrom_of_not_isTerminator earlier line rest terminator,
            rest_eq]
          simp
      | true =>
          obtain ⟨below, -, ends⟩ := exists_below terminator rest
          refine ⟨[], lines below, fun earlier line => ?_⟩
          rw [ends, linesFrom_eq_append, lines]
          simp

theorem linesFrom_append_of_not_isTerminator {front : List Char}
    (goes : ∀ char ∈ front, Scan.isTerminator char = false)
    (earlier : List (List Char)) (line rest : List Char) :
    linesFrom earlier line (front ++ rest) =
      linesFrom earlier (front.reverse ++ line) rest := by
  induction front generalizing line with
  | nil => rfl
  | cons char front induction =>
      obtain ⟨here, later⟩ := List.forall_mem_cons.mp goes
      rw [List.cons_append,
        linesFrom_of_not_isTerminator earlier line _ here, induction later]
      simp

theorem exists_lines {front : List Char}
    (goes : ∀ char ∈ front, Scan.isTerminator char = false) (rest : List Char) :
    ∃ first others, lines rest = first :: others ∧
      lines (front ++ rest) = (front ++ first) :: others := by
  obtain ⟨first, others, lines_eq⟩ := exists_linesFrom rest
  refine ⟨first, others, lines_eq [] [], ?_⟩
  rw [lines, linesFrom_append_of_not_isTerminator goes, lines_eq]
  simp

end Text

namespace Scan

theorem isTerminator_of_isGap {char : Char} (gap : isGap char) :
    isTerminator char = false := by
  rcases Bool.or_eq_true_iff.mp gap with space | tab
  · obtain rfl := beq_iff_eq.mp space
    rfl
  · obtain rfl := beq_iff_eq.mp tab
    rfl

def isSpace (char : Char) : Bool :=
  isGap char || isTerminator char

def Spaced (text : List Char) : Prop :=
  ∀ char ∈ text.head?, isSpace char

theorem isSpaced_of_lines {text line : List Char} {others : List (List Char)}
    (spaced : Spaced text) (lines_eq : Text.lines text = line :: others) :
    IsSpaced line := by
  cases text with
  | nil =>
      cases lines_eq
      exact fun _ first => nomatch first
  | cons char rest =>
      rcases Bool.or_eq_true_iff.mp (spaced char rfl) with gap | terminator
      · have goes : ∀ other ∈ [char], isTerminator other = false :=
          List.forall_mem_singleton.mpr (isTerminator_of_isGap gap)
        obtain ⟨first, below, -, whole_eq⟩ := Text.exists_lines goes rest
        rw [← List.singleton_append, whole_eq] at lines_eq
        cases lines_eq
        rintro _ ⟨⟩
        exact gap
      · obtain ⟨below, -, ends⟩ := Text.exists_below terminator rest
        rw [Text.lines, ends, Text.linesFrom_eq_append] at lines_eq
        cases lines_eq
        exact fun _ first => nomatch first

/-- The scan of what is left of a text, outside of any string. -/
def scanFrom (row column : Nat) (text : List Char) : Scan :=
  match Text.lines text with
  | [] => ⟨[], []⟩
  | line :: lines =>
      let part := scanPart row column line
      let below := scanLines (row + 1) part.opening lines
      ⟨part.tokens ++ below.tokens, part.errors ++ below.errors⟩

theorem scanFrom_eq_scanLines (row : Nat) (text : List Char) :
    scanFrom row 0 text = scanLines row none (Text.lines text) := by
  unfold scanFrom
  cases lines_eq : Text.lines text with
  | nil => exact absurd lines_eq (Text.lines_ne_nil text)
  | cons line lines => exact (scanLines_cons row none line lines).symm

theorem scanFrom_nil (row column : Nat) : scanFrom row column [] = ⟨[], []⟩ := by
  simp [scanFrom, Text.lines, Text.linesFrom, scanPart_nil]

theorem scanFrom_gap {char : Char} (gap : isGap char) (row column : Nat)
    (rest : List Char) :
    scanFrom row column (char :: rest) = scanFrom row (column + 1) rest := by
  have goes : ∀ other ∈ [char], isTerminator other = false :=
    List.forall_mem_singleton.mpr (isTerminator_of_isGap gap)
  obtain ⟨first, others, lines_eq, whole_eq⟩ := Text.exists_lines goes rest
  rw [List.singleton_append, List.singleton_append] at whole_eq
  simp only [scanFrom, lines_eq, whole_eq, scanPart_cons_of_isGap gap]

theorem exists_scanFrom_below {char : Char} (terminator : isTerminator char)
    (row column : Nat) (rest : List Char) :
    ∃ below, (below = rest ∨ rest = '\n' :: below) ∧
      scanFrom row column (char :: rest) = scanFrom (row + 1) 0 below := by
  obtain ⟨below, reached, ends⟩ := Text.exists_below terminator rest
  refine ⟨below, reached, ?_⟩
  have lines_eq : Text.lines (char :: rest) = [] :: Text.lines below := by
    rw [Text.lines, ends, Text.linesFrom_eq_append]
    rfl
  rw [scanFrom_eq_scanLines, scanFrom, lines_eq]
  simp [scanPart_nil]

theorem exists_scanFrom_spaces {spaces : List Char} (blank : spaces.all isSpace)
    {rest : List Char} (no_feed : rest.head? ≠ some '\n') (row column : Nat) :
    ∃ lower further, scanFrom row column (spaces ++ rest) =
      scanFrom lower further rest := by
  induction size : spaces.length using Nat.strongRecOn
    generalizing spaces row column with
  | _ total induction =>
      cases spaces with
      | nil => exact ⟨row, column, rfl⟩
      | cons char others =>
          obtain ⟨space, later⟩ := Bool.and_eq_true_iff.mp blank
          have shorter : others.length < total := size ▸ Nat.lt_succ_self _
          rcases Bool.or_eq_true_iff.mp space with gap | terminator
          · rw [List.cons_append, scanFrom_gap gap]
            exact induction _ shorter later row (column + 1) rfl
          · obtain ⟨below, reached, scan_eq⟩ :=
              exists_scanFrom_below terminator row column (others ++ rest)
            rw [List.cons_append, scan_eq]
            rcases reached with rfl | feed
            · exact induction _ shorter later (row + 1) 0 rfl
            · cases others with
              | nil => exact absurd (congrArg List.head? feed) no_feed
              | cons first others =>
                  obtain ⟨rfl, rfl⟩ := List.cons.inj feed
                  exact induction _ (Nat.lt_of_succ_lt shorter)
                    (Bool.and_eq_true_iff.mp later).2 (row + 1) 0 rfl

theorem IsWhole.exists_piece {text : String} {kind : TokenKind}
    (whole : IsWhole text kind) :
    ∃ shape, (shape = .word ∨ shape = .quoted true ∨ shape = .block true) ∧
      isOnly shape text ∧ kind = Piece.kind ⟨shape, text.toList⟩ := by
  rcases whole with ⟨word, rfl⟩ | ⟨quoted | block, rfl⟩
  · refine ⟨.word, .inl rfl, word, ?_⟩
    rw [Piece.kind, Piece.text, String.ofList_toList]
  · exact ⟨.quoted true, .inr (.inl rfl), quoted, rfl⟩
  · exact ⟨.block true, .inr (.inr rfl), block, rfl⟩

theorem scanPart_of_splitPiece (row column : Nat) {shape : Shape} {char : Char}
    {others line : List Char}
    (closed : shape = .word ∨ shape = .quoted true ∨ shape = .block true)
    (solid : isGap char = false)
    (split_eq : splitPiece char (others ++ line) =
      (⟨shape, char :: others⟩, line)) :
    scanPart row column (char :: (others ++ line)) =
      let later := scanPart row (column + Text.units (char :: others)) line
      { later with
        tokens := Placed.token row ⟨column, ⟨shape, char :: others⟩⟩ ::
          later.tokens } := by
  have no_gap : ¬isGap char := by simp [solid]
  rw [scanPart_cons_of_not_isGap no_gap, split_eq]
  rcases closed with rfl | rfl | rfl <;> rfl

theorem scanFrom_of_isWhole {text : String} {kind : TokenKind}
    (whole : IsWhole text kind) {rest : List Char} (spaced : Spaced rest)
    (row column : Nat) :
    scanFrom row column (text.toList ++ rest) =
      ⟨{ line := row, column, text, kind } ::
          (scanFrom row (column + Text.units text.toList) rest).tokens,
        (scanFrom row (column + Text.units text.toList) rest).errors⟩ := by
  obtain ⟨shape, closed, only, kind_eq⟩ := whole.exists_piece
  obtain ⟨char, others, text_eq, solid, goes, piece_eq⟩ := exists_of_isOnly only
  obtain ⟨line, below, rest_eq, whole_eq⟩ := Text.exists_lines goes rest
  have part_eq := scanPart_of_splitPiece row column closed solid
    (splitPiece_append_line (isSpaced_of_lines spaced rest_eq) closed piece_eq)
  have token_eq : Placed.token row ⟨column, ⟨shape, char :: others⟩⟩ =
      { line := row, column, text, kind } := by
    rw [Placed.token, Piece.text, ← text_eq, String.ofList_toList, kind_eq]
  rw [text_eq]
  unfold scanFrom
  rw [rest_eq, whole_eq]
  simp only [List.cons_append, part_eq, token_eq]

theorem IsWhole.head?_ne_feed {text : String} {kind : TokenKind}
    (whole : IsWhole text kind) (rest : List Char) :
    (text.toList ++ rest).head? ≠ some '\n' := by
  obtain ⟨shape, -, only, -⟩ := whole.exists_piece
  obtain ⟨char, others, text_eq, -, goes, -⟩ := exists_of_isOnly only
  have ends := (List.forall_mem_cons.mp goes).1
  rw [text_eq]
  rintro ⟨⟩
  nomatch ends

end Scan

end ComponentLang
