import ComponentLang.Proofs.Scan.Layout

namespace ComponentLang.Scan

def isTerminator (char : Char) : Bool :=
  char == '\r' || char == '\n'

/-- The tokens of one line written out from `column` on, with spaces between
and behind them, up to the line's width. -/
def writeFrom (width column : Nat) : List Token → List Char
  | [] => List.replicate (width - column) ' '
  | token :: rest =>
      List.replicate (token.column - column) ' ' ++ token.text.toList ++
        writeFrom width (token.column + token.length) rest

/-- The line `row` of a text, rebuilt from its tokens. -/
def rebuildLine (tokens : List Token) (row width : Nat) : List Char :=
  writeFrom width 0 (tokens.filter fun token => token.line == row)

/-- Whether two lines have the same characters but for gaps, which have to
stand in the same places. -/
inductive SameButGaps : List Char → List Char → Prop where
  | nil : SameButGaps [] []
  | same (char : Char) (rest : SameButGaps left right) :
      SameButGaps (char :: left) (char :: right)
  | gap (left_gap : isGap leftChar) (right_gap : isGap rightChar)
      (rest : SameButGaps left right) :
      SameButGaps (leftChar :: left) (rightChar :: right)

theorem SameButGaps.append_left (front : List Char) {left right : List Char}
    (same : SameButGaps left right) :
    SameButGaps (front ++ left) (front ++ right) := by
  induction front with
  | nil => exact same
  | cons char front induction => exact .same char induction

/-- What it means that the tokens of a text hold all of it. -/
structure Lossless (text : List Char) (tokens : List Token) : Prop where
  /-- The lines hold every character but the terminators. -/
  flatten_lines :
    (Text.lines text).flatten = text.filter fun char => !isTerminator char
  ordered : tokens.Pairwise fun first second =>
    first.line < second.line ∨
      first.line = second.line ∧ first.column < second.column
  apart : tokens.Pairwise fun first second =>
    first.line = second.line → first.column + first.length ≤ second.column
  /-- A token's text is the piece of its line at its column. -/
  piece : ∀ token ∈ tokens, ∃ line front back,
    (Text.lines text)[token.line]? = some line ∧
      line = front ++ token.text.toList ++ back ∧
      Text.units front = token.column ∧
      token.column + token.length ≤ Text.units line
  /-- A character in no token is a space or a tab. -/
  covered : ∀ row front char back,
    (Text.lines text)[row]? = some (front ++ char :: back) →
      isGap char ∨ ∃ token ∈ tokens,
        token.line = row ∧ token.column ≤ Text.units front ∧
          Text.units (front ++ [char]) ≤ token.column + token.length
  rebuilt : ∀ row line, (Text.lines text)[row]? = some line →
    SameButGaps line (rebuildLine tokens row (Text.units line))

/-! The parts, in the order of the definition. -/

theorem flatten_linesFrom (earlier : List (List Char)) (line text : List Char) :
    (Text.linesFrom earlier line text).flatten =
      earlier.reverse.flatten ++ line.reverse ++
        text.filter fun char => !isTerminator char := by
  fun_induction Text.linesFrom earlier line text with
  | case1 => simp
  | case2 earlier line rest induction => simp [induction, isTerminator]
  | case3 earlier line rest notFeed induction => simp [induction, isTerminator]
  | case4 earlier line rest induction => simp [induction, isTerminator]
  | case5 earlier line char rest notPair notReturn notFeed induction =>
      have kept : isTerminator char = false := by
        simp only [isTerminator, Bool.or_eq_false_iff, beq_eq_false_iff_ne]
        exact ⟨notReturn, notFeed⟩
      simp [induction, kept]

theorem flatten_lines (text : List Char) :
    (Text.lines text).flatten = text.filter fun char => !isTerminator char := by
  simp [Text.lines, flatten_linesFrom]

theorem units_le_of_append {front middle back line : List Char}
    (line_eq : line = front ++ middle ++ back) :
    Text.units front + Text.units middle ≤ Text.units line := by
  rw [line_eq, Text.units_append, Text.units_append]
  exact Nat.le_add_right _ _

theorem writeFrom_cons {row column : Nat} {line : List Char}
    {tokens : List Token} (laid : Laid row (column + 1) line tokens)
    {width : Nat} (width_eq : width = column + 1 + Text.units line) :
    writeFrom width column tokens =
      ' ' :: writeFrom width (column + 1) tokens := by
  cases tokens with
  | nil =>
      have one_more : width - column = width - (column + 1) + 1 := by omega
      rw [writeFrom, one_more, List.replicate_succ, writeFrom]
  | cons token rest =>
      have behind := laid.column_le token List.mem_cons_self
      have one_more :
          token.column - column = token.column - (column + 1) + 1 := by
        omega
      rw [writeFrom, one_more, List.replicate_succ, writeFrom]
      rfl

theorem Laid.rebuilt {row column : Nat} {line : List Char}
    {tokens : List Token} (laid : Laid row column line tokens) :
    SameButGaps line (writeFrom (column + Text.units line) column tokens) := by
  induction laid with
  | done =>
      simp only [writeFrom, Text.units_nil, Nat.add_zero, Nat.sub_self]
      exact .nil
  | hollow covers =>
      simp only [writeFrom, covers.column, covers.text, covers.length,
        Text.units_nil, Nat.add_zero, Nat.sub_self]
      exact .nil
  | @gap char column line tokens blank rest induction =>
      have width_eq : column + Text.units (char :: line) =
          column + 1 + Text.units line := by
        rw [Text.units_cons, unitWidth_of_isGap blank]
        omega
      rw [width_eq, writeFrom_cons rest rfl]
      exact .gap blank rfl induction
  | @token column front line token tokens covers nonempty rest induction =>
      rw [Text.units_append, ← Nat.add_assoc, writeFrom, covers.column,
        covers.text, covers.length, Nat.sub_self]
      exact induction.append_left front

/-- No character of a text is lost or told twice by its tokens. -/
theorem scan_lossless (text : String) :
    Lossless text.toList (scan text).tokens := by
  have laid := laidLines_scan text
  refine ⟨flatten_lines text.toList, ordered_scan text, ?apart, ?piece,
    ?covered, ?rebuilt⟩
  case apart =>
    refine laid.ordered.imp ?_
    rintro first second (above | ⟨-, -, apart⟩) same
    · omega
    · exact apart
  case piece =>
    intro token member
    obtain ⟨index, line, row_eq, line_eq⟩ := laid.getElem?_line token member
    have on_line := laid.laid_filter index line line_eq
    obtain ⟨front, back, parts, -, column_eq⟩ :=
      on_line.piece token (by simp [member, row_eq])
    rw [Nat.zero_add] at row_eq column_eq
    refine ⟨line, front, back, by rw [row_eq, line_eq], parts, column_eq.symm,
      ?_⟩
    rw [column_eq]
    exact units_le_of_append parts
  case covered =>
    intro row front char back line_eq
    have on_line := laid.laid_filter row _ line_eq
    rcases on_line.covered front char back rfl with
      blank | ⟨token, member, before, behind⟩
    · exact .inl blank
    · rw [List.mem_filter, beq_iff_eq] at member
      simp only [Nat.zero_add] at member before behind
      exact .inr ⟨token, member.1, member.2, before, behind⟩
  case rebuilt =>
    intro row line line_eq
    have written := (laid.laid_filter row line line_eq).rebuilt
    simpa only [rebuildLine, Nat.zero_add] using written

end ComponentLang.Scan
