import ComponentLang.Proofs.Scan.Errors
import ComponentLang.Proofs.Scan.Pieces
import ComponentLang.Proofs.Scan.Shift
import ComponentLang.Proofs.Scan.Printing

namespace ComponentLang

namespace Scan

/-! A part that was split off is split off whole when it stands alone. -/

theorem endsWord_splitWord {char : Char} {rest : List Char}
    (goes : endsWord char rest = false) :
    endsWord char (splitWord rest).1 = false := by
  cases rest with
  | nil => exact goes
  | cons next further =>
      by_cases digit : next.isDigit
      · have solid : IsSolid next := isSolid_of_isNameChar
          (by simp [Literal.isNameChar, Char.isAlphanum, digit])
        have within : endsWord next further = false := by
          simp [endsWord, solid.1]
        rw [splitWord, within]
        exact goes
      · have plain : Literal.isBreakpoint char = false := by
          simpa [endsWord, digit] using goes
        simp [endsWord, plain]

theorem splitWord_self (line : List Char) :
    splitWord (splitWord line).1 = ((splitWord line).1, []) := by
  induction line with
  | nil => rfl
  | cons char rest induction =>
      cases ends : endsWord char rest with
      | true =>
          simp only [splitWord, ends]
          rfl
      | false =>
          simp [splitWord, ends, endsWord_splitWord ends, induction]

theorem splitPiece_self (char : Char) (rest : List Char) :
    ∃ others, (splitPiece char rest).1.chars = char :: others ∧
      splitPiece char others = ((splitPiece char rest).1, []) := by
  fun_cases splitPiece char rest with
  | case1 | case2 | case7 => exact ⟨_, rfl, rfl⟩
  | case3 rest front left found =>
      have whole := splitTripleQuote_front found []
      rw [List.append_nil] at whole
      refine ⟨_, rfl, ?_⟩
      rw [splitPiece, whole]
  | case4 rest missing =>
      refine ⟨_, rfl, ?_⟩
      rw [splitPiece, missing]
  | case5 rest notTriple front left found =>
      have whole := splitQuote_front found []
      rw [List.append_nil] at whole
      refine ⟨_, rfl, ?_⟩
      rw [splitPiece.eq_4, whole]
      rintro further rfl
      exact notTriple (further ++ left) (splitQuote_append found).symm
  | case6 rest notTriple missing =>
      refine ⟨_, rfl, ?_⟩
      rw [splitPiece.eq_4 _ notTriple, missing]
  | case8 char rest noComment noRemark _ noQuote _ ends =>
      refine ⟨_, rfl, ?_⟩
      rw [splitPiece.eq_6 char [] noComment noRemark noQuote
        (fun _ quote _ => noQuote quote) (by simp), if_pos]
      simpa [endsWord] using (Bool.and_eq_true_iff.mp ends).1
  | case9 char rest noComment noRemark _ noQuote noArrow goes word left
      split_eq =>
      have word_eq : (splitWord rest).1 = word := by rw [split_eq]
      have ends := endsWord_splitWord (Bool.eq_false_iff.mpr goes)
      have whole := splitWord_self rest
      rw [word_eq] at ends whole
      have arrowless : ∀ further, char = '-' → word = '>' :: further → False := by
        rintro further minus rfl
        have rest_eq := splitWord_append rest
        rw [split_eq] at rest_eq
        exact noArrow (further ++ left) minus rest_eq.symm
      refine ⟨word, rfl, ?_⟩
      rw [splitPiece.eq_6 char word noComment noRemark noQuote
        (fun _ quote _ => noQuote quote) arrowless, ends, whole]
      rfl

theorem splitPiece_again (char : Char) (rest : List Char) :
    ∃ others, (splitPiece char rest).1.chars = char :: others ∧
      ∀ line, IsSpaced line →
        ((splitPiece char rest).1.shape.takesLine → line = []) →
          splitPiece char (others ++ line) = ((splitPiece char rest).1, line) := by
  obtain ⟨others, chars_eq, whole⟩ := splitPiece_self char rest
  refine ⟨others, chars_eq, fun line spaced alone => ?_⟩
  generalize (splitPiece char rest).1 = piece at chars_eq whole alone ⊢
  obtain ⟨shape, chars⟩ := piece
  obtain rfl := chars_eq
  cases shape with
  | word => exact splitPiece_append_line spaced (.inl rfl) whole
  | quoted closed =>
      cases closed with
      | true => exact splitPiece_append_line spaced (.inr (.inl rfl)) whole
      | false => rw [alone rfl, List.append_nil, whole]
  | block closed =>
      cases closed with
      | true => exact splitPiece_append_line spaced (.inr (.inr rfl)) whole
      | false => rw [alone rfl, List.append_nil, whole]
  | comment | remark => rw [alone rfl, List.append_nil, whole]

/-! Lines with single blanks. -/

def respacedLine (texts : List (List Char)) : List Char :=
  [' '].intercalate texts

def respacedRest : List (List Char) → List Char
  | [] => []
  | texts@(_ :: _) => ' ' :: respacedLine texts

theorem respacedLine_cons (first : List Char) (others : List (List Char)) :
    respacedLine (first :: others) = first ++ respacedRest others := by
  cases others with
  | nil => simp [respacedLine, respacedRest]
  | cons => simp [respacedLine, respacedRest, List.intercalate]

theorem mem_respacedLine {char : Char} {texts : List (List Char)}
    (member : char ∈ respacedLine texts) :
    char = ' ' ∨ ∃ text ∈ texts, char ∈ text := by
  induction texts with
  | nil => cases member
  | cons first others induction =>
      rw [respacedLine_cons] at member
      rcases List.mem_append.mp member with front | behind
      · exact .inr ⟨first, List.mem_cons_self, front⟩
      · cases others with
        | nil => cases behind
        | cons second further =>
            rcases List.mem_cons.mp behind with rfl | later
            · exact .inl rfl
            · rcases induction later with blank | ⟨text, among, part⟩
              · exact .inl blank
              · exact .inr ⟨text, List.mem_cons_of_mem first among, part⟩

theorem isSpaced_respacedRest (texts : List (List Char)) :
    IsSpaced (respacedRest texts) := by
  cases texts with
  | nil => exact fun _ first => by cases first
  | cons =>
      rintro _ ⟨⟩
      rfl

/-- The pieces of a line, wherever they stand. -/
def pieces (line : List Char) : List Piece :=
  (cut 0 line).map Placed.piece

theorem map_piece_cut (column other : Nat) (line : List Char) :
    (cut column line).map Placed.piece = (cut other line).map Placed.piece := by
  match line with
  | [] => simp
  | char :: rest =>
      by_cases gap : isGap char
      · rw [cut_cons_of_isGap column rest gap, cut_cons_of_isGap other rest gap]
        exact map_piece_cut (column + 1) (other + 1) rest
      · have shorter := length_splitPiece char rest
        rw [cut_cons_of_not_isGap column rest gap,
          cut_cons_of_not_isGap other rest gap, List.map_cons, List.map_cons]
        exact congrArg _ (map_piece_cut _ _ (splitPiece char rest).2)
termination_by line.length
decreasing_by
  · exact Nat.lt_succ_self _
  · exact length_splitPiece char rest

@[simp] theorem pieces_nil : pieces [] = [] := by
  simp [pieces]

theorem pieces_cons_of_isGap {char : Char} (rest : List Char)
    (gap : isGap char) : pieces (char :: rest) = pieces rest := by
  rw [pieces, cut_cons_of_isGap 0 rest gap, map_piece_cut _ 0, pieces]

theorem pieces_cons_of_not_isGap {char : Char} (rest : List Char)
    (solid : ¬isGap char) :
    pieces (char :: rest) =
      (splitPiece char rest).1 :: pieces (splitPiece char rest).2 := by
  rw [pieces, cut_cons_of_not_isGap 0 rest solid, List.map_cons,
    map_piece_cut _ 0, pieces]

theorem pieces_respacedRest (texts : List (List Char)) :
    pieces (respacedRest texts) = pieces (respacedLine texts) := by
  cases texts with
  | nil => rfl
  | cons first others => rw [respacedRest, pieces_cons_of_isGap _ rfl]

/-- The pieces of a line are the pieces of the line that they are written to. -/
theorem pieces_respacedLine (line : List Char) :
    pieces (respacedLine ((pieces line).map Piece.chars)) = pieces line := by
  match line with
  | [] => simp [respacedLine]
  | char :: rest =>
      by_cases gap : isGap char
      · rw [pieces_cons_of_isGap rest gap]
        exact pieces_respacedLine rest
      · have shorter := length_splitPiece char rest
        have later := pieces_respacedLine (splitPiece char rest).2
        obtain ⟨others, chars_eq, again⟩ := splitPiece_again char rest
        have alone (takes : (splitPiece char rest).1.shape.takesLine) :
            respacedRest ((pieces (splitPiece char rest).2).map Piece.chars) =
              [] := by
          rw [splitPiece_of_takesLine takes, pieces_nil]
          rfl
        rw [pieces_cons_of_not_isGap rest gap, List.map_cons, respacedLine_cons,
          chars_eq, List.cons_append, pieces_cons_of_not_isGap _ gap,
          again _ (isSpaced_respacedRest _) alone, pieces_respacedRest, later]
termination_by line.length
decreasing_by
  · exact Nat.lt_succ_self _
  · exact length_splitPiece char rest

/-! The scan of a line that is written so. -/

structure Reading where
  line : Nat
  text : String
  kind : TokenKind
  deriving DecidableEq, Repr

end Scan

def Token.reading (token : Token) : Scan.Reading :=
  ⟨token.line, token.text, token.kind⟩

namespace Scan

def Piece.reading (row : Nat) (piece : Piece) : Reading :=
  ⟨row, piece.text, piece.kind⟩

def LexicalError.notice (error : LexicalError) : String × Nat :=
  (error.message, error.token.line)

structure LineScan.Agrees (first second : LineScan) : Prop where
  tokens : first.tokens.map Token.reading = second.tokens.map Token.reading
  errors : first.errors.map LexicalError.notice =
    second.errors.map LexicalError.notice
  opening : first.opening.map Token.reading = second.opening.map Token.reading

theorem tokens_scanPart (row column : Nat) (line : List Char) :
    (scanPart row column line).tokens.map Token.reading =
      (pieces line).map (Piece.reading row) := by
  rw [pieces, map_piece_cut 0 column, scanPart, List.map_map, List.map_map]
  rfl

theorem errors_scanPart (row column : Nat) (line : List Char) :
    (scanPart row column line).errors.map LexicalError.notice =
      (pieces line).filterMap fun piece =>
        (Placed.error? row ⟨0, piece⟩).map LexicalError.notice := by
  rw [pieces, map_piece_cut 0 column, scanPart, List.map_filterMap,
    List.filterMap_map]
  congr 1
  funext placed
  rw [Function.comp_apply]
  unfold Placed.error?
  dsimp only
  split <;> rfl

theorem opening_scanPart (row column : Nat) (line : List Char) :
    (scanPart row column line).opening.map Token.reading =
      (pieces line).findSome? fun piece =>
        (Placed.opening? row ⟨0, piece⟩).map Token.reading := by
  rw [pieces, map_piece_cut 0 column, scanPart, List.map_findSome?,
    List.findSome?_map]
  congr 1
  funext placed
  rw [Function.comp_apply, Function.comp_apply]
  unfold Placed.opening?
  dsimp only
  split <;> rfl

theorem scanPart_agrees {first second : List Char}
    (same : pieces first = pieces second) (row column other : Nat) :
    (scanPart row column first).Agrees (scanPart row other second) where
  tokens := by rw [tokens_scanPart, tokens_scanPart, same]
  errors := by rw [errors_scanPart, errors_scanPart, same]
  opening := by rw [opening_scanPart, opening_scanPart, same]

def texts (tokens : List Token) : List (List Char) :=
  tokens.map fun token => token.text.toList

theorem texts_scanPart (row column : Nat) (line : List Char) :
    texts (scanPart row column line).tokens =
      (pieces line).map Piece.chars := by
  rw [pieces, map_piece_cut 0 column, texts, scanPart, List.map_map,
    List.map_map]
  congr 1
  funext placed
  exact String.toList_ofList

theorem scanLine_agrees (row : Nat) {opening other : Option Token}
    (same : other.map Token.reading = opening.map Token.reading)
    (line : List Char) :
    (scanLine row other (respacedLine
      (texts (scanLine row opening line).tokens))).Agrees
        (scanLine row opening line) := by
  cases opening with
  | none =>
      obtain rfl : other = none := by simpa using same
      simp only [scanLine, texts_scanPart]
      exact scanPart_agrees (pieces_respacedLine line) row 0 0
  | some token =>
      obtain ⟨token', rfl, reading_eq⟩ : ∃ token', other = some token' ∧
          token'.reading = token.reading := by simpa using same
      cases split_eq : splitTripleQuote line with
      | none =>
          have whole : respacedLine (texts [stringToken row line]) = line := by
            simp [respacedLine, texts, stringToken]
          simp only [scanLine, split_eq, whole]
          exact ⟨rfl, rfl, congrArg some reading_eq⟩
      | some parts =>
          obtain ⟨front, left⟩ := parts
          have again := splitTripleQuote_front split_eq
            (respacedRest ((pieces left).map Piece.chars))
          have whole : respacedLine (texts (stringToken row front ::
              (scanPart row (Text.units front) left).tokens)) =
                front ++ respacedRest ((pieces left).map Piece.chars) := by
            rw [texts, List.map_cons, respacedLine_cons, ← texts, texts_scanPart]
            simp [stringToken]
          simp only [scanLine, split_eq, whole, again]
          have part := scanPart_agrees
            ((pieces_respacedRest _).trans (pieces_respacedLine left)) row
            (Text.units front) (Text.units front)
          exact ⟨congrArg (List.cons _) part.tokens, part.errors, part.opening⟩

/-! The scan of lines that are written so. -/

/-- Whether two scans differ in columns only. -/
structure Agrees (first second : Scan) : Prop where
  tokens : first.tokens.map Token.reading = second.tokens.map Token.reading
  errors : first.errors.map LexicalError.notice =
    second.errors.map LexicalError.notice

def respacedFrom (row : Nat) (opening : Option Token) :
    List (List Char) → List (List Char)
  | [] => []
  | line :: rest =>
      respacedLine (texts (scanLine row opening line).tokens) ::
        respacedFrom (row + 1) (scanLine row opening line).opening rest

theorem scanLines_agrees (row : Nat) {opening other : Option Token}
    (same : other.map Token.reading = opening.map Token.reading)
    (lines : List (List Char)) :
    (scanLines row other (respacedFrom row opening lines)).Agrees
      (scanLines row opening lines) := by
  induction lines generalizing row opening other with
  | nil =>
      rw [respacedFrom, scanLines_nil, scanLines_nil]
      refine ⟨rfl, ?_⟩
      have notices (token : Option Token) :
          (token.toList.map fun token =>
            (⟨true, token⟩ : LexicalError)).map LexicalError.notice =
              (token.map Token.reading).toList.map fun reading =>
                (unterminatedMessage true, reading.line) := by
        cases token <;> rfl
      simp only [notices, same]
  | cons line rest induction =>
      have here := scanLine_agrees row same line
      have later := induction (row + 1) here.opening
      rw [respacedFrom, scanLines_cons, scanLines_cons]
      constructor
      · simp only [List.map_append, here.tokens, later.tokens]
      · simp only [List.map_append, here.errors, later.errors]

/-- The tokens of line `row` with single blanks between them. -/
def tokenLine (tokens : List Token) (row : Nat) : List Char :=
  respacedLine (texts (tokens.filter fun token => token.line == row))

/-- The lines of a text, each with single blanks between its tokens. -/
def respacedLines (text : String) : List (List Char) :=
  (List.range (lineCount text)).map (tokenLine (scan text).tokens)

theorem filter_line_scanLines (row : Nat) (opening : Option Token)
    (line : List Char) (rest : List (List Char)) :
    (scanLines row opening (line :: rest)).tokens.filter
        (fun token => token.line == row) =
      (scanLine row opening line).tokens := by
  rw [scanLines_cons, List.filter_append, List.filter_eq_self.mpr,
    List.filter_eq_nil_iff.mpr, List.append_nil]
  · intro token member
    have below := row_le_of_mem_scanLines member
    simp only [beq_iff_eq]
    omega
  · intro token member
    exact beq_iff_eq.mpr ((laid_scanLine row opening line).line_eq token member)

theorem filter_below_scanLines (row index : Nat) (opening : Option Token)
    (line : List Char) (rest : List (List Char)) :
    (scanLines row opening (line :: rest)).tokens.filter
        (fun token => token.line == row + 1 + index) =
      (scanLines (row + 1) (scanLine row opening line).opening
        rest).tokens.filter fun token => token.line == row + 1 + index := by
  rw [scanLines_cons, List.filter_append, List.filter_eq_nil_iff.mpr,
    List.nil_append]
  intro token member
  have here := (laid_scanLine row opening line).line_eq token member
  simp only [beq_iff_eq]
  omega

theorem map_tokenLine_range (row : Nat) (opening : Option Token)
    (lines : List (List Char)) :
    ((List.range lines.length).map fun index =>
      tokenLine (scanLines row opening lines).tokens (row + index)) =
        respacedFrom row opening lines := by
  induction lines generalizing row opening with
  | nil => rfl
  | cons line rest induction =>
      rw [List.length_cons, List.range_succ_eq_map, List.map_cons, List.map_map,
        respacedFrom, ← induction (row + 1)]
      congr 1
      · rw [tokenLine, Nat.add_zero, filter_line_scanLines]
      · apply List.map_congr_left
        intro index _
        have below := filter_below_scanLines row index opening line rest
        rw [Nat.add_assoc, Nat.add_comm 1] at below
        rw [Function.comp_apply, tokenLine, tokenLine, Nat.add_assoc,
          Nat.add_comm 1, below]

theorem respacedLines_eq (text : String) :
    respacedLines text = respacedFrom 0 none (Text.lines text.toList) := by
  have rows := map_tokenLine_range 0 none (Text.lines text.toList)
  simp only [Nat.zero_add] at rows
  exact rows

theorem tokenLine_congr {tokens others : List Token}
    (same : tokens.map Token.reading = others.map Token.reading) (row : Nat) :
    tokenLine tokens row = tokenLine others row := by
  have written (tokens : List Token) : tokenLine tokens row =
      respacedLine (((tokens.map Token.reading).filter fun reading =>
        reading.line == row).map fun reading => reading.text.toList) := by
    rw [tokenLine, texts, List.filter_map, List.map_map]
    rfl
  rw [written, written, same]

end Scan

/-- Ends every line but the last one with a line feed. -/
def Text.joinLines (lines : List (List Char)) : String :=
  String.ofList (['\n'].intercalate lines)

theorem Text.lines_joinLines {lines : List (List Char)} (nonempty : lines ≠ [])
    (goes : ∀ line ∈ lines, ∀ char ∈ line, Scan.isTerminator char = false) :
    Text.lines (joinLines lines).toList = lines := by
  rw [joinLines, String.toList_ofList]
  induction lines with
  | nil => exact absurd rfl nonempty
  | cons line rest induction =>
      obtain ⟨here, later⟩ := List.forall_mem_cons.mp goes
      obtain ⟨first, others, first_eq, alone⟩ := exists_lines here []
      cases first_eq
      rw [List.append_nil, List.reverse_nil, List.append_nil] at alone
      cases rest with
      | nil => simpa using alone
      | cons next further =>
          have unreturned : line.getLast? ≠ some '\r' := fun last =>
            absurd (here _ (List.mem_of_getLast? last)) (by decide)
          have below := induction (List.cons_ne_nil _ _) later
          rw [List.intercalate_cons_cons, List.append_assoc,
            List.singleton_append, Text.lines_append_feed unreturned, alone,
            below]
          rfl

namespace Scan

/-- The text with single blanks between the tokens of a line. -/
def respaced (text : String) : String :=
  Text.joinLines (respacedLines text)

theorem isTerminator_of_mem_line {text line : List Char}
    (member : line ∈ Text.lines text) :
    ∀ char ∈ line, isTerminator char = false := by
  intro char within
  have among : char ∈ (Text.lines text).flatten :=
    List.mem_flatten_of_mem member within
  rw [flatten_lines, List.mem_filter] at among
  simpa using among.2

theorem isTerminator_of_mem_scan {text : String} {token : Token}
    (member : token ∈ (scan text).tokens) :
    ∀ char ∈ token.text.toList, isTerminator char = false := by
  intro char within
  obtain ⟨line, front, back, found, line_eq, -, -⟩ :=
    (scan_lossless text).piece token member
  refine isTerminator_of_mem_line (List.mem_of_getElem? found) char ?_
  rw [line_eq]
  exact List.mem_append_left _ (List.mem_append_right _ within)

theorem lines_respaced (text : String) :
    Text.lines (respaced text).toList = respacedLines text := by
  have some_line : 0 < lineCount text :=
    List.length_pos_iff.mpr (Text.lines_ne_nil text.toList)
  refine Text.lines_joinLines ?_ ?_
  · rw [respacedLines, Ne, List.map_eq_nil_iff, List.range_eq_nil]
    omega
  · intro line member char within
    obtain ⟨row, -, rfl⟩ := List.mem_map.mp member
    rcases mem_respacedLine within with rfl | ⟨word, written, part⟩
    · rfl
    · obtain ⟨token, among, rfl⟩ := List.mem_map.mp written
      exact isTerminator_of_mem_scan (List.mem_of_mem_filter among) char part

theorem agrees_of_lines {text other : String}
    (written : Text.lines other.toList = respacedLines text) :
    (scan other).Agrees (scan text) := by
  unfold scan
  rw [written, respacedLines_eq]
  exact scanLines_agrees 0 rfl (Text.lines text.toList)

theorem respacedLines_of_lines {text other : String}
    (written : Text.lines other.toList = respacedLines text) :
    respacedLines other = respacedLines text := by
  have same := (agrees_of_lines written).tokens
  have count_eq : lineCount other = lineCount text := by
    rw [lineCount, written, respacedLines, List.length_map, List.length_range]
  rw [respacedLines, count_eq]
  exact List.map_congr_left fun row _ => tokenLine_congr same row

/-- Blanks between tokens do not matter: with single ones the same is read from
every line, whatever ends it, and to write the lines so again changes
nothing. -/
theorem scan_respacedLines (text : String) :
    (∀ other, Text.lines other.toList = respacedLines text →
      (scan other).Agrees (scan text) ∧
        respacedLines other = respacedLines text) ∧
      Text.lines (respaced text).toList = respacedLines text ∧
      respaced (respaced text) = respaced text := by
  refine ⟨fun other written => ⟨?_, ?_⟩, lines_respaced text, ?_⟩
  · exact agrees_of_lines written
  · exact respacedLines_of_lines written
  · rw [respaced, respacedLines_of_lines (lines_respaced text), ← respaced]

/-- A point before a digit, an arrow and an open string keep to themselves. -/
theorem scan_respacedLines_terse :
    Text.lines "a = .5 -> \"b\"\r\n\"c  # d".toList =
        respacedLines "a=.5->\"b\"\n \"c  # d" ∧
      (scan "a = .5 -> \"b\"\r\n\"c  # d").Agrees
        (scan "a=.5->\"b\"\n \"c  # d") := by
  have written : Text.lines "a = .5 -> \"b\"\r\n\"c  # d".toList =
      respacedLines "a=.5->\"b\"\n \"c  # d" := by decide +kernel
  exact ⟨written, ((scan_respacedLines _).1 _ written).1⟩

end Scan

end ComponentLang
