import ComponentLang.Proofs.Scan.Append
import ComponentLang.Proofs.Scan.Brackets
import ComponentLang.Proofs.Syntax.Beginnings
import ComponentLang.Proofs.Token.Shift

namespace ComponentLang

theorem Text.getLast?_ne_of_cons {char other : Char} {rest : List Char}
    (different : (char :: rest).getLast? ≠ some other) :
    rest.getLast? ≠ some other := by
  cases rest with
  | nil => nofun
  | cons next further => rwa [List.getLast?_cons_cons] at different

/-- A line feed between two texts ends a line, unless a carriage return in front
of it has ended it. -/
theorem Text.lines_append_feed {front : List Char}
    (unreturned : front.getLast? ≠ some '\r') (back : List Char) :
    lines (front ++ '\n' :: back) = lines front ++ lines back := by
  suffices general : ∀ earlier line,
      linesFrom earlier line (front ++ '\n' :: back) =
        linesFrom earlier line front ++ lines back from general [] []
  intro earlier line
  fun_induction linesFrom earlier line front with
  | case1 earlier line =>
      rw [List.nil_append, linesFrom.eq_4, linesFrom_eq_append]
      rfl
  | case2 earlier line rest induction =>
      rw [List.cons_append, List.cons_append, linesFrom.eq_2]
      exact induction (getLast?_ne_of_cons (getLast?_ne_of_cons unreturned))
  | case3 earlier line rest unpaired induction =>
      rw [List.cons_append, linesFrom.eq_3]
      · exact induction (getLast?_ne_of_cons unreturned)
      · cases rest with
        | nil => exact absurd rfl unreturned
        | cons next further =>
            rintro below same
            obtain ⟨rfl, -⟩ := List.cons.inj same
            exact unpaired further rfl
  | case4 earlier line rest induction =>
      rw [List.cons_append, linesFrom.eq_4]
      exact induction (getLast?_ne_of_cons unreturned)
  | case5 earlier line char rest unpaired no_return no_feed induction =>
      rw [List.cons_append, linesFrom.eq_5 _ _ _ _ _ no_return no_feed]
      · exact induction (getLast?_ne_of_cons unreturned)
      · exact fun _ same _ => no_return same

def lineCount (text : String) : Nat :=
  (Text.lines text.toList).length

namespace Scan

/-! The same lines further down. -/

def LexicalError.shift (count : Nat) (error : LexicalError) : LexicalError :=
  { error with token := error.token.shift count }

def LineScan.shift (count : Nat) (part : LineScan) : LineScan where
  tokens := part.tokens.map (Token.shift count)
  errors := part.errors.map (LexicalError.shift count)
  opening := part.opening.map (Token.shift count)

theorem Placed.error?_shift (row count : Nat) (placed : Placed) :
    placed.error? (row + count) =
      (placed.error? row).map (LexicalError.shift count) := by
  unfold Placed.error?
  split <;> rfl

theorem Placed.opening?_shift (row count : Nat) (placed : Placed) :
    placed.opening? (row + count) =
      (placed.opening? row).map (Token.shift count) := by
  unfold Placed.opening?
  split <;> rfl

theorem scanPart_shift (row count column : Nat) (line : List Char) :
    scanPart (row + count) column line = (scanPart row column line).shift count := by
  have errors : (cut column line).filterMap (Placed.error? (row + count)) =
      ((cut column line).filterMap (Placed.error? row)).map
        (LexicalError.shift count) := by
    rw [List.map_filterMap]
    exact congrArg (List.filterMap · _)
      (funext fun placed => placed.error?_shift row count)
  have opening : (cut column line).findSome? (Placed.opening? (row + count)) =
      ((cut column line).findSome? (Placed.opening? row)).map
        (Token.shift count) := by
    rw [List.map_findSome?]
    exact congrArg (List.findSome? · _)
      (funext fun placed => placed.opening?_shift row count)
  simp only [scanPart, LineScan.shift, errors, opening, List.map_map]
  rfl

theorem scanLine_shift (row count : Nat) (opening : Option Token)
    (line : List Char) :
    scanLine (row + count) (opening.map (Token.shift count)) line =
      (scanLine row opening line).shift count := by
  cases opening with
  | none => exact scanPart_shift row count 0 line
  | some token =>
      simp only [scanLine, Option.map_some]
      cases splitTripleQuote line with
      | none => rfl
      | some parts =>
          simp only [scanPart_shift]
          rfl

theorem scanLines_shift (row count : Nat) (opening : Option Token)
    (lines : List (List Char)) :
    scanLines (row + count) (opening.map (Token.shift count)) lines =
      ⟨(scanLines row opening lines).tokens.map (Token.shift count),
        (scanLines row opening lines).errors.map
          (LexicalError.shift count)⟩ := by
  induction lines generalizing row opening with
  | nil =>
      cases opening <;> simp [LexicalError.shift]
  | cons line rest induction =>
      have below := induction (row + 1) (scanLine row opening line).opening
      rw [Nat.add_right_comm] at below
      rw [scanLines_cons, scanLines_cons, scanLine_shift, LineScan.shift, below]
      simp only [List.map_append]

/-! Lines without quotes. -/

def Shape.isString : Shape → Bool
  | .quoted _ | .block _ => true
  | .word | .comment | .remark => false

theorem kind_ne_string {piece : Piece}
    (plain : piece.shape.isString = false) : piece.kind ≠ .string := by
  intro string
  unfold Piece.kind at string
  cases shape_eq : piece.shape with
  | word =>
      rw [shape_eq] at string
      exact lexicalKind_ne_string piece.text string
  | comment | remark =>
      rw [shape_eq] at string
      nomatch string
  | quoted | block =>
      rw [shape_eq] at plain
      nomatch plain

theorem isString_splitPiece {char : Char} (unquoted : char ≠ '"')
    (rest : List Char) :
    (splitPiece char rest).1.shape.isString = false := by
  fun_cases splitPiece char rest <;> first | rfl | exact absurd rfl unquoted

theorem isString_of_mem_cut {column : Nat} {line : List Char}
    (unquoted : '"' ∉ line) {placed : Placed} (member : placed ∈ cut column line) :
    placed.piece.shape.isString = false := by
  obtain ⟨char, rest, piece_eq, suffix⟩ := exists_of_mem_cut member
  have within : char ∈ line := suffix.subset List.mem_cons_self
  rw [piece_eq]
  exact isString_splitPiece (ne_of_mem_of_not_mem within unquoted) rest

theorem scanPart_of_unquoted {line : List Char} (unquoted : '"' ∉ line)
    (row column : Nat) :
    (∀ token ∈ (scanPart row column line).tokens, token.kind ≠ .string) ∧
      (scanPart row column line).errors = [] ∧
      (scanPart row column line).opening = none := by
  have shapes := fun placed (member : placed ∈ cut column line) =>
    isString_of_mem_cut unquoted member
  refine ⟨?_, ?_, ?_⟩
  · intro token member
    obtain ⟨placed, among, rfl⟩ := List.mem_map.mp member
    exact kind_ne_string (shapes placed among)
  · rw [scanPart, List.filterMap_eq_nil_iff]
    intro placed member
    refine placed.error?_eq_none (fun quoted => ?_) row
    have shape := shapes placed member
    rw [quoted] at shape
    cases shape
  · rw [scanPart, List.findSome?_eq_none_iff]
    intro placed member
    refine placed.opening?_eq_none (fun block => ?_) row
    have shape := shapes placed member
    rw [block] at shape
    cases shape

theorem scanRows_of_unquoted {lines : List (List Char)}
    (unquoted : ∀ line ∈ lines, '"' ∉ line) (row : Nat) :
    (∀ token ∈ (scanRows row none lines).tokens, token.kind ≠ .string) ∧
      (scanRows row none lines).errors = [] ∧
      (scanRows row none lines).opening = none := by
  induction lines generalizing row with
  | nil => exact ⟨nofun, rfl, rfl⟩
  | cons line rest induction =>
      obtain ⟨here, later⟩ := List.forall_mem_cons.mp unquoted
      obtain ⟨tokens, errors, opening⟩ := scanPart_of_unquoted here row 0
      obtain ⟨others, no_errors, unopened⟩ := induction later (row + 1)
      simp only [scanRows, scanLine, opening, errors, no_errors, unopened]
      exact ⟨List.forall_mem_append.mpr ⟨tokens, others⟩, rfl, trivial⟩

theorem infix_of_mem_scan {text : String} {token : Token}
    (member : token ∈ (scan text).tokens) :
    token.text.toList <:+: text.toList := by
  obtain ⟨index, line, row_eq, found⟩ :=
    (laidLines_scan text).getElem?_line token member
  have among : token ∈ (scan text).tokens.filter fun other =>
      other.line == 0 + index := by
    rw [List.mem_filter, beq_iff_eq]
    exact ⟨member, row_eq⟩
  obtain ⟨front, back, line_eq, -, -⟩ :=
    ((laidLines_scan text).laid_filter index line found).piece token among
  have within : token.text.toList <:+: line := ⟨front, back, line_eq.symm⟩
  exact within.trans (infix_of_mem_lines (List.mem_of_getElem? found))

/-! Two texts, one below the other. -/

theorem lines_stacked {front : String}
    (unreturned : front.toList.getLast? ≠ some '\r') (back : String) :
    Text.lines (front ++ "\n" ++ back).toList =
      Text.lines front.toList ++ Text.lines back.toList := by
  rw [String.toList_append, String.toList_append, List.append_assoc]
  exact Text.lines_append_feed unreturned back.toList

theorem opening_eq_none {front : String}
    (closed : ∀ error ∈ (scan front).errors, error.block = false) :
    (scanRows 0 none (Text.lines front.toList)).opening = none := by
  rw [scan, scanLines_eq_scanRows] at closed
  rw [Option.eq_none_iff_forall_ne_some]
  intro token opened
  have reported := closed ⟨true, token⟩
    (List.mem_append_right _ (by simp [opened]))
  cases reported

/-- Below a text that leaves no string open, another one is scanned as it is on
its own. -/
theorem scan_of_unopened {front : String}
    (unreturned : front.toList.getLast? ≠ some '\r')
    (unopened : (scanRows 0 none (Text.lines front.toList)).opening = none)
    (back : String) :
    scan (front ++ "\n" ++ back) =
      ⟨(scan front).tokens ++
          (scan back).tokens.map (Token.shift (lineCount front)),
        (scan front).errors ++
          (scan back).errors.map (LexicalError.shift (lineCount front))⟩ := by
  have above := scanLines_eq_scanRows 0 none (Text.lines front.toList)
  have below := scanLines_shift 0 (lineCount front) none
    (Text.lines back.toList)
  rw [unopened, Option.toList_none, List.map_nil, List.append_nil] at above
  rw [Option.map_none] at below
  unfold scan
  rw [lines_stacked unreturned, scanLines_append, unopened, ← lineCount, below,
    above]

/-- The text below is scanned as it is on its own, and the one above gives its
tokens alone. -/
theorem scan_stacked {front : String} (unquoted : '"' ∉ front.toList)
    (unreturned : front.toList.getLast? ≠ some '\r') (back : String) :
    (scan (front ++ "\n" ++ back)).tokens =
        (scan front).tokens ++
          (scan back).tokens.map (Token.shift (lineCount front)) ∧
      (scan (front ++ "\n" ++ back)).errors =
        (scan back).errors.map (LexicalError.shift (lineCount front)) ∧
      ∀ token ∈ (scan front).tokens, token.kind ≠ .string := by
  have unquoted_lines : ∀ line ∈ Text.lines front.toList, '"' ∉ line :=
    fun line member quote =>
      unquoted ((infix_of_mem_lines member).subset quote)
  obtain ⟨plain, no_errors, unopened⟩ := scanRows_of_unquoted unquoted_lines 0
  have above := scanLines_eq_scanRows 0 none (Text.lines front.toList)
  rw [unopened, no_errors, ← scan] at above
  rw [scan_of_unopened unreturned unopened, above]
  exact ⟨rfl, rfl, plain⟩

/-- Scanning goes through a text line by line: behind a line feed another text
gives what it gives on its own, below the lines of the first one, as long as
that leaves no string open and the line feed is a terminator by itself. -/
theorem scan_append_feed {front : String}
    (unreturned : front.toList.getLast? ≠ some '\r')
    (closed : ∀ error ∈ (scan front).errors, error.block = false)
    (back : String) :
    scan (front ++ "\n" ++ back) =
      ⟨(scan front).tokens ++
          (scan back).tokens.map (Token.shift (lineCount front)),
        (scan front).errors ++
          (scan back).errors.map (LexicalError.shift (lineCount front))⟩ :=
  scan_of_unopened unreturned (opening_eq_none closed) back

/-- A string that closes on a later line, and two that do not. -/
theorem scan_append_feed_openStrings :
    "a \"\"\"b\r\n\"\"\" \"c".toList.getLast? ≠ some '\r' ∧
      (∀ error ∈ (scan "a \"\"\"b\r\n\"\"\" \"c").errors,
        error.block = false) ∧
      scan ("a \"\"\"b\r\n\"\"\" \"c" ++ "\n" ++ "d\n\"\"\"") =
        ⟨(scan "a \"\"\"b\r\n\"\"\" \"c").tokens ++
            (scan "d\n\"\"\"").tokens.map (Token.shift 2),
          (scan "a \"\"\"b\r\n\"\"\" \"c").errors ++
            (scan "d\n\"\"\"").errors.map (LexicalError.shift 2)⟩ := by
  have unreturned :
      "a \"\"\"b\r\n\"\"\" \"c".toList.getLast? ≠ some '\r' := by
    decide +kernel
  have closed : ∀ error ∈ (scan "a \"\"\"b\r\n\"\"\" \"c").errors,
      error.block = false := by
    decide +kernel
  exact ⟨unreturned, closed, scan_append_feed unreturned closed _⟩

end Scan

end ComponentLang
