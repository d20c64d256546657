import ComponentLang.Scan.Piece
import ComponentLang.Text.Lines
import ComponentLang.Token.Basic

namespace ComponentLang

namespace Scan

/-- A string that never closes, anchored where it opens. -/
structure LexicalError where
  block : Bool
  token : Token
  deriving DecidableEq, Repr

def unterminatedMessage (block : Bool) : String :=
  if block then "unterminated triple-quoted string literal"
  else "unterminated string literal"

def LexicalError.message (error : LexicalError) : String :=
  unterminatedMessage error.block

def Placed.token (row : Nat) (placed : Placed) : Token where
  line := row
  column := placed.column
  text := placed.piece.text
  kind := placed.piece.kind

/-- The error of a piece: a quoted string has to close on its line. -/
def Placed.error? (row : Nat) (placed : Placed) : Option LexicalError :=
  match placed.piece.shape with
  | .quoted false => some ⟨false, placed.token row⟩
  | _ => none

/-- The token of a piece that leaves a triple-quoted string open. -/
def Placed.opening? (row : Nat) (placed : Placed) : Option Token :=
  match placed.piece.shape with
  | .block false => some (placed.token row)
  | _ => none

/-- What one line gives. `opening` is the token of the triple-quoted string
that is open behind it, if one is. -/
structure LineScan where
  tokens : List Token
  errors : List LexicalError
  opening : Option Token
  deriving DecidableEq, Repr

/-- The scan of a line's part from `column` on, outside of any string. -/
def scanPart (row column : Nat) (line : List Char) : LineScan :=
  let pieces := cut column line
  { tokens := pieces.map (Placed.token row)
    errors := pieces.filterMap (Placed.error? row)
    opening := pieces.findSome? (Placed.opening? row) }

def stringToken (row : Nat) (chars : List Char) : Token where
  line := row
  column := 0
  text := String.ofList chars
  kind := .string

/-- The scan of line `row`, given the string that is open before it. -/
def scanLine (row : Nat) (opening : Option Token) (line : List Char) :
    LineScan :=
  match opening with
  | none => scanPart row 0 line
  | some token =>
      match splitTripleQuote line with
      | none => ⟨[stringToken row line], [], some token⟩
      | some (front, left) =>
          let part := scanPart row (Text.units front) left
          { part with tokens := stringToken row front :: part.tokens }

end Scan

structure Scan where
  tokens : List Token
  errors : List Scan.LexicalError
  deriving DecidableEq, Repr

namespace Scan

/-- Scans the lines from `row` on. `before` is the scan of the lines above it,
latest first. -/
def scanLinesFrom (before : Scan) (row : Nat) (opening : Option Token) :
    List (List Char) → Scan
  | [] =>
      { tokens := before.tokens.reverse
        errors := before.errors.reverse ++
          opening.toList.map fun token => ⟨true, token⟩ }
  | line :: rest =>
      let part := scanLine row opening line
      scanLinesFrom
        ⟨part.tokens.reverse ++ before.tokens,
          part.errors.reverse ++ before.errors⟩
        (row + 1) part.opening rest

/-- The scan of the lines from `row` on, given the string open before them. -/
def scanLines (row : Nat) (opening : Option Token) (lines : List (List Char)) :
    Scan :=
  scanLinesFrom ⟨[], []⟩ row opening lines

end Scan

def scan (text : String) : Scan :=
  Scan.scanLines 0 none (Text.lines text.toList)

namespace Scan

theorem scanLinesFrom_eq (before : Scan) (row : Nat) (opening : Option Token)
    (lines : List (List Char)) :
    scanLinesFrom before row opening lines =
      ⟨before.tokens.reverse ++ (scanLines row opening lines).tokens,
        before.errors.reverse ++ (scanLines row opening lines).errors⟩ := by
  induction lines generalizing before row opening with
  | nil => simp [scanLinesFrom, scanLines]
  | cons line rest induction =>
      rw [scanLines, scanLinesFrom, induction, scanLinesFrom, induction]
      simp

@[simp] theorem scanLines_nil (row : Nat) (opening : Option Token) :
    scanLines row opening [] =
      ⟨[], opening.toList.map fun token => ⟨true, token⟩⟩ := by
  simp [scanLines, scanLinesFrom]

/-- The first line gives its own tokens and errors and hands on the open
string. -/
theorem scanLines_cons (row : Nat) (opening : Option Token) (line : List Char)
    (rest : List (List Char)) :
    scanLines row opening (line :: rest) =
      ⟨(scanLine row opening line).tokens ++
          (scanLines (row + 1) (scanLine row opening line).opening rest).tokens,
        (scanLine row opening line).errors ++
          (scanLines (row + 1)
            (scanLine row opening line).opening rest).errors⟩ := by
  rw [scanLines, scanLinesFrom, scanLinesFrom_eq]
  simp

theorem Placed.error?_eq_none {placed : Placed}
    (closed : placed.piece.shape ≠ .quoted false) (row : Nat) :
    placed.error? row = none := by
  unfold Placed.error?
  split
  · next unclosed => exact absurd unclosed closed
  · rfl

theorem Placed.opening?_eq_none {placed : Placed}
    (closed : placed.piece.shape ≠ .block false) (row : Nat) :
    placed.opening? row = none := by
  unfold Placed.opening?
  split
  · next opens => exact absurd opens closed
  · rfl

theorem scanPart_nil (row column : Nat) :
    scanPart row column [] = ⟨[], [], none⟩ := by
  simp [scanPart]

theorem scanPart_cons_of_isGap {char : Char} (gap : isGap char)
    (row column : Nat) (rest : List Char) :
    scanPart row column (char :: rest) = scanPart row (column + 1) rest := by
  simp only [scanPart, cut_cons_of_isGap column rest gap]

theorem scanPart_cons_of_not_isGap {char : Char} (notGap : ¬isGap char)
    (row column : Nat) (rest : List Char) :
    scanPart row column (char :: rest) =
      let first : Placed := ⟨column, (splitPiece char rest).1⟩
      let later := scanPart row (column + Text.units first.piece.chars)
        (splitPiece char rest).2
      ⟨first.token row :: later.tokens,
        (first.error? row).toList ++ later.errors,
        (first.opening? row).or later.opening⟩ := by
  unfold scanPart
  rw [cut_cons_of_not_isGap column rest notGap]
  simp only [List.map_cons, List.filterMap_cons, List.findSome?_cons]
  congr 1
  · cases Placed.error? row _ <;> rfl
  · cases Placed.opening? row _ <;> rfl

end Scan

end ComponentLang
