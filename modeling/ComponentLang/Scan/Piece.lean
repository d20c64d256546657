import ComponentLang.Text.CodeUnit
import ComponentLang.Token.Kind
import ComponentLang.Vocabulary.Literal
import ComponentLang.Vocabulary.Operator

namespace ComponentLang.Scan

/-- The kind that a word or operator has by its spelling alone. -/
def lexicalKind (text : String) : TokenKind :=
  if (BuiltinType.ofSpelling? text).isSome then .type
  else if (Keyword.ofSpelling? text).isSome then .keyword
  else if (Operator.ofSpelling? text).isSome then .operator
  else if Literal.isNumber text then .number
  else .nil

/-- What a piece is. A string need not be closed on its line. -/
inductive Shape where
  | word
  | comment
  | remark
  | quoted (closed : Bool)
  | block (closed : Bool)
  deriving DecidableEq, Repr

structure Piece where
  shape : Shape
  chars : List Char
  deriving DecidableEq, Repr

namespace Piece

def text (piece : Piece) : String :=
  String.ofList piece.chars

def kind (piece : Piece) : TokenKind :=
  match piece.shape with
  | .word => lexicalKind piece.text
  | .comment => .comment
  | .remark => .remark
  | .quoted _ | .block _ => .string

end Piece

/-- A breakpoint ends a word, but for a point right before a digit. -/
def endsWord (char : Char) (rest : List Char) : Bool :=
  Literal.isBreakpoint char &&
    !(char == '.' && rest.head?.any Char.isDigit)

/-- The longest leading word, which is empty before a breakpoint. -/
def splitWord : List Char → List Char × List Char
  | [] => ([], [])
  | char :: rest =>
      if endsWord char rest then ([], char :: rest)
      else
        let (word, left) := splitWord rest
        (char :: word, left)

/-- Up to and with the first quote that no backslash escapes. -/
def splitQuote : List Char → Option (List Char × List Char)
  | [] => none
  | '"' :: rest => some (['"'], rest)
  | '\\' :: char :: rest =>
      (splitQuote rest).map fun (front, left) => ('\\' :: char :: front, left)
  | char :: rest =>
      (splitQuote rest).map fun (front, left) => (char :: front, left)

/-- Up to and with the first three quotes in a row. -/
def splitTripleQuote : List Char → Option (List Char × List Char)
  | [] => none
  | '"' :: '"' :: '"' :: rest => some (['"', '"', '"'], rest)
  | char :: rest =>
      (splitTripleQuote rest).map fun (front, left) => (char :: front, left)

/-- The piece at the front of a line that is neither empty nor blank there. -/
def splitPiece (char : Char) (rest : List Char) : Piece × List Char :=
  match char, rest with
  | '#', rest => (⟨.comment, '#' :: rest⟩, [])
  | '@', rest => (⟨.remark, '@' :: rest⟩, [])
  | '"', '"' :: '"' :: rest =>
      match splitTripleQuote rest with
      | some (front, left) =>
          (⟨.block true, '"' :: '"' :: '"' :: front⟩, left)
      | none => (⟨.block false, '"' :: '"' :: '"' :: rest⟩, [])
  | '"', rest =>
      match splitQuote rest with
      | some (front, left) => (⟨.quoted true, '"' :: front⟩, left)
      | none => (⟨.quoted false, '"' :: rest⟩, [])
  | '-', '>' :: rest => (⟨.word, ['-', '>']⟩, rest)
  | char, rest =>
      if endsWord char rest then (⟨.word, [char]⟩, rest)
      else
        let (word, left) := splitWord rest
        (⟨.word, char :: word⟩, left)

/-! Nothing is lost in between. -/

theorem splitWord_append (line : List Char) :
    (splitWord line).1 ++ (splitWord line).2 = line := by
  fun_induction splitWord line <;> simp_all

theorem splitQuote_append {line front left : List Char}
    (found : splitQuote line = some (front, left)) : front ++ left = line := by
  fun_induction splitQuote line generalizing front left with
  | case1 => simp at found
  | case2 rest =>
      obtain ⟨rfl, rfl⟩ := by simpa using found
      rfl
  | case3 char rest induction =>
      obtain ⟨inner, inner_eq, rfl⟩ := by simpa using found
      simp [induction inner_eq]
  | case4 char rest notQuote notEscape induction =>
      obtain ⟨inner, inner_eq, rfl⟩ := by simpa using found
      simp [induction inner_eq]

theorem splitTripleQuote_append {line front left : List Char}
    (found : splitTripleQuote line = some (front, left)) :
    front ++ left = line := by
  fun_induction splitTripleQuote line generalizing front left with
  | case1 => simp at found
  | case2 rest =>
      obtain ⟨rfl, rfl⟩ := by simpa using found
      rfl
  | case3 char rest notTriple induction =>
      obtain ⟨inner, inner_eq, rfl⟩ := by simpa using found
      simp [induction inner_eq]

theorem splitPiece_append (char : Char) (rest : List Char) :
    (splitPiece char rest).1.chars ++ (splitPiece char rest).2 =
      char :: rest := by
  fun_cases splitPiece char rest with
  | case1 => simp
  | case2 => simp
  | case3 rest front left found => simp [splitTripleQuote_append found]
  | case4 => simp
  | case5 rest notTriple front left found => simp [splitQuote_append found]
  | case6 => simp
  | case7 => simp
  | case8 => simp
  | case9 char rest _ _ _ _ _ continues word left split_eq =>
      have whole := splitWord_append rest
      simp_all

theorem splitPiece_ne_nil (char : Char) (rest : List Char) :
    (splitPiece char rest).1.chars ≠ [] := by
  fun_cases splitPiece char rest <;> simp

theorem length_splitPiece (char : Char) (rest : List Char) :
    (splitPiece char rest).2.length < (char :: rest).length := by
  rw [← splitPiece_append char rest, List.length_append]
  have := List.length_pos_iff.mpr (splitPiece_ne_nil char rest)
  omega

/-! Cutting a whole line. -/

def isGap (char : Char) : Bool :=
  char == ' ' || char == '\t'

structure Placed where
  column : Nat
  piece : Piece
  deriving DecidableEq, Repr

/-- Cuts what is left of a line from `column` on; `found` holds the pieces
before it, latest first. -/
def cutFrom (found : List Placed) (column : Nat) : List Char → List Placed
  | [] => found.reverse
  | char :: rest =>
      if isGap char then cutFrom found (column + 1) rest
      else
        cutFrom (⟨column, (splitPiece char rest).1⟩ :: found)
          (column + Text.units (splitPiece char rest).1.chars)
          (splitPiece char rest).2
termination_by line => line.length
decreasing_by
  · simp
  · exact length_splitPiece char rest

def cut (column : Nat) (line : List Char) : List Placed :=
  cutFrom [] column line

theorem cutFrom_append (found before : List Placed) (column : Nat)
    (line : List Char) :
    cutFrom (found ++ before) column line =
      before.reverse ++ cutFrom found column line := by
  fun_induction cutFrom found column line with
  | case1 => simp [cutFrom]
  | case2 found column char rest gap induction =>
      rw [cutFrom, if_pos gap, induction]
  | case3 found column char rest notGap induction =>
      rw [cutFrom, if_neg notGap]
      exact induction

@[simp] theorem cut_nil (column : Nat) : cut column [] = [] := by
  simp [cut, cutFrom]

theorem cut_cons_of_isGap {char : Char} (column : Nat) (rest : List Char)
    (gap : isGap char) : cut column (char :: rest) = cut (column + 1) rest := by
  rw [cut, cutFrom, if_pos gap, cut]

theorem cut_cons_of_not_isGap {char : Char} (column : Nat) (rest : List Char)
    (notGap : ¬isGap char) :
    cut column (char :: rest) =
      ⟨column, (splitPiece char rest).1⟩ ::
        cut (column + Text.units (splitPiece char rest).1.chars)
          (splitPiece char rest).2 := by
  rw [cut, cutFrom, if_neg notGap, cut]
  simpa using cutFrom_append [] [⟨column, (splitPiece char rest).1⟩]
    (column + Text.units (splitPiece char rest).1.chars)
    (splitPiece char rest).2

end ComponentLang.Scan
