namespace ComponentLang

inductive Operator where
  | leftParen | rightParen | leftBracket | rightBracket | leftBrace | rightBrace
  | star | plus | comma | minus | arrow | dot | slash | colon | semicolon
  | equals | backslash
  deriving DecidableEq, Repr

namespace Operator

def all : List Operator :=
  [.leftParen, .rightParen, .leftBracket, .rightBracket, .leftBrace,
    .rightBrace, .star, .plus, .comma, .minus, .arrow, .dot, .slash, .colon,
    .semicolon, .equals, .backslash]

def spelling : Operator → String
  | .leftParen => "("
  | .rightParen => ")"
  | .leftBracket => "["
  | .rightBracket => "]"
  | .leftBrace => "\x7b"
  | .rightBrace => "\x7d"
  | .star => "*"
  | .plus => "+"
  | .comma => ","
  | .minus => "-"
  | .arrow => "->"
  | .dot => "."
  | .slash => "/"
  | .colon => ":"
  | .semicolon => ";"
  | .equals => "="
  | .backslash => "\\"

def name : Operator → String
  | .leftParen => "LeftParen"
  | .rightParen => "RightParen"
  | .leftBracket => "LeftBracket"
  | .rightBracket => "RightBracket"
  | .leftBrace => "LeftBrace"
  | .rightBrace => "RightBrace"
  | .star => "Star"
  | .plus => "Plus"
  | .comma => "Comma"
  | .minus => "Minus"
  | .arrow => "Arrow"
  | .dot => "Dot"
  | .slash => "Slash"
  | .colon => "Colon"
  | .semicolon => "Semicolon"
  | .equals => "Equals"
  | .backslash => "Backslash"

def ofSpelling? (text : String) : Option Operator :=
  all.find? fun operator => operator.spelling == text

def binary : List Operator :=
  [.minus, .plus, .star, .slash]

theorem ofSpelling?_spelling (operator : Operator) :
    ofSpelling? operator.spelling = some operator := by
  cases operator <;> decide

theorem ofSpelling?_eq_some_iff {text : String} {operator : Operator} :
    ofSpelling? text = some operator ↔ operator.spelling = text := by
  constructor
  · intro found
    simpa using List.find?_some found
  · rintro rfl
    exact ofSpelling?_spelling operator

theorem spelling_injective {left right : Operator}
    (same : left.spelling = right.spelling) : left = right := by
  have found := ofSpelling?_spelling left
  rw [same, ofSpelling?_spelling right] at found
  exact (Option.some.inj found).symm

end Operator

end ComponentLang
