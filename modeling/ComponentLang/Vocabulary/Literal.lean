import ComponentLang.Vocabulary.BuiltinType
import ComponentLang.Vocabulary.Keyword

namespace ComponentLang.Literal

/-- Characters that end the token being read. -/
def isBreakpoint : Char → Bool
  | ' ' | '\t' | '#' | '@' | '"' | '\\' | '(' | ')' | '[' | ']' | '{' | '}'
  | '*' | '+' | ',' | '-' | '.' | '/' | ':' | ';' | '=' => true
  | _ => false

def isHexDigit (char : Char) : Bool :=
  char.isDigit || ('a' ≤ char && char ≤ 'f') || ('A' ≤ char && char ≤ 'F')

/-- Decimal digits, with at most one point before, between or behind them. -/
def isDecimal (chars : List Char) : Bool :=
  let whole := chars.takeWhile (· != '.')
  match chars.dropWhile (· != '.') with
  | [] => !whole.isEmpty && whole.all Char.isDigit
  | _ :: fraction =>
      !(whole.isEmpty && fraction.isEmpty) &&
        whole.all Char.isDigit && fraction.all Char.isDigit

def isUnsigned : List Char → Bool
  | '0' :: 'x' :: digits | '0' :: 'X' :: digits =>
      !digits.isEmpty && digits.all isHexDigit
  | chars => isDecimal chars

def isNumber (text : String) : Bool :=
  match text.toList with
  | '-' :: chars => isUnsigned chars
  | chars => isUnsigned chars

def isNameStart (char : Char) : Bool :=
  char.isAlpha || char == '_'

def isNameChar (char : Char) : Bool :=
  char.isAlphanum || char == '_'

/-- An ASCII letter or `_`, then ASCII letters, digits or `_`. -/
def isPlainName : List Char → Bool
  | [] => false
  | first :: rest => isNameStart first && rest.all isNameChar

def isReserved (text : String) : Bool :=
  (Keyword.ofSpelling? text).any (fun word => !word.isContextual) ||
    (BuiltinType.ofSpelling? text).isSome

/-- A single leading `$` lets a reserved word be used as a name. -/
def isIdentifier (text : String) : Bool :=
  match text.toList with
  | '$' :: escaped => isPlainName escaped
  | chars => !isReserved text && isPlainName chars

/-- The name that an identifier stands for: `$x` and `x` are one name. -/
def nameOf (identifier : String) : String :=
  match identifier.toList with
  | '$' :: escaped => String.ofList escaped
  | _ => identifier

end ComponentLang.Literal
