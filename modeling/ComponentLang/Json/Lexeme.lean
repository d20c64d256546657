namespace ComponentLang.Json

inductive Mark where
  | openBrace | closeBrace | openBracket | closeBracket | comma | colon
  deriving DecidableEq, Repr

inductive Lexeme where
  | mark (mark : Mark)
  | null
  | bool (value : Bool)
  | number (literal : String)
  | string (text : Option String)
  deriving DecidableEq, Repr

namespace Lexeme

/-! Numbers: a sign, digits without a leading zero, a fraction, an exponent. -/

def isNumberChar (char : Char) : Bool :=
  char.isDigit || char == '-' || char == '+' || char == '.' || char == 'e' ||
    char == 'E'

/-- Digits that may end there or go on with something that `next` accepts. -/
def isDigitsThen (next : List Char → Bool) (chars : List Char) : Bool :=
  !(chars.takeWhile Char.isDigit).isEmpty && next (chars.dropWhile Char.isDigit)

def isExponent : List Char → Bool
  | [] => true
  | char :: rest =>
      (char == 'e' || char == 'E') &&
        match rest with
        | '+' :: digits | '-' :: digits => isDigitsThen List.isEmpty digits
        | digits => isDigitsThen List.isEmpty digits

def isFraction : List Char → Bool
  | '.' :: rest => isDigitsThen isExponent rest
  | rest => isExponent rest

def isMagnitude : List Char → Bool
  | '0' :: rest => isFraction rest
  | rest => isDigitsThen isFraction rest

def isNumberLiteral : List Char → Bool
  | '-' :: rest => isMagnitude rest
  | rest => isMagnitude rest

/-! Strings: characters and escapes up to the closing quote. -/

/-- One part of a string. A code unit is one named by four hexadecimal digits,
and may be half of a surrogate pair. -/
inductive Part where
  | char (char : Char)
  | unit (code : Nat)
  deriving DecidableEq, Repr

def hexValue? (char : Char) : Option Nat :=
  if char.isDigit then some (char.toNat - '0'.toNat)
  else if 'a' ≤ char ∧ char ≤ 'f' then some (char.toNat - 'a'.toNat + 10)
  else if 'A' ≤ char ∧ char ≤ 'F' then some (char.toNat - 'A'.toNat + 10)
  else none

def unit? (first second third fourth : Char) : Option Nat := do
  let first ← hexValue? first
  let second ← hexValue? second
  let third ← hexValue? third
  let fourth ← hexValue? fourth
  return 4096 * first + 256 * second + 16 * third + fourth

def escaped? : Char → Option Char
  | '"' => some '"'
  | '\\' => some '\\'
  | '/' => some '/'
  | 'b' => some '\x08'
  | 'f' => some '\x0c'
  | 'n' => some '\n'
  | 'r' => some '\r'
  | 't' => some '\t'
  | _ => none

/-- The parts of a string up to its closing quote, and what stands behind the
quote. `found` holds the parts before, latest first. -/
def splitString (found : List Part) :
    List Char → Option (List Part × List Char)
  | [] => none
  | '"' :: rest => some (found.reverse, rest)
  | '\\' :: 'u' :: first :: second :: third :: fourth :: rest =>
      match unit? first second third fourth with
      | some code => splitString (.unit code :: found) rest
      | none => none
  | '\\' :: letter :: rest =>
      match escaped? letter with
      | some char => splitString (.char char :: found) rest
      | none => none
  | char :: rest =>
      if char == '\\' || char.toNat < 0x20 then none
      else splitString (.char char :: found) rest

/-- The text of a string's parts. `found` holds the characters before, latest
first. A high surrogate and a low one behind it make one character. -/
def textOf (found : List Char) : List Part → Option String
  | [] => some (String.ofList found.reverse)
  | .char char :: rest => textOf (char :: found) rest
  | .unit code :: rest =>
      if code < 0xD800 ∨ 0xDFFF < code then
        textOf (Char.ofNat code :: found) rest
      else
        match rest with
        | .unit low :: rest =>
            if code < 0xDC00 ∧ 0xDC00 ≤ low ∧ low ≤ 0xDFFF then
              textOf (Char.ofNat
                (0x10000 + 0x400 * (code - 0xD800) + (low - 0xDC00)) :: found)
                rest
            else none
        | _ => none

/-! The lexemes of a whole text. -/

def isGap (char : Char) : Bool :=
  char == ' ' || char == '\t' || char == '\n' || char == '\r'

def mark? : Char → Option Mark
  | '{' => some .openBrace
  | '}' => some .closeBrace
  | '[' => some .openBracket
  | ']' => some .closeBracket
  | ',' => some .comma
  | ':' => some .colon
  | _ => none

/-- The lexeme at the front of a text that is neither empty nor blank there,
and what stands behind it. -/
def split? : List Char → Option (Lexeme × List Char)
  | 'n' :: 'u' :: 'l' :: 'l' :: rest => some (.null, rest)
  | 't' :: 'r' :: 'u' :: 'e' :: rest => some (.bool true, rest)
  | 'f' :: 'a' :: 'l' :: 's' :: 'e' :: rest => some (.bool false, rest)
  | '"' :: rest =>
      (splitString [] rest).map fun (parts, left) =>
        (.string (textOf [] parts), left)
  | [] => none
  | char :: rest =>
      match mark? char with
      | some sign => some (.mark sign, rest)
      | none =>
          let literal := char :: rest.takeWhile isNumberChar
          if isNumberLiteral literal then
            some (.number (String.ofList literal), rest.dropWhile isNumberChar)
          else none

theorem length_splitString {found parts : List Part} {chars left : List Char}
    (split : splitString found chars = some (parts, left)) :
    left.length < chars.length := by
  fun_induction splitString found chars generalizing parts left with
  | case1 => simp at split
  | case2 found rest =>
      obtain ⟨-, rfl⟩ := by simpa using split
      simp
  | case3 found first second third fourth rest code unit_eq induction =>
      have := induction split
      simp only [List.length_cons]
      omega
  | case4 => simp at split
  | case5 found letter rest notUnit char char_eq induction =>
      have := induction split
      simp only [List.length_cons]
      omega
  | case6 => simp at split
  | case7 => simp at split
  | case8 found char rest notQuote notUnit notEscape plain induction =>
      have := induction split
      simp only [List.length_cons]
      omega

theorem length_split? {chars left : List Char} {lexeme : Lexeme}
    (split : split? chars = some (lexeme, left)) :
    left.length < chars.length := by
  fun_cases split? chars with
  | case1 rest =>
      obtain ⟨-, rfl⟩ := by simpa [split?] using split
      simp only [List.length_cons]
      omega
  | case2 rest =>
      obtain ⟨-, rfl⟩ := by simpa [split?] using split
      simp only [List.length_cons]
      omega
  | case3 rest =>
      obtain ⟨-, rfl⟩ := by simpa [split?] using split
      simp only [List.length_cons]
      omega
  | case4 rest =>
      obtain ⟨parts, parts_eq, -⟩ := by simpa [split?] using split
      have := length_splitString parts_eq
      simp only [List.length_cons]
      omega
  | case5 => simp [split?] at split
  | case6 char rest _ _ _ _ sign sign_eq =>
      obtain ⟨-, rfl⟩ := by simpa [split?, sign_eq] using split
      simp
  | case7 char rest _ _ _ _ noMark literal isLiteral =>
      obtain ⟨-, -, rfl⟩ := by simpa [split?, noMark, isLiteral] using split
      have := (List.dropWhile_sublist isNumberChar (l := rest)).length_le
      simp only [List.length_cons]
      omega
  | case8 char rest _ _ _ _ noMark literal isLiteral =>
      simp [split?, noMark] at split
      exact absurd split.1 isLiteral

/-- The lexemes of what is left of a text; `found` holds those before it,
latest first. -/
def readFrom (found : List Lexeme) : List Char → Option (List Lexeme)
  | [] => some found.reverse
  | char :: rest =>
      if isGap char then readFrom found rest
      else
        match _ : split? (char :: rest) with
        | some (lexeme, left) => readFrom (lexeme :: found) left
        | none => none
termination_by chars => chars.length
decreasing_by
  · simp
  · exact length_split? (by assumption)

def read? (text : String) : Option (List Lexeme) :=
  readFrom [] text.toList

end Lexeme

end ComponentLang.Json
