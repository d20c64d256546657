import ComponentLang.Text.CodeUnit
import ComponentLang.Token.Kind
import ComponentLang.Token.Modifiers

namespace ComponentLang

/-- Lines and columns count from zero, columns in UTF-16 code units. -/
structure Position where
  line : Nat
  column : Nat
  deriving DecidableEq, Repr

namespace Position

/-- Document order: by line, then by column. -/
def le (first second : Position) : Bool :=
  first.line < second.line ||
    (first.line == second.line && first.column ≤ second.column)

instance : LE Position := ⟨fun first second => first.le second⟩

instance (first second : Position) : Decidable (first ≤ second) :=
  inferInstanceAs (Decidable (first.le second = true))

theorem le_iff {first second : Position} :
    first.le second ↔
      first.line < second.line ∨
        first.line = second.line ∧ first.column ≤ second.column := by
  simp [le]

theorem le_trans {first second third : Position} (front : first.le second)
    (back : second.le third) : first.le third := by
  rw [le_iff] at *
  omega

theorem le_total (first second : Position) :
    first.le second || second.le first := by
  rw [Bool.or_eq_true, le_iff, le_iff]
  omega

end Position

structure Token where
  line : Nat
  column : Nat
  text : String
  kind : TokenKind
  modifiers : Modifiers := {}
  deriving DecidableEq, Repr

namespace Token

def length (token : Token) : Nat :=
  Text.units token.text.toList

def start (token : Token) : Position :=
  ⟨token.line, token.column⟩

def stop (token : Token) : Position :=
  ⟨token.line, token.column + token.length⟩

/-- A token of no length, which stands for a place between tokens. -/
def marker (place : Position) : Token where
  line := place.line
  column := place.column
  text := ""
  kind := .nil

/-- Whether the token carries no meaning for the grammar: a comment, an
annotation, or the sign that continues a line. -/
def isTrivia (token : Token) : Bool :=
  token.kind == .comment || token.kind == .remark ||
    (token.kind == .operator && token.text == "\\")

/-- Whether the token is the defining occurrence of a name. -/
def isDeclaration (token : Token) : Bool :=
  token.modifiers.declaration

def reclassify (token : Token) (kind : TokenKind) (modifiers : Modifiers) :
    Token :=
  { token with kind, modifiers }

@[simp] theorem start_marker (place : Position) : (marker place).start = place :=
  rfl

@[simp] theorem length_marker (place : Position) : (marker place).length = 0 :=
  rfl

@[simp] theorem start_reclassify (token : Token) (kind : TokenKind)
    (modifiers : Modifiers) :
    (token.reclassify kind modifiers).start = token.start := rfl

@[simp] theorem stop_reclassify (token : Token) (kind : TokenKind)
    (modifiers : Modifiers) :
    (token.reclassify kind modifiers).stop = token.stop := rfl

end Token

end ComponentLang
