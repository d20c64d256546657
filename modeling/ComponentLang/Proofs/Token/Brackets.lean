import ComponentLang.Token.Cursor
import ComponentLang.Vocabulary.Literal

namespace ComponentLang

inductive Bracket where
  | round | square | curly
  deriving DecidableEq, Repr

namespace Bracket

def all : List Bracket :=
  [.round, .square, .curly]

def opener : Bracket → Operator
  | .round => .leftParen
  | .square => .leftBracket
  | .curly => .leftBrace

def closer : Bracket → Operator
  | .round => .rightParen
  | .square => .rightBracket
  | .curly => .rightBrace

def openedBy? (text : String) : Option Bracket :=
  all.find? fun bracket => text == bracket.opener.spelling

def closedBy? (text : String) : Option Bracket :=
  all.find? fun bracket => text == bracket.closer.spelling

/-- The brackets open behind a spelling, innermost first, when `opened` are
open before it. There is no answer if it closes another than the innermost. -/
def read (text : String) (opened : List Bracket) : Option (List Bracket) :=
  match openedBy? text, closedBy? text, opened with
  | some bracket, _, opened => some (bracket :: opened)
  | none, none, opened => some opened
  | none, some bracket, inner :: outer =>
      if inner == bracket then some outer else none
  | none, some _, [] => none

theorem read_append {text : String} {opened rest : List Bracket}
    (outer : List Bracket) (known : read text opened = some rest) :
    read text (opened ++ outer) = some (rest ++ outer) := by
  unfold read at known ⊢
  split at known
  · next bracket opened opens =>
      cases known
      rw [opens]
      rfl
  · next opened opens closes =>
      cases known
      rw [opens, closes]
  · next bracket inner within opens closes =>
      split at known
      · next same =>
          cases known
          rw [opens, closes]
          exact if_pos same
      · nomatch known
  · nomatch known

/-- What a bracket does not pass is no bracket. -/
theorem read_of_test (test : String → Bool) {text : String}
    (others : ∀ bracket : Bracket, test bracket.opener.spelling = false ∧
      test bracket.closer.spelling = false)
    (passed : test text) (opened : List Bracket) :
    read text opened = some opened := by
  have unopened : openedBy? text = none := by
    rw [openedBy?, List.find?_eq_none]
    intro bracket _ same
    rw [beq_iff_eq.mp same, (others bracket).1] at passed
    nomatch passed
  have unclosed : closedBy? text = none := by
    rw [closedBy?, List.find?_eq_none]
    intro bracket _ same
    rw [beq_iff_eq.mp same, (others bracket).2] at passed
    nomatch passed
  simp only [read, unopened, unclosed]

end Bracket

namespace Token

def read (token : Token) (opened : List Bracket) : Option (List Bracket) :=
  if token.kind == .operator then Bracket.read token.text opened
  else some opened

theorem read_of_kind {token : Token} (plain : token.kind ≠ .operator)
    (opened : List Bracket) : token.read opened = some opened :=
  if_neg fun operator => plain (beq_iff_eq.mp operator)

theorem read_of_test (test : String → Bool) {token : Token}
    (others : ∀ bracket : Bracket, test bracket.opener.spelling = false ∧
      test bracket.closer.spelling = false)
    (passed : test token.text) (opened : List Bracket) :
    token.read opened = some opened := by
  unfold read
  split
  · exact Bracket.read_of_test test others passed opened
  · rfl

theorem read_of_isTrivia {token : Token} (trivia : token.isTrivia)
    (opened : List Bracket) : token.read opened = some opened := by
  unfold isTrivia at trivia
  simp only [Bool.or_eq_true, Bool.and_eq_true, beq_iff_eq] at trivia
  rcases trivia with (comment | remark) | ⟨-, sign⟩
  · exact read_of_kind (by rw [comment]; nofun) opened
  · exact read_of_kind (by rw [remark]; nofun) opened
  · refine read_of_test (· == "\\") (fun bracket => ?_) ?_ opened
    · cases bracket <;> exact ⟨rfl, rfl⟩
    · exact beq_iff_eq.mpr sign

end Token

def openAfter (opened : List Bracket) (tokens : List Token) :
    Option (List Bracket) :=
  tokens.foldlM (fun opened token => token.read opened) opened

/-- Every bracket has its partner, and they are properly nested. -/
def WellBracketed (tokens : List Token) : Prop :=
  openAfter [] tokens = some []

instance (tokens : List Token) : Decidable (WellBracketed tokens) :=
  inferInstanceAs (Decidable (_ = _))

theorem openAfter_cons (opened : List Bracket) (token : Token)
    (rest : List Token) :
    openAfter opened (token :: rest) =
      (token.read opened).bind fun opened => openAfter opened rest :=
  List.foldlM_cons

theorem openAfter_cons_of_read {opened after : List Bracket} {token : Token}
    (known : token.read opened = some after) (rest : List Token) :
    openAfter opened (token :: rest) = openAfter after rest := by
  rw [openAfter_cons, known, Option.bind_some]

theorem openAfter_append_of_plain {skipped : List Token}
    {opened : List Bracket}
    (plain : ∀ token ∈ skipped, token.read opened = some opened)
    (rest : List Token) :
    openAfter opened (skipped ++ rest) = openAfter opened rest := by
  induction skipped with
  | nil => rfl
  | cons token skipped induction =>
      obtain ⟨here, later⟩ := List.forall_mem_cons.mp plain
      rw [List.cons_append, openAfter_cons_of_read here]
      exact induction later

def Token.BracketIsOperator (token : Token) : Prop :=
  ∀ opened, token.read opened = Bracket.read token.text opened

def BracketsAreOperators (tokens : List Token) : Prop :=
  ∀ token ∈ tokens, token.BracketIsOperator

end ComponentLang
