import ComponentLang.Grammar.Expected
import ComponentLang.Proofs.Scan.Categories
import ComponentLang.Proofs.Scan.Words

namespace ComponentLang

inductive Lexeme where
  | number
  | string
  | truth
  | name
  | sign (operator : Operator)
  | other
  deriving DecidableEq, Repr

namespace Lexeme

def isAmong (signs : List Operator) : Lexeme → Bool
  | .sign operator => signs.contains operator
  | _ => false

theorem isAmong_singleton {lexeme : Lexeme} {sign : Operator} :
    lexeme.isAmong [sign] ↔ lexeme = .sign sign := by
  cases lexeme <;> simp [isAmong]

theorem isAmong_pair {lexeme : Lexeme} {first second : Operator} :
    lexeme.isAmong [first, second] ↔
      lexeme.isAmong [first] ∨ lexeme.isAmong [second] := by
  cases lexeme <;> simp [isAmong]

def isBinary (lexeme : Lexeme) : Bool :=
  lexeme.isAmong Operator.binary

def starts (lexeme : Lexeme) : Bool :=
  [.number, .string, .truth, .name].contains lexeme ||
    lexeme.isAmong [.minus, .leftParen, .leftBracket]

def joins (next : Lexeme) : Lexeme → Bool
  | .name => next == .sign .dot
  | .string => next == .string
  | _ => false

/-- Whether the one continues an expression that the other ends. -/
def goesOn (next last : Lexeme) : Bool :=
  next.isBinary || next.joins last

theorem joins_of_isBinary {next : Lexeme} (binary : next.isBinary)
    (last : Lexeme) : next.joins last = false := by
  have other (joint : next = .sign .dot ∨ next = .string) : False := by
    rcases joint with rfl | rfl <;> nomatch binary
  cases last with
  | name => exact beq_eq_false_iff_ne.mpr (other ∘ .inl)
  | string => exact beq_eq_false_iff_ne.mpr (other ∘ .inr)
  | _ => rfl

theorem goesOn_sign {operator : Operator}
    (separates : operator ∈ [.comma, .rightParen, .rightBracket])
    (last : Lexeme) : (sign operator).goesOn last = false := by
  simp only [List.mem_cons, List.not_mem_nil, or_false] at separates
  rcases separates with rfl | rfl | rfl <;> cases last <;> rfl

theorem isAmong_of_starts {lexeme : Lexeme} (starts : lexeme.starts) :
    lexeme.isAmong [.comma] = false ∧ lexeme.isAmong [.rightBracket] = false := by
  cases lexeme with
  | sign operator =>
      revert starts
      cases operator <;> decide
  | _ => exact ⟨rfl, rfl⟩

theorem eq_minus {lexeme : Lexeme} (starts : lexeme.starts)
    (binary : lexeme.isBinary) : lexeme = .sign .minus := by
  cases lexeme with
  | sign operator =>
      revert starts binary
      cases operator <;> decide
  | _ => nomatch binary

theorem eq_string_of_joins {next last : Lexeme} (starts : next.starts)
    (joins : next.joins last) : next = .string ∧ last = .string := by
  cases last with
  | string => exact ⟨beq_iff_eq.mp joins, rfl⟩
  | name =>
      obtain rfl := beq_iff_eq.mp joins
      nomatch starts
  | _ => nomatch joins

end Lexeme

namespace Token

def lexeme (token : Token) : Lexeme :=
  match token.kind with
  | .number => .number
  | .string => .string
  | _ =>
      match Operator.ofSpelling? token.text with
      | some sign => .sign sign
      | none =>
          if Expected.isTruthWord token then .truth
          else if Literal.isIdentifier token.text then .name
          else .other

variable {token : Token}

def IsLexeme (token : Token) : Lexeme → Prop
  | .number => token.kind = .number
  | .string => token.kind = .string
  | .truth => Expected.isTruthWord token
  | .name => Literal.isIdentifier token.text
  | .sign sign => Operator.ofSpelling? token.text = some sign
  | .other => True

theorem isLexeme_of_lexeme {lexeme : Lexeme} (same : token.lexeme = lexeme) :
    token.IsLexeme lexeme := by
  subst same
  unfold lexeme
  split
  · next number => exact number
  · next string => exact string
  · split
    · next found => exact found
    · split
      · assumption
      · split
        · assumption
        · trivial

theorem lexeme_eq_number_iff : token.lexeme = .number ↔ token.kind = .number :=
  ⟨isLexeme_of_lexeme, fun number => by unfold lexeme; rw [number]⟩

theorem lexeme_eq_string_iff : token.lexeme = .string ↔ token.kind = .string :=
  ⟨isLexeme_of_lexeme, fun string => by unfold lexeme; rw [string]⟩

theorem lexeme_of_kind (number : token.kind ≠ .number)
    (string : token.kind ≠ .string) :
    token.lexeme =
      match Operator.ofSpelling? token.text with
      | some sign => .sign sign
      | none =>
          if Expected.isTruthWord token then .truth
          else if Literal.isIdentifier token.text then .name
          else .other := by
  unfold lexeme
  split
  · contradiction
  · contradiction
  · rfl

theorem of_isTruthWord (truth : Expected.isTruthWord token) :
    Scan.category token.text = .keyword ∧
      Operator.ofSpelling? token.text = none ∧
      Literal.isIdentifier token.text = false := by
  have words : ∀ word ∈ [Keyword.trueLiteral, Keyword.falseLiteral],
      Scan.category word.spelling = .keyword ∧
        Operator.ofSpelling? word.spelling = none ∧
        Literal.isIdentifier word.spelling = false := by decide +kernel
  unfold Expected.isTruthWord at truth
  split at truth
  · next found =>
      rw [← Keyword.ofSpelling?_eq_some_iff.mp found]
      exact words _ (by decide)
  · next found =>
      rw [← Keyword.ofSpelling?_eq_some_iff.mp found]
      exact words _ (by decide)
  · nomatch truth

namespace IsCategorized

variable (categorized : token.IsCategorized)
include categorized

theorem kind_of_sign {sign : Operator} (spelled : token.text = sign.spelling) :
    token.kind = .operator := by
  unfold IsCategorized at categorized
  rw [categorized, spelled]
  cases sign <;> decide +kernel

theorem kind_of_isTruthWord (truth : Expected.isTruthWord token) :
    token.kind = .keyword :=
  categorized.trans (of_isTruthWord truth).1

theorem kind_of_isIdentifier (identifier : Literal.isIdentifier token.text) :
    token.kind = if (Keyword.ofSpelling? token.text).isSome then .keyword
      else .nil := by
  obtain ⟨first, others, chars_eq, front⟩ :=
    Literal.exists_front_of_isIdentifier identifier
  rw [← Scan.lexicalKind_of_isIdentifier identifier]
  refine categorized.trans ?_
  unfold Scan.category
  rw [chars_eq, List.head?_cons]
  split
  · next begins => cases begins; rcases front with escape | start <;> contradiction
  · next begins => cases begins; rcases front with escape | start <;> contradiction
  · next begins => cases begins; rcases front with escape | start <;> contradiction
  · rfl

theorem lexeme_eq_sign_iff {sign : Operator} :
    token.lexeme = .sign sign ↔ token.text = sign.spelling := by
  constructor
  · intro same
    exact (Operator.ofSpelling?_eq_some_iff.mp (isLexeme_of_lexeme same)).symm
  · intro spelled
    have operator := categorized.kind_of_sign spelled
    rw [lexeme_of_kind (by simp [operator]) (by simp [operator]), spelled,
      Operator.ofSpelling?_spelling]

theorem lexeme_eq_truth_iff :
    token.lexeme = .truth ↔ Expected.isTruthWord token := by
  refine ⟨isLexeme_of_lexeme, fun truth => ?_⟩
  have keyword := categorized.kind_of_isTruthWord truth
  have unsigned := (of_isTruthWord truth).2.1
  rw [lexeme_of_kind (by simp [keyword]) (by simp [keyword]), unsigned,
    if_pos truth]

theorem lexeme_eq_name_iff :
    token.lexeme = .name ↔ Literal.isIdentifier token.text := by
  refine ⟨isLexeme_of_lexeme, fun identifier => ?_⟩
  have kind_eq := categorized.kind_of_isIdentifier identifier
  have untrue : ¬Expected.isTruthWord token := by
    intro truth
    rw [(of_isTruthWord truth).2.2] at identifier
    nomatch identifier
  rw [lexeme_of_kind, Operator.ofSpelling?_eq_none identifier, if_neg untrue,
    if_pos identifier]
  all_goals rw [kind_eq]; split <;> nofun

theorem find?_isSome (signs : List Operator) :
    (Terminal.find? (signs.map .operator) token.text).isSome =
      token.lexeme.isAmong signs := by
  rw [Bool.eq_iff_iff, Terminal.find?, List.find?_isSome]
  have spelled (sign : Operator) :
      token.text == (Terminal.operator sign).spelling ↔
        token.lexeme = .sign sign :=
    beq_iff_eq.trans categorized.lexeme_eq_sign_iff.symm
  simp only [List.mem_map, exists_exists_and_eq_and, spelled]
  unfold Lexeme.isAmong
  split <;> simp_all

theorem startsExpression_eq :
    Expected.startsExpression token = token.lexeme.starts := by
  have number := @lexeme_eq_number_iff token
  have string := @lexeme_eq_string_iff token
  have truth := categorized.lexeme_eq_truth_iff
  have name := categorized.lexeme_eq_name_iff
  unfold Expected.startsExpression
  cases found : Operator.ofSpelling? token.text with
  | some sign =>
      have same := categorized.lexeme_eq_sign_iff.mpr
        (Operator.ofSpelling?_eq_some_iff.mp found).symm
      simp only [same, reduceCtorEq, false_iff] at number string truth name
      rw [same]
      simp only [beq_eq_false_iff_ne.mpr number, beq_eq_false_iff_ne.mpr string,
        Bool.eq_false_iff.mpr truth, Bool.eq_false_iff.mpr name]
      cases sign <;> rfl
  | none =>
      have unsigned (signs : List Operator) :
          token.lexeme.isAmong signs = false := by
        unfold Lexeme.isAmong
        split
        · next sign same =>
            rw [categorized.lexeme_eq_sign_iff.mp same,
              Operator.ofSpelling?_spelling] at found
            nomatch found
        · rfl
      rw [Lexeme.starts, unsigned, Bool.eq_iff_iff]
      simp only [List.contains_cons, List.contains_nil, Bool.or_eq_true,
        beq_iff_eq, number, string, truth, name, Bool.false_eq_true, or_false,
        or_assoc]

end IsCategorized

end Token

end ComponentLang
