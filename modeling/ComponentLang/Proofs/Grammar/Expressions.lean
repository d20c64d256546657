import ComponentLang.Proofs.Grammar.Acceptance

namespace ComponentLang

open Rule Terminal

namespace Syntax

def continuing : List Terminal :=
  Operator.binary.map Terminal.operator ++
    [.operator .dot, .keyword .size]

end Syntax

open Syntax Nonterminal.expressionRule

variable {scopes : List Scope} {current : Option Item} {rest : List Item}

theorem Test.fits_spelled_eq_false {terminal : Terminal}
    {terminals : List Terminal} {item : Item}
    (other : find? terminals item.text = none) (member : terminal ∈ terminals) :
    (Test.spelled terminal).fits item = false := by
  rw [find?, List.find?_eq_none] at other
  exact Bool.eq_false_iff.mpr (other terminal member)

def Nonterminal.wordRule : Rule :=
  .branch (.ofKind .string) (.strings ++ more)
    (.branch (.ofKind .number) more
      (.branch .truthWord more
        (.branch .identifier (.resolve ++ .call .qualifiedTail ++ more)
          (.complain .invalidExpression))))

theorem Rule.Accepts.word {item : Item} {front : List Item}
    (starts : Expected.expression.accepts item.token)
    (plain : item.mark = none)
    (unsigned : find? [Operator.minus, Operator.leftParen,
      Operator.leftBracket] item.text = none)
    (accepted : Accepts scopes (some item) Nonterminal.wordRule front rest) :
    Accepts scopes current (.call .expression) ([item] ++ front) rest := by
  have unlike {terminal : Terminal} (member : terminal ∈ [Operator.minus,
      Operator.leftParen, Operator.leftBracket].map Terminal.operator) :=
    Test.fits_spelled_eq_false unsigned member
  refine .call (.takeThen (.need starts plain) ?_)
  refine .fails nofun (unlike (by decide)) ?_
  refine .fails nofun (unlike (by decide)) ?_
  exact .fails nofun (unlike (by decide)) accepted

namespace Syntax

section Words

variable {tail : List Item}

theorem Number.accepted (number : Number)
    (further : ∀ current, Accepts scopes current more tail rest) :
    Accepts scopes current (.call .expression)
      ([number.item] ++ tail) rest := by
  have kind_eq := number.lexicalKind_text
  refine .word ?starts rfl (number.find?_eq_none _) ?accepted
  case starts =>
    simp [Expected.accepts, Expected.startsExpression, Item.token, Number.item,
      kind_eq]
  case accepted =>
    refine .fails nofun ?_ (.holds nofun ?_ (further _))
    · rw [Test.fits_ofKind, Number.item, Item.kind_word, kind_eq]
      rfl
    · rw [Test.fits_ofKind, Number.item, Item.kind_word, kind_eq]
      rfl

theorem Quotation.accepted (string : Quotation)
    (unquoted : ∀ item ∈ (tail ++ rest).head?, item.kind ≠ .string)
    (further : ∀ current, Accepts scopes current more tail rest) :
    Accepts scopes current (.call .expression) (string.items ++ tail) rest := by
  refine .word ?starts rfl (string.find?_eq_none _) ?accepted
  case starts =>
    simp [Expected.accepts, Expected.startsExpression, Item.token]
  case accepted =>
    exact .holds nofun rfl (.seq (.strings unquoted) (further _))

theorem truth_accepted (value : Bool)
    (further : ∀ current, Accepts scopes current more tail rest) :
    Accepts scopes current (.call .expression)
      (lone (truthWord value) ++ tail) rest := by
  refine .word ?starts rfl ?unsigned ?accepted
  case starts => cases value <;> rfl
  case unsigned => cases value <;> decide
  case accepted =>
    cases value <;>
      exact .fails nofun rfl (.fails nofun rfl (.holds nofun rfl (further _)))

theorem names_accepted (others : List Name)
    (apart : Apart [Operator.dot] rest) :
    Accepts scopes current (.call .qualifiedTail)
      (others.flatMap fun other => lone Operator.dot ++ [other.item]) rest := by
  induction others generalizing current with
  | nil => exact .call (.missing apart .done)
  | cons name others induction =>
      rw [List.flatMap_cons, List.append_assoc]
      refine .call (.found List.mem_cons_self (.seq ?_ induction))
      exact .takeThen (.need name.valid rfl) (.resolve name.valid)

theorem Name.fits_truthWord (name : Name) :
    Test.truthWord.fits name.item = false := by
  rw [Bool.eq_false_iff]
  intro fits
  obtain ⟨-, truth⟩ := Bool.and_eq_true_iff.mp fits
  have no_word {word : Keyword} (reserved : ¬Literal.isIdentifier word.spelling)
      (found : Keyword.ofSpelling? name.text = some word) : False := by
    rw [Keyword.ofSpelling?_eq_some_iff.mp found] at reserved
    exact reserved name.valid
  unfold Expected.isTruthWord at truth
  split at truth
  · next found => exact no_word (by decide +kernel) found
  · next found => exact no_word (by decide +kernel) found
  · nomatch truth

theorem QualifiedName.accepted (name : QualifiedName)
    (apart : Apart [Operator.dot] (tail ++ rest))
    (further : ∀ current, Accepts scopes current more tail rest) :
    Accepts scopes current (.call .expression) (name.items ++ tail) rest := by
  unfold QualifiedName.items
  rw [List.append_assoc]
  refine .word ?starts rfl (name.first.find?_eq_none (by decide)) ?accepted
  case starts =>
    have identifier := name.first.valid
    simp [Expected.accepts, Expected.startsExpression, Item.token, Name.item,
      identifier]
  case accepted =>
    have no_string := Scan.lexicalKind_ne_string name.first.text
    have no_number := name.first.lexicalKind_text_ne_number
    refine .fails nofun (beq_eq_false_iff_ne.mpr no_string) ?_
    refine .fails nofun (beq_eq_false_iff_ne.mpr no_number) ?_
    refine .fails nofun name.first.fits_truthWord ?_
    refine .holds nofun name.first.valid ?_
    refine .seq (.behind (.resolve name.first.valid) ?_) (further _)
    exact names_accepted name.others apart

end Words

/-! Nothing that can be an element begins with the mark that closes a list. -/

theorem Operand.apart (operand : Operand) :
    Apart [Operator.rightBracket] (operand.items ++ rest) := by
  cases operand with
  | number number => exact apart_cons (number.find?_eq_none _)
  | string string => exact apart_cons (string.find?_eq_none _)
  | truth value => cases value <;> exact apart_terminal (by decide)
  | name name => exact apart_cons (name.first.find?_eq_none (by decide))
  | _ =>
      simp only [Operand.items, List.append_assoc]
      exact apart_terminal (by decide)

theorem Expression.apart (expression : Expression) :
    Apart [Operator.rightBracket] (expression.items ++ rest) := by
  cases expression with
  | minus operand =>
      rw [Expression.items, List.append_assoc]
      exact apart_terminal (by decide)
  | single operand =>
      rw [Expression.items]
      exact operand.apart
  | chain operand sign others =>
      rw [Expression.items, List.append_assoc]
      exact operand.apart

theorem Elements.apart (elements : Elements) :
    Apart [Operator.rightBracket] (elements.items ++ rest) := by
  cases elements with
  | last element =>
      rw [Elements.items]
      exact element.apart
  | more element others =>
      rw [Elements.items, List.append_assoc]
      exact element.apart

theorem BinarySign.not_mem_dot (sign : BinarySign) :
    Terminal.operator sign.val ∉ [Terminal.operator .dot] := by
  obtain ⟨sign, binary⟩ := sign
  revert binary
  cases sign <;> decide

mutual

theorem Expression.accepted (expression : Expression) {current : Option Item}
    {rest : List Item} (ends : Ends continuing rest) :
    Accepts scopes current (.call .expression) expression.items rest := by
  cases expression with
  | minus operand =>
      rw [Expression.items]
      refine .call (.takeThen (.need rfl rfl) (.holds nofun rfl ?_))
      exact operand.accepted ends
  | single operand =>
      rw [Expression.items, ← List.append_nil operand.items]
      refine operand.accepted (ends.mono (by decide)) fun _ => ?_
      exact .missing (ends.apart.mono (by decide)) .done
  | chain operand sign others =>
      rw [Expression.items]
      refine operand.accepted (ends_terminal sign.not_mem_dot) fun _ => ?_
      exact .found (List.mem_map_of_mem sign.property) (others.accepted ends)

theorem Operand.accepted (operand : Operand) {current : Option Item}
    {tail rest : List Item} (ends : Ends [Operator.dot] (tail ++ rest))
    (further : ∀ current, Accepts scopes current more tail rest) :
    Accepts scopes current (.call .expression) (operand.items ++ tail) rest := by
  cases operand with
  | number number => exact number.accepted further
  | string string => exact string.accepted ends.unquoted further
  | truth value => exact truth_accepted value further
  | name name => exact name.accepted ends.apart further
  | group inner =>
      rw [Operand.items, List.append_assoc]
      refine .call (.takeThen (.need rfl rfl) ?_)
      refine .fails nofun rfl (.holds nofun rfl ?_)
      refine .seq (.seq ?_ (.require _)) (further _)
      exact inner.accepted (ends_terminal (by decide))
  | emptyArray =>
      rw [Operand.items, List.append_assoc]
      refine .call (.takeThen (.need rfl rfl) ?_)
      refine .fails nofun rfl (.fails nofun rfl (.holds nofun rfl ?_))
      exact .seq (.found List.mem_cons_self .done) (further _)
  | array elements =>
      rw [Operand.items, List.append_assoc]
      refine .call (.takeThen (.need rfl rfl) ?_)
      refine .fails nofun rfl (.fails nofun rfl (.holds nofun rfl ?_))
      refine .seq (.missing ?_ elements.accepted) (further _)
      rw [List.append_assoc]
      exact elements.apart

theorem Elements.accepted (elements : Elements) {current : Option Item}
    {rest : List Item} :
    Accepts scopes current (.call .arrayElements)
      (elements.items ++ lone Operator.rightBracket) rest := by
  cases elements with
  | last element =>
      rw [Elements.items]
      refine .call (.seq (element.accepted (ends_terminal (by decide))) ?_)
      refine .missing (apart_terminal (by decide)) ?_
      exact .found List.mem_cons_self .done
  | more element others =>
      rw [Elements.items, List.append_assoc, List.append_assoc]
      refine .call (.seq (element.accepted (ends_terminal (by decide))) ?_)
      refine .found List.mem_cons_self (.missing ?_ others.accepted)
      rw [List.append_assoc]
      exact others.apart

end

end Syntax

end ComponentLang
