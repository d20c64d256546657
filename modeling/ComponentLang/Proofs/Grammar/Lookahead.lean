import ComponentLang.Proofs.Grammar.Freshness
import ComponentLang.Proofs.Token.Trivia

namespace ComponentLang

namespace Test

/-- Whether the test is about the text of the current token alone. -/
def asksText : Test → Bool
  | .spelled _ | .sizedType | .builtinType | .identifier => true
  | .ofKind _ | .truthWord | .lastOnLine => false

/-- Whether no token with a semantic kind passes for the kind asked for. -/
def asksLexical : Test → Bool
  | .ofKind kind => !kind.isSemantic
  | _ => true

end Test

namespace Rule

def forgoes : Rule → Bool
  | .strings => true
  | .seq .strings next => next.speaksFresh false
  | rule => rule.speaksFresh false

/-- Whether the rule speaks of a token, and asks for its kind, only while it is
fresh and before it looks at the next one, and defines names of semantic kinds
only. Nothing is fresh any more once the rule has looked ahead in vain. -/
def speaksFirst (fresh : Bool) : Rule → Bool
  | .complain _ | .strings | .resolve | .statement _ => fresh
  | .seq first next =>
      first.speaksFirst fresh && next.speaksFirst first.freshens
  | .expect candidates => candidates.all Terminal.isMeaningful
  | .accept candidates found missing =>
      candidates.all Terminal.isMeaningful && found.speaksFirst true &&
        missing.speaksFirst false
  | .branch test holds fails =>
      if test == .lastOnLine then
        holds.speaksFirst false && fails.speaksFirst false
      else
        (test.asksText || fresh && test.asksLexical && holds.forgoes) &&
          holds.speaksFirst fresh && fails.speaksFirst fresh
  | .define kind _ body => kind.isSemantic && body.speaksFirst false
  | .signature kind _ => kind.isSemantic
  | .recover _ body next resumed =>
      body.speaksFirst fresh && next.speaksFirst false &&
        resumed.speaksFirst false
  | .done | .need _ | .advance | .call _ => true

theorem speaksFresh_of_false {rule : Rule} (speaks : rule.speaksFresh false)
    (fresh : Bool) : rule.speaksFresh fresh := by
  cases fresh with
  | false => exact speaks
  | true =>
      induction rule <;>
        simp_all [speaksFresh]

theorem speaksFresh_of_speaksFirst {rule : Rule} {fresh : Bool}
    (speaks : rule.speaksFirst fresh) : rule.speaksFresh fresh := by
  induction rule generalizing fresh with
  | seq first next first_ih next_ih =>
      simp only [speaksFirst, Bool.and_eq_true] at speaks
      simp only [speaksFresh, first_ih speaks.1, next_ih speaks.2, Bool.and_true]
  | accept candidates found missing found_ih missing_ih =>
      simp only [speaksFirst, Bool.and_eq_true] at speaks
      simp only [speaksFresh, found_ih speaks.1.2,
        speaksFresh_of_false (missing_ih speaks.2) fresh, Bool.and_true]
  | branch test holds fails holds_ih fails_ih =>
      unfold speaksFirst at speaks
      split at speaks
      · rw [Bool.and_eq_true] at speaks
        simp only [speaksFresh, speaksFresh_of_false (holds_ih speaks.1) fresh,
          speaksFresh_of_false (fails_ih speaks.2) fresh, Bool.and_true]
      · simp only [Bool.and_eq_true] at speaks
        simp only [speaksFresh, holds_ih speaks.1.2, fails_ih speaks.2,
          Bool.and_true]
  | define kind modifiers body body_ih =>
      rw [speaksFirst, Bool.and_eq_true] at speaks
      rw [speaksFresh, speaks.1, body_ih speaks.2, Bool.and_self]
  | recover resumption body next resumed body_ih next_ih resumed_ih =>
      simp only [speaksFirst, Bool.and_eq_true] at speaks
      simp only [speaksFresh, body_ih speaks.1.1, next_ih speaks.1.2,
        resumed_ih speaks.2, Bool.and_true]
  | complain | strings | resolve | statement | signature => exact speaks
  | _ => rfl

end Rule

theorem Nonterminal.speaksFirst_rule (nonterminal : Nonterminal) :
    nonterminal.rule.speaksFirst false := by
  cases nonterminal <;> rfl

theorem Statement.speaksFirst_rule (statement : Statement) :
    statement.rule.speaksFirst false := by
  rcases statement with _ | _ | _ | _ | _ | _ | _ | _ | _ | _ | (_ | _) |
    (_ | _) | _ | _ | _ | _ | _ | _ | _ | _ |
    ((_ | _) | _ | _ | _ | _ | _ | _ | _) | _ | _ | _ <;> rfl

end ComponentLang
