import ComponentLang.Proofs.Grammar.Freshness
import ComponentLang.Proofs.Grammar.Turns
import ComponentLang.Proofs.Token.Trivia

namespace ComponentLang

/-- What a rule finds where it begins: a token just taken, of which nothing is
said yet, a token that may have been spoken of, or the place where a part was
given up and can be resumed. -/
inductive Standing where
  | fresh
  | used
  | stopped (resumption : Resumption)
  deriving DecidableEq, Repr

namespace Standing

def isStopped : Standing → Bool
  | .stopped _ => true
  | _ => false

def announces (candidates : List Terminal) : Standing → Bool
  | .stopped resumption => resumption.isAmong candidates
  | _ => false

/-- The standing behind a rule that is finished. -/
def behind (rule : Rule) : Standing :=
  if rule.freshens then .fresh else .used

end Standing

/-- Whether the elements begin with taking a token, closing or not. -/
def Nonterminal.takesUp : Nonterminal → Bool
  | .members _ | .phases => true
  | _ => false

namespace Rule

/-- Whether the rule speaks of fresh tokens only, takes a token first where a
part was given up, and looks for meaningful terminals only. -/
def isSparing (standing : Standing) : Rule → Bool
  | .complain _ | .strings | .resolve | .statement _ => standing == .fresh
  | .seq first next =>
      first.isSparing standing && next.isSparing (.behind first)
  | .expect candidates =>
      !standing.isStopped && candidates.all Terminal.isMeaningful
  | .accept candidates found missing =>
      found.isSparing .fresh &&
        (missing.isSparing standing || standing.announces candidates)
  | .advance => true
  | .branch _ holds fails =>
      holds.isSparing standing && fails.isSparing standing
  | .define _ _ body => !standing.isStopped && body.isSparing .used
  | .recover resumption body next resumed =>
      !standing.isStopped && body.isSparing standing &&
        next.isSparing .used && resumed.isSparing (.stopped resumption)
  | .call nonterminal => !standing.isStopped || nonterminal.takesUp
  | .done | .need _ | .signature _ _ => !standing.isStopped

end Rule

theorem Nonterminal.isSparing_rule (nonterminal : Nonterminal) :
    nonterminal.rule.isSparing .used := by
  cases nonterminal <;> rfl

theorem Nonterminal.isSparing_rule_of_takesUp {nonterminal : Nonterminal}
    (takesUp : nonterminal.takesUp) (resumption : Resumption) :
    nonterminal.rule.isSparing (.stopped resumption) := by
  cases nonterminal with
  | members | phases => rfl
  | _ => cases takesUp

theorem Statement.isSparing_rule (statement : Statement) :
    statement.rule.isSparing .used := by
  rcases statement with _ | _ | _ | _ | _ | _ | _ | _ | _ | _ | (_ | _) |
    (_ | _) | _ | _ | _ | _ | _ | _ | _ | _ |
    ((_ | _) | _ | _ | _ | _ | _ | _ | _) | _ | _ | _ <;> rfl

end ComponentLang
