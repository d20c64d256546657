import ComponentLang.Grammar.Production

namespace ComponentLang

namespace Nonterminal

/-- The place in an order in which a nonterminal that calls another before it
takes a token stands behind that other. -/
def rank : Nonterminal → Nat
  | .arrayElements => 1
  | _ => 0

theorem rank_le_one (nonterminal : Nonterminal) : nonterminal.rank ≤ 1 := by
  cases nonterminal <;> simp [rank]

end Nonterminal

namespace Rule

def statementRank : Nat := 2

/-- The longest way down into the rule, where what it calls counts one step. -/
def height : Rule → Nat
  | .seq first next => max first.height next.height + 1
  | .accept _ found missing => max found.height missing.height + 1
  | .branch _ holds fails => max holds.height fails.height + 1
  | .define _ _ body => body.height + 1
  | .recover _ body next resumed =>
      max body.height (max next.height resumed.height) + 1
  | .signature _ _ => 2
  | _ => 1

/-- Whether the rule, when it is finished, has taken a token for certain. -/
def takes : Rule → Bool
  | .need _ | .expect _ | .advance | .define _ _ _ | .signature _ _ => true
  | .seq first next => first.takes || next.takes
  | .accept _ _ missing => missing.takes
  | .branch _ holds fails => holds.takes && fails.takes
  | .call .expression => true
  | _ => false

/-- Whether everything the rule calls is of a lower rank or called behind a
token that was taken. -/
def isGuarded (rank : Nat) (taken : Bool) : Rule → Bool
  | .seq first next =>
      first.isGuarded rank taken && next.isGuarded rank (taken || first.takes)
  | .accept _ found missing =>
      found.isGuarded rank true && missing.isGuarded rank taken
  | .branch _ holds fails =>
      holds.isGuarded rank taken && fails.isGuarded rank taken
  | .define _ _ body => body.isGuarded rank true
  | .recover _ body next resumed =>
      body.isGuarded rank taken && next.isGuarded rank (taken || body.takes) &&
        resumed.isGuarded rank taken
  | .statement _ => taken || statementRank < rank
  | .call nonterminal => taken || nonterminal.rank < rank
  | _ => true

end Rule

theorem Nonterminal.isGuarded_rule (nonterminal : Nonterminal) :
    nonterminal.rule.isGuarded nonterminal.rank false := by
  cases nonterminal <;> rfl

theorem Nonterminal.height_rule (nonterminal : Nonterminal) :
    nonterminal.rule.height < 64 := by
  cases nonterminal <;> exact of_decide_eq_true rfl

theorem Statement.isGuarded_rule (statement : Statement) :
    statement.rule.isGuarded Rule.statementRank false := by
  rcases statement with _ | _ | _ | _ | _ | _ | _ | _ | _ | _ | (_ | _) |
    (_ | _) | _ | _ | _ | _ | _ | _ | _ | _ |
    ((_ | _) | _ | _ | _ | _ | _ | _ | _) | _ | _ | _ <;> rfl

theorem Statement.height_rule (statement : Statement) :
    statement.rule.height < 64 := by
  rcases statement with _ | _ | _ | _ | _ | _ | _ | _ | _ | _ | (_ | _) |
    (_ | _) | _ | _ | _ | _ | _ | _ | _ | _ |
    ((_ | _) | _ | _ | _ | _ | _ | _ | _) | _ | _ | _ <;> decide

theorem Nonterminal.takes_expression : Nonterminal.expression.rule.takes := rfl

end ComponentLang
