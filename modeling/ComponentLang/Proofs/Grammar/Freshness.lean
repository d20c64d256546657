import ComponentLang.Grammar.Production

namespace ComponentLang

namespace Rule

/-- Whether the current token, when the rule is finished, was just taken and
nothing is said about it yet. -/
def freshens : Rule → Bool
  | .need _ | .advance => true
  | _ => false

/-- Whether the rule speaks of fresh tokens only and defines names of semantic
kinds only. `fresh` tells whether the current token is fresh where the rule
begins. -/
def speaksFresh (fresh : Bool) : Rule → Bool
  | .complain _ | .strings | .resolve | .statement _ => fresh
  | .seq first next =>
      first.speaksFresh fresh && next.speaksFresh first.freshens
  | .accept _ found missing =>
      found.speaksFresh true && missing.speaksFresh fresh
  | .branch _ holds fails => holds.speaksFresh fresh && fails.speaksFresh fresh
  | .define kind _ body => kind.isSemantic && body.speaksFresh false
  | .signature kind _ => kind.isSemantic
  | .recover _ body next resumed =>
      body.speaksFresh fresh && next.speaksFresh false &&
        resumed.speaksFresh false
  | .done | .need _ | .expect _ | .advance | .call _ => true

end Rule

theorem Nonterminal.speaksFresh_rule (nonterminal : Nonterminal) :
    nonterminal.rule.speaksFresh false := by
  cases nonterminal <;> rfl

theorem Statement.speaksFresh_rule (statement : Statement) :
    statement.rule.speaksFresh false := by
  rcases statement with _ | _ | _ | _ | _ | _ | _ | _ | _ | _ | (_ | _) |
    (_ | _) | _ | _ | _ | _ | _ | _ | _ | _ |
    ((_ | _) | _ | _ | _ | _ | _ | _ | _) | _ | _ | _ <;> rfl

end ComponentLang
