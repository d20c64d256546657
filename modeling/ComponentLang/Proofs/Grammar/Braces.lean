import ComponentLang.Grammar.Production
import ComponentLang.Proofs.Token.Nesting

namespace ComponentLang

def Terminal.areBraceless (candidates : List Terminal) : Bool :=
  candidates.all fun terminal => (Brace.ofSpelling? terminal.spelling).isNone

theorem Terminal.find?_eq_none_of_areBraceless {candidates : List Terminal}
    {token : Token} {brace : Brace} (braceless : areBraceless candidates)
    (found : token.brace? = some brace) : find? candidates token.text = none := by
  rw [find?, List.find?_eq_none]
  intro candidate member same
  have other := List.all_eq_true.mp braceless candidate member
  rw [Option.isNone_iff_eq_none, ← beq_iff_eq.mp same,
    Token.text_of_brace? found, Brace.ofSpelling?_eq_some_iff.mpr rfl] at other
  nomatch other

def Nonterminal.isBraced : Nonterminal → Bool
  | .members _ | .enumConstants | .structMembers | .connections | .instances
  | .telemetryLimits | .phases => true
  | .expression | .arrayElements | .qualifiedTail | .parameters => false

def Expected.isBraceless : Expected → Bool
  | .oneOf candidates => Terminal.areBraceless candidates
  | _ => true

/-- Whether the rule asks for an opening brace only in front of a body, and for
no closing brace. -/
def Rule.pairsBraces : Rule → Bool
  | .seq (.expect [.operator .leftBrace])
      (.branch (.spelled (.operator .leftBrace)) (.call body) .done) =>
      body.isBraced
  | .accept [.operator .leftBrace] (.call body) .done => body.isBraced
  | .seq first next => first.pairsBraces && next.pairsBraces
  | .need expected => expected.isBraceless
  | .expect candidates => Terminal.areBraceless candidates
  | .accept candidates found missing =>
      Terminal.areBraceless candidates && found.pairsBraces &&
        missing.pairsBraces
  | .branch _ holds fails => holds.pairsBraces && fails.pairsBraces
  | .define _ _ body => body.pairsBraces
  | .recover _ body next resumed =>
      body.pairsBraces && next.pairsBraces && resumed.pairsBraces
  | .call nonterminal => !nonterminal.isBraced
  | .done | .complain _ | .strings | .resolve | .signature _ _ => true
  | .statement _ | .advance => false

theorem Nonterminal.pairsBraces_rule {nonterminal : Nonterminal}
    (other : nonterminal.isBraced = false) :
    nonterminal.rule.pairsBraces := by
  cases nonterminal <;> first | rfl | nomatch other

theorem Statement.pairsBraces_rule (statement : Statement) :
    statement.rule.pairsBraces := by
  rcases statement with _ | _ | _ | _ | _ | _ | _ | _ | _ | _ | (_ | _) |
    (_ | _) | _ | _ | _ | _ | _ | _ | _ | _ |
    ((_ | _) | _ | _ | _ | _ | _ | _ | _) | _ | _ | _ <;> rfl

end ComponentLang
