import ComponentLang.Grammar.Production

namespace ComponentLang

namespace Rule

def each (test : Rule → Bool) : Rule → Bool
  | .seq first next =>
      test (.seq first next) && first.each test && next.each test
  | .accept candidates found missing =>
      test (.accept candidates found missing) && found.each test &&
        missing.each test
  | .branch condition holds fails =>
      test (.branch condition holds fails) && holds.each test && fails.each test
  | .define kind modifiers body =>
      test (.define kind modifiers body) && body.each test
  | .recover resumption body next resumed =>
      test (.recover resumption body next resumed) && body.each test &&
        next.each test && resumed.each test
  | rule => test rule

theorem test_of_each {test : Rule → Bool} {rule : Rule}
    (all : rule.each test) : test rule := by
  cases rule <;> simp_all [each]

def signsNoModule : Rule → Bool
  | .signature kind _ => kind != .namespace
  | _ => true

def definesParameters : Rule → Bool
  | .define kind _ _ => kind == .parameter
  | .signature _ _ | .statement _ => false
  | .call nonterminal =>
      match nonterminal with
      | .expression | .arrayElements | .qualifiedTail | .parameters => true
      | _ => false
  | _ => true

end Rule

theorem Nonterminal.signsNoModule_rule (nonterminal : Nonterminal) :
    nonterminal.rule.each Rule.signsNoModule := by
  cases nonterminal <;> rfl

theorem Statement.signsNoModule_rule (statement : Statement) :
    statement.rule.each Rule.signsNoModule := by
  rcases statement with _ | _ | _ | _ | _ | _ | _ | _ | _ | _ | (_ | _) |
    (_ | _) | _ | _ | _ | _ | _ | _ | _ | _ |
    ((_ | _) | _ | _ | _ | _ | _ | _ | _) | _ | _ | _ <;> rfl

theorem Nonterminal.definesParameters_rule {nonterminal : Nonterminal}
    (called : Rule.definesParameters (.call nonterminal)) :
    nonterminal.rule.each Rule.definesParameters := by
  cases nonterminal with
  | expression | arrayElements | qualifiedTail | parameters => rfl
  | _ => cases called

end ComponentLang
