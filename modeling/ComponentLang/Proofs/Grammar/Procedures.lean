import ComponentLang.Grammar.Production

namespace ComponentLang

namespace Rule

/-- What is done to follow the rule, with the steps that open and close the
scopes of its definitions. -/
def procedure : Rule → Procedure
  | .done => .done
  | .seq first next => .seq first.procedure next.procedure
  | .need expected => .need expected
  | .expect candidates => .expect candidates
  | .accept candidates found missing =>
      .accept candidates found.procedure missing.procedure
  | .advance => .advance
  | .branch test holds fails => .branch test holds.procedure fails.procedure
  | .complain complaint => .complain complaint
  | .strings => .strings
  | .resolve => .resolve
  | .define kind modifiers body =>
      if kind.opensScope then
        .define kind modifiers ++ .attempt body.procedure ++ .closeScope ++
          .conclude
      else .define kind modifiers
  | .signature kind modifiers => .signature kind modifiers
  | .recover resumption body next _ =>
      .attempt body.procedure ++ .absorb resumption ++ .conclude ++
        next.procedure
  | .statement block => .statement block
  | .call nonterminal => .call nonterminal

theorem procedure_define_of_opensScope {kind : TokenKind}
    (opens : kind.opensScope) (modifiers : Modifiers) (body : Rule) :
    (define kind modifiers body).procedure =
      .define kind modifiers ++ .attempt body.procedure ++ .closeScope ++
        .conclude := by
  rw [procedure, if_pos opens]

/-- The elements of a list are followed by other ones, and an element that is
given up by the closing mark. -/
def resumesList : Resumption → Rule → Rule → Bool
  | .before [closer], .accept [comma] (.call again) (.call other),
      .accept [mark] .done .done =>
      mark == closer && other == again && comma.spelling != closer.spelling &&
        match again.rule with
        | .accept [first] .done _ => first == closer
        | _ => false
  | _, _, _ => false

theorem of_resumesList {resumption : Resumption} {next resumed : Rule}
    (list : resumesList resumption next resumed) :
    ∃ (closer comma : Terminal) (again : Nonterminal) (rest : Rule),
      resumption = .before [closer] ∧
      next = .accept [comma] (.call again) (.call again) ∧
      resumed = .accept [closer] .done .done ∧
      comma.spelling ≠ closer.spelling ∧
      again.rule = .accept [closer] .done rest := by
  unfold resumesList at list
  split at list
  · next closer comma again other mark =>
      simp only [Bool.and_eq_true, beq_iff_eq, bne_iff_ne] at list
      obtain ⟨⟨⟨rfl, rfl⟩, apart⟩, opens⟩ := list
      split at opens
      · next first rest rule_eq =>
          obtain rfl := beq_iff_eq.mp opens
          exact ⟨_, comma, _, rest, rfl, rfl, rfl, apart, rule_eq⟩
      · cases opens
  · cases list

/-- The procedure of the rule leaves nothing of it out. -/
def isEnacted : Rule → Bool
  | .seq first next => first.isEnacted && next.isEnacted
  | .accept _ found missing => found.isEnacted && missing.isEnacted
  | .branch _ holds fails => holds.isEnacted && fails.isEnacted
  | .define kind _ body =>
      if kind.opensScope then body.isEnacted else body == .done
  | .signature kind _ => !kind.opensScope
  | .recover resumption body next resumed =>
      body.isEnacted && next.isEnacted &&
        (resumed == next || resumesList resumption next resumed)
  | _ => true

theorem isEnacted_define_of_opensScope {kind : TokenKind}
    (opens : kind.opensScope) {modifiers : Modifiers} {body : Rule}
    (enacted : (define kind modifiers body).isEnacted) : body.isEnacted := by
  rwa [isEnacted, if_pos opens] at enacted

end Rule

theorem Statement.procedure_rule (statement : Statement) :
    statement.rule.procedure = statement.procedure := by
  cases statement with
  | command async => cases async <;> rfl
  | componentInstance isPrivate => cases isPrivate <;> rfl
  | portInstance role =>
      cases role with
      | input async => cases async <;> rfl
      | _ => rfl
  | _ => rfl

theorem Statement.isEnacted_rule (statement : Statement) :
    statement.rule.isEnacted := by
  cases statement with
  | command async => cases async <;> decide
  | componentInstance isPrivate => cases isPrivate <;> decide
  | portInstance role =>
      cases role with
      | input async => cases async <;> decide
      | _ => decide
  | _ => decide

theorem Nonterminal.procedure_rule (nonterminal : Nonterminal) :
    nonterminal.rule.procedure = nonterminal.procedure := by
  cases nonterminal <;> rfl

theorem Nonterminal.isEnacted_rule (nonterminal : Nonterminal) :
    nonterminal.rule.isEnacted := by
  cases nonterminal with
  | members block => cases block <;> decide
  | _ => decide

end ComponentLang
