import ComponentLang.Proofs.Grammar.Procedures
import ComponentLang.Proofs.Token.Passing
import ComponentLang.Proofs.Visitor.Refinement

namespace ComponentLang

@[simp] theorem Procedure.append_eq (first next : Procedure) :
    first ++ next = .seq first next := rfl

theorem TokenCursor.take?_eq_none_of_apart {cursor after : TokenCursor}
    {closer found other : Terminal} (apart : other.spelling ≠ closer.spelling)
    (taken_eq : cursor.take? [closer] = some (found, after)) :
    cursor.take? [other] = none := by
  obtain ⟨token, next_eq, found_eq⟩ := next?_of_take? taken_eq
  obtain rfl := List.mem_singleton.mp (List.mem_of_find?_eq_some found_eq)
  have text_eq := Terminal.spelling_of_find?_eq_some found_eq
  have missing : Terminal.find? [other] token.text = none := by
    rw [Terminal.find?, List.find?_singleton, ← text_eq,
      if_neg (by simpa using apart.symm)]
  rw [take?, next_eq]
  dsimp only
  rw [missing]
  rfl

/-- The walk behind the body of a definition, out of the scope of its name. -/
def Walk.left (walk : Walk) (kind : TokenKind) (name : Option String) : Walk :=
  if (openedScope kind name).isSome then walk.closeScope else walk

theorem Walk.run_define {walk after : Walk} {kind : TokenKind}
    {modifiers : Modifiers} {outcome : Outcome} {name : Option String}
    (define_eq : walk.define kind modifiers = (outcome, name, after))
    (fuel : Nat) (body : Rule) :
    run (fuel + 1) (.define kind modifiers body) walk =
      if outcome = .finished then
        ((run fuel body (after.entered kind name)).1,
          (run fuel body (after.entered kind name)).2.left kind name)
      else (outcome, after) := by
  rw [run, define_eq]
  cases outcome with
  | finished =>
      simp only [entered, left]
      cases openedScope kind name <;> rfl
  | _ => rfl

theorem Walk.name_of_define {walk after : Walk} {kind : TokenKind}
    {modifiers : Modifiers} {outcome : Outcome} {name : Option String}
    (define_eq : walk.define kind modifiers = (outcome, name, after))
    (stopped : outcome ≠ .finished) : name = none := by
  unfold define at define_eq
  split at define_eq
  · exact absurd (congrArg Prod.fst define_eq).symm stopped
  · cases define_eq
    rfl

theorem Walk.openedScope_none (kind : TokenKind) :
    openedScope kind none = none := by
  unfold openedScope
  split <;> rfl

namespace Visitor

section Follow

variable {enter : Procedure → Visitor → Outcome × Visitor}
  {visitor after : Visitor} {locals kept : Locals} {outcome : Outcome}

/-- What is seen of a procedure from outside. -/
def visited (followed : Outcome × Locals × Visitor) : Outcome × Visitor :=
  (followed.1, followed.2.2)

/-- A definition, its body in the scope that it opens, and the end of that. -/
theorem follow_scoped {kind : TokenKind} {modifiers : Modifiers}
    {definition : DefinedName}
    (define_eq : visitor.define kind modifiers = (outcome, definition, after))
    (body : Procedure) :
    visited (follow enter
        (.define kind modifiers ++ .attempt body ++ .closeScope ++ .conclude)
        locals visitor) =
      if outcome = .finished then
        ((visited (follow enter body {} after)).1,
          (visited (follow enter body {} after)).2.closeScope definition.opened)
      else (outcome, after) := by
  simp only [Procedure.append_eq, follow, define_eq, visited]
  cases outcome <;> rfl

/-- A name, and the parameters behind it in a scope of their own. -/
theorem follow_signature {kind : TokenKind} {modifiers : Modifiers}
    {definition : DefinedName}
    (define_eq : visitor.define kind modifiers =
      (outcome, definition, after)) :
    visited (follow enter (.signature kind modifiers) locals visitor) =
      if outcome = .finished then
        match after.cursor.take? [Operator.leftParen] with
        | some (_, cursor) =>
            let inner := enter Nonterminal.parameters.procedure
              ((after.moveTo cursor).openScope
                (definition.name.getD anonymousParameters) .nil)
            (inner.1, inner.2.popScope)
        | none => (.finished, after)
      else (outcome, after) := by
  simp only [Procedure.signature, Procedure.optional, Procedure.parameterList,
    Procedure.append_eq, follow, define_eq, visited]
  cases outcome with
  | finished =>
      dsimp only
      cases after.cursor.take? [Operator.leftParen] <;> rfl
  | _ => rfl

theorem follow_recover {body next : Procedure} {resumption : Resumption}
    (body_eq : follow enter body {} visitor = (outcome, kept, after)) :
    follow enter
        (.attempt body ++ .absorb resumption ++ .conclude ++ next)
        locals visitor =
      if outcome.absorb (after.cursor.resumes resumption) = .finished then
        follow enter next { locals with body := .finished } after
      else
        (outcome.absorb (after.cursor.resumes resumption),
          { locals with
            body := outcome.absorb (after.cursor.resumes resumption) },
          after) := by
  simp only [Procedure.append_eq, follow, body_eq]
  cases outcome.absorb (after.cursor.resumes resumption) <;> rfl

end Follow

/-- To follow the procedure of the rule comes to following the rule, as long as
calls may go as deep as the walk has steps. -/
def Enacts (options : Options) (sink : DiagnosticCollector) (depth fuel : Nat)
    (rule : Rule) : Prop :=
  rule.isEnacted → ∀ visitor walk locals,
    Represents options sink visitor walk →
    (Walk.run fuel rule walk).1 ≠ .exhausted →
    Answers options sink
      (visited (follow (run depth) rule.procedure locals visitor))
      (Walk.run fuel rule walk)

section Enacts

variable {options : Options} {sink : DiagnosticCollector} {depth fuel : Nat}

theorem enacts_seq {first next : Rule}
    (front : Enacts options sink depth fuel first)
    (back : Enacts options sink depth fuel next) :
    Enacts options sink depth (fuel + 1) (.seq first next) := by
  intro enacted visitor walk locals represents enough
  obtain ⟨first_enacted, next_enacted⟩ := Bool.and_eq_true_iff.mp enacted
  rw [Walk.run] at enough ⊢
  cases first_eq : Walk.run fuel first walk with
  | mk outcome after =>
      rw [first_eq] at enough
      have unexhausted : outcome ≠ .exhausted := by
        rintro rfl
        exact enough rfl
      have answers := front first_enacted visitor walk locals represents
        (by rwa [first_eq])
      rw [first_eq] at answers
      cases followed_eq :
          follow (run depth) first.procedure locals visitor with
      | mk other rest =>
          obtain ⟨kept, behind⟩ := rest
          rw [followed_eq] at answers
          obtain ⟨rfl, there⟩ := answers
          rw [Rule.procedure, follow_seq followed_eq]
          cases other with
          | finished => exact back next_enacted behind after kept there enough
          | _ => exact ⟨rfl, there⟩

theorem enacts_accept {candidates : List Terminal} {found missing : Rule}
    (there : Enacts options sink depth fuel found)
    (absent : Enacts options sink depth fuel missing) :
    Enacts options sink depth (fuel + 1) (.accept candidates found missing) := by
  intro enacted visitor walk locals represents enough
  obtain ⟨found_enacted, missing_enacted⟩ := Bool.and_eq_true_iff.mp enacted
  rw [Walk.run] at enough ⊢
  rw [Rule.procedure, follow, represents.cursor]
  cases taken_eq : walk.cursor.take? candidates with
  | some taken =>
      rw [taken_eq] at enough
      exact there found_enacted _ _ locals (represents.moveTo taken.2) enough
  | none =>
      rw [taken_eq] at enough
      exact absent missing_enacted _ _ locals represents enough

theorem enacts_branch {test : Test} {holds fails : Rule}
    (here : Enacts options sink depth fuel holds)
    (other : Enacts options sink depth fuel fails) :
    Enacts options sink depth (fuel + 1) (.branch test holds fails) := by
  intro enacted visitor walk locals represents enough
  obtain ⟨holds_enacted, fails_enacted⟩ := Bool.and_eq_true_iff.mp enacted
  rw [Walk.run, Walk.holds] at enough ⊢
  rw [Rule.procedure, follow, represents.cursor]
  by_cases passed : walk.cursor.holds test
  · rw [if_pos passed] at enough ⊢
    rw [if_pos passed]
    exact here holds_enacted visitor walk locals represents enough
  · rw [if_neg passed] at enough ⊢
    rw [if_neg passed]
    exact other fails_enacted visitor walk locals represents enough

theorem Represents.left {visitor : Visitor} {walk : Walk}
    (represents : Represents options sink visitor walk) (kind : TokenKind)
    (name : Option String) :
    Represents options sink
      (visitor.closeScope (Walk.openedScope kind name).isSome)
      (walk.left kind name) := by
  unfold Visitor.closeScope Walk.left
  split
  · exact represents.popScope
  · exact represents

theorem Represents.stopped {behind : Visitor} {walk after : Walk}
    {kind : TokenKind} {modifiers : Modifiers} {outcome : Outcome}
    {name : Option String} {definition : DefinedName}
    (defines : Defines options sink kind (definition, behind) (name, after))
    (define_eq : walk.define kind modifiers = (outcome, name, after))
    (unfinished : outcome ≠ .finished) :
    Represents options sink behind after := by
  have there := defines.represents
  rw [Walk.name_of_define define_eq unfinished, Walk.entered,
    Walk.openedScope_none] at there
  exact there

theorem enacts_scoped {kind : TokenKind} {modifiers : Modifiers} {body : Rule}
    (opens : kind.opensScope) (inner : Enacts options sink depth fuel body) :
    Enacts options sink depth (fuel + 1) (.define kind modifiers body) := by
  intro enacted visitor walk locals represents enough
  have body_enacted := Rule.isEnacted_define_of_opensScope opens enacted
  obtain ⟨outcome, defined, declared, defined_eq, define_eq, defines⟩ :=
    represents.define kind modifiers
  rw [Walk.run_define define_eq] at enough ⊢
  rw [Rule.procedure_define_of_opensScope opens, follow_scoped defined_eq]
  by_cases finished : outcome = .finished
  · rw [if_pos finished] at enough ⊢
    rw [if_pos finished, defines.definition_eq]
    have answers := inner body_enacted defined.2 _ {} defines.represents enough
    exact ⟨answers.outcome, answers.represents.left kind declared.1⟩
  · rw [if_neg finished, if_neg finished]
    exact ⟨rfl, .stopped defines define_eq finished⟩

theorem enacts_plain {kind : TokenKind} {modifiers : Modifiers} {body : Rule}
    (plain : ¬kind.opensScope) :
    Enacts options sink depth (fuel + 1) (.define kind modifiers body) := by
  intro enacted visitor walk locals represents enough
  rw [Rule.isEnacted, if_neg plain] at enacted
  obtain rfl := beq_iff_eq.mp enacted
  have closed (name : Option String) : Walk.openedScope kind name = none :=
    if_neg plain
  obtain ⟨outcome, defined, declared, defined_eq, define_eq, defines⟩ :=
    represents.define kind modifiers
  have there := defines.represents
  rw [Walk.run_define define_eq] at enough ⊢
  rw [Rule.procedure, if_neg plain, follow, defined_eq]
  simp only [Walk.entered, Walk.left, closed] at enough ⊢ there
  by_cases finished : outcome = .finished
  · rw [if_pos finished] at enough ⊢
    cases fuel with
    | zero => exact absurd rfl enough
    | succ fuel => exact ⟨finished, there⟩
  · rw [if_neg finished]
    exact ⟨rfl, there⟩

/-- With calls of its own, a procedure is followed as from inside. -/
theorem answers_run {rule : Rule} {visitor : Visitor} {walk : Walk}
    (enacts : ∀ depth, fuel ≤ depth + 1 → Enacts options sink depth fuel rule)
    (deep : fuel ≤ depth) (enacted : rule.isEnacted)
    (represents : Represents options sink visitor walk)
    (enough : (Walk.run fuel rule walk).1 ≠ .exhausted) :
    Answers options sink (run depth rule.procedure visitor)
      (Walk.run fuel rule walk) := by
  cases depth with
  | zero =>
      obtain rfl := Nat.le_zero.mp deep
      exact absurd rfl enough
  | succ depth => exact enacts depth deep enacted visitor walk {} represents enough

theorem enacts_call {nonterminal : Nonterminal} (deep : fuel ≤ depth)
    (callee : ∀ depth, fuel ≤ depth + 1 →
      Enacts options sink depth fuel nonterminal.rule) :
    Enacts options sink depth (fuel + 1) (.call nonterminal) := by
  intro _ visitor walk locals represents enough
  rw [Walk.run] at enough ⊢
  rw [Rule.procedure, follow, ← nonterminal.procedure_rule]
  exact answers_run callee deep nonterminal.isEnacted_rule represents enough

theorem enacts_statement {block : Block} (deep : fuel ≤ depth)
    (callee : ∀ (statement : Statement) depth, fuel ≤ depth + 1 →
      Enacts options sink depth fuel statement.rule) :
    Enacts options sink depth (fuel + 1) (.statement block) := by
  intro _ visitor walk locals represents enough
  rw [Walk.run, Walk.beginning] at enough ⊢
  rw [Rule.procedure, follow, represents.cursor]
  cases begins : walk.cursor.beginning block with
  | nothing => exact ⟨rfl, represents⟩
  | unexpected => exact ⟨rfl, represents.complain .unexpectedToken⟩
  | statement statement =>
      rw [begins] at enough
      dsimp only
      rw [← statement.procedure_rule]
      exact answers_run (callee statement) deep statement.isEnacted_rule
        represents enough

/-- The list of parameters is left as it ends, in the scope that is opened for
it. -/
theorem enacts_signature {kind : TokenKind} {modifiers : Modifiers}
    (parameters : Enacts options sink depth fuel (.call .parameters)) :
    Enacts options sink depth (fuel + 1) (.signature kind modifiers) := by
  intro enacted visitor walk locals represents enough
  rw [Rule.isEnacted, Bool.not_eq_true'] at enacted
  have closed (name : Option String) : Walk.openedScope kind name = none :=
    if_neg (Bool.eq_false_iff.mp enacted)
  obtain ⟨outcome, defined, declared, defined_eq, define_eq, defines⟩ :=
    represents.define kind modifiers
  have there := defines.represents
  simp only [Walk.entered, closed] at there
  rw [Walk.run, define_eq] at enough ⊢
  rw [Rule.procedure, follow_signature defined_eq]
  cases outcome with
  | finished =>
      dsimp only at enough there ⊢
      rw [if_pos rfl, there.cursor, defines.definition_eq]
      cases taken_eq : declared.2.cursor.take? [Operator.leftParen] with
      | none => exact ⟨rfl, there⟩
      | some taken =>
          rw [taken_eq] at enough
          have answers := parameters rfl _ _ {}
            ((there.moveTo taken.2).openScope
              (Walk.parameterScope declared.1) .nil) enough
          exact ⟨answers.outcome, answers.represents.popScope⟩
  | _ => exact ⟨rfl, there⟩

/-- In front of the closing mark of a list, to go round again comes to taking the
mark. -/
theorem answers_resumed {resumption : Resumption} {next resumed : Rule}
    {visitor : Visitor} {walk : Walk} (deep : fuel ≤ depth)
    (list : Rule.resumesList resumption next resumed)
    (represents : Represents options sink visitor walk)
    (resumes : walk.resumes resumption)
    (enough : (Walk.run fuel resumed walk).1 ≠ .exhausted) (locals : Locals) :
    Answers options sink
      (visited (follow (run depth) next.procedure locals visitor))
      (Walk.run fuel resumed walk) := by
  obtain ⟨closer, comma, again, rest, rfl, rfl, rfl, apart, rule_eq⟩ :=
    Rule.of_resumesList list
  obtain ⟨found, taken_eq⟩ := Option.isSome_iff_exists.mp
    ((TokenCursor.peekIs_eq_isSome_take? _ _).symm.trans resumes)
  have missing := TokenCursor.take?_eq_none_of_apart apart taken_eq
  cases fuel with
  | zero => exact absurd rfl enough
  | succ fuel =>
  cases depth with
  | zero => exact absurd deep (Nat.not_succ_le_zero fuel)
  | succ depth =>
  rw [Walk.run, taken_eq] at enough ⊢
  cases fuel with
  | zero => exact absurd rfl enough
  | succ fuel =>
      simp only [Rule.procedure, follow, represents.cursor, missing, run,
        ← again.procedure_rule, rule_eq, taken_eq]
      exact ⟨rfl, represents.moveTo found.2⟩

/-- A body that is given up where it can be resumed is passed over. -/
theorem enacts_recover {resumption : Resumption} {body next resumed : Rule}
    (deep : fuel ≤ depth) (inner : Enacts options sink depth fuel body)
    (back : Enacts options sink depth fuel next) :
    Enacts options sink depth (fuel + 1)
      (.recover resumption body next resumed) := by
  intro enacted visitor walk locals represents enough
  simp only [Rule.isEnacted, Bool.and_eq_true, Bool.or_eq_true, beq_iff_eq]
    at enacted
  obtain ⟨⟨body_enacted, next_enacted⟩, resumed_enacted⟩ := enacted
  rw [Walk.run] at enough ⊢
  cases body_eq : Walk.run fuel body walk with
  | mk outcome behind =>
  rw [body_eq] at enough
  have unexhausted : outcome ≠ .exhausted := by
    rintro rfl
    exact enough rfl
  have answers := inner body_enacted visitor walk {} represents
    (by rwa [body_eq])
  rw [body_eq] at answers
  cases followed_eq : follow (run depth) body.procedure {} visitor with
  | mk other rest =>
  obtain ⟨kept, after⟩ := rest
  rw [followed_eq] at answers
  obtain rfl : other = outcome := answers.outcome
  have there : Represents options sink after behind := answers.represents
  rw [Rule.procedure, follow_recover followed_eq, there.cursor]
  cases other with
  | finished => exact back next_enacted after behind _ there enough
  | abandoned line =>
      have same : behind.cursor.resumes resumption =
        behind.resumes resumption := rfl
      rw [same, Outcome.absorb]
      dsimp only at enough ⊢
      by_cases resumes : behind.resumes resumption
      · rw [if_pos resumes] at enough ⊢
        rw [if_pos resumes, if_pos rfl]
        rcases resumed_enacted with rfl | list
        · exact back next_enacted after behind _ there enough
        · exact answers_resumed deep list there resumes enough _
      · rw [if_neg resumes, if_neg resumes]
        exact ⟨rfl, there⟩
  | _ => exact ⟨rfl, there⟩

/-- Every rule is enacted, by the induction on the steps of the walk: within a
procedure the depth stays, and a call goes one deeper. -/
theorem enacts (fuel : Nat) : ∀ (depth : Nat) (rule : Rule),
    fuel ≤ depth + 1 → Enacts options sink depth fuel rule := by
  induction fuel with
  | zero => exact fun _ _ _ _ _ _ _ _ enough => absurd rfl enough
  | succ fuel induction =>
      intro depth rule deep
      have shallow : fuel ≤ depth := Nat.le_of_succ_le_succ deep
      have below (rule : Rule) : Enacts options sink depth fuel rule :=
        induction depth rule (Nat.le_succ_of_le shallow)
      cases rule with
      | done => exact fun _ _ _ _ represents _ => ⟨rfl, represents⟩
      | seq first next => exact enacts_seq (below first) (below next)
      | need expected =>
          exact fun _ _ _ _ represents _ => represents.need expected
      | expect candidates =>
          exact fun _ _ _ _ represents _ => represents.expect candidates
      | accept candidates found missing =>
          exact enacts_accept (below found) (below missing)
      | advance => exact fun _ _ _ _ represents _ => represents.advance _
      | branch test holds fails =>
          exact enacts_branch (below holds) (below fails)
      | complain complaint =>
          exact fun _ _ _ _ represents _ => ⟨rfl, represents.complain complaint⟩
      | strings => exact fun _ _ _ _ represents _ => ⟨rfl, represents.strings⟩
      | resolve => exact fun _ _ _ _ represents _ => ⟨rfl, represents.resolve⟩
      | define kind modifiers body =>
          by_cases opens : kind.opensScope
          · exact enacts_scoped opens (below body)
          · exact enacts_plain opens
      | signature kind modifiers => exact enacts_signature (below _)
      | recover resumption body next resumed =>
          exact enacts_recover shallow (below body) (below next)
      | statement block =>
          exact enacts_statement shallow fun statement depth =>
            induction depth statement.rule
      | call nonterminal =>
          exact enacts_call shallow fun depth =>
            induction depth nonterminal.rule

end Enacts

end Visitor

end ComponentLang
