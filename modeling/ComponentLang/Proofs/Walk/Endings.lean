import ComponentLang.Proofs.Walk.Bodies

namespace ComponentLang

/-- The visit follows a body from its opening brace on. -/
def Visit.isBody (visit : Visit) : Bool :=
  match visit.rule with
  | .call nonterminal =>
      nonterminal.isBraced && visit.walk.holds (.spelled Operator.leftBrace)
  | _ => false

namespace Walk

/-- Nothing more is found missing at the end of the document of what is of the
given sort. -/
def MissesNo (sort : Expected → Prop) (before after : Walk) : Prop :=
  ∀ finding ∈ after.findings, ∀ expected,
    finding.cause = .endOfInput expected → sort expected →
    finding ∈ before.findings

variable {sort : Expected → Prop}

theorem MissesNo.report {walk : Walk} {cause : Cause} {anchor : Token}
    (other : ∀ expected, cause = .endOfInput expected → ¬sort expected) :
    MissesNo sort walk (walk.report cause anchor) := by
  intro finding member expected cause_eq sorted
  rcases List.mem_cons.mp member with rfl | earlier
  · exact absurd sorted (other expected cause_eq)
  · exact earlier

theorem keptBySteps_missesNo (sort : Expected → Prop) :
    KeptBySteps (fun expected => ¬sort expected) (MissesNo sort) where
  refl := fun _ member _ _ _ => member
  trans front back finding member expected cause_eq sorted :=
    front finding (back finding member expected cause_eq sorted) expected
      cause_eq sorted
  report other := .report fun expected cause_eq =>
    absurd cause_eq (other expected)
  ended unsorted := .report fun expected cause_eq => by
    cases cause_eq
    exact unsorted
  next _ := fun _ member _ _ _ => member
  rescue _ := fun _ member _ _ _ => member
  strings := fun _ member _ _ _ => member
  classify := fun _ member _ _ _ => member
  register _ _ _ := fun _ member _ _ _ => member
  scope body := body

theorem missesNo_run {fuel : Nat} {rule : Rule} {walk : Walk}
    (unended : (run fuel rule walk).1 ≠ .ended) :
    MissesNo sort walk (run fuel rule walk).2 :=
  (keptBySteps_missesNo sort).run fuel rule walk (.inr unended)

def isClosingBrace (expected : Expected) : Prop :=
  expected = .oneOf [Operator.rightBrace]

theorem not_isClosingBrace {expected : Expected}
    (braceless : expected.isBraceless) : ¬isClosingBrace expected := by
  rintro rfl
  nomatch braceless

def BodiesEnd (visit : Visit) : Prop :=
  ∀ inner ∈ visit.within, inner.isBody → inner.result.1 ≠ .ended

theorem BodiesEnd.part {visit part : Visit} (ending : BodiesEnd visit)
    (way : Visit.Part visit part) : BodiesEnd part :=
  fun inner inside => ending inner (Visit.within_of_mem_parts way.mem inside)

theorem missesNo_body {fuel : Nat} {body : Nonterminal} {walk : Walk}
    (braced : body.isBraced)
    (opening : walk.holds (.spelled Operator.leftBrace))
    (ending : BodiesEnd ⟨fuel, .call body, walk⟩) :
    MissesNo isClosingBrace walk (run fuel (.call body) walk).2 := by
  apply missesNo_run
  apply ending _ (Visit.self_mem_within _)
  simp only [Visit.isBody, braced, opening, Bool.true_and]

theorem holds_of_take? {walk : Walk} {terminal found : Terminal}
    {cursor : TokenCursor}
    (take_eq : walk.cursor.take? [terminal] = some (found, cursor)) :
    (walk.moveTo cursor).holds (.spelled terminal) := by
  obtain ⟨token, next_eq, find_eq⟩ := TokenCursor.next?_of_take? take_eq
  have spelled := Terminal.spelling_of_find?_eq_some find_eq
  rw [List.mem_singleton.mp (List.mem_of_find?_eq_some find_eq)] at spelled
  rw [holds, TokenCursor.holds, moveTo, (TokenCursor.current?_of_next? next_eq).1]
  exact beq_iff_eq.mpr spelled.symm

theorem missesNo_requiredBody {fuel : Nat} {body : Nonterminal} {walk : Walk}
    (braced : body.isBraced)
    (ending : BodiesEnd ⟨fuel, .seq (.expect [Operator.leftBrace])
      (.branch (.spelled Operator.leftBrace) (.call body) .done), walk⟩) :
    MissesNo isClosingBrace walk (run fuel (.seq (.expect [Operator.leftBrace])
      (.branch (.spelled Operator.leftBrace) (.call body) .done)) walk).2 := by
  have kept := keptBySteps_missesNo isClosingBrace
  match fuel with
  | 0 | 1 => exact kept.refl
  | fuel + 2 =>
      have unclosing : ¬isClosingBrace (.oneOf [Operator.leftBrace]) := nofun
      have opening := kept.expect walk [Operator.leftBrace] (.inl unclosing)
      simp only [run]
      split
      · next after expect_eq =>
          rw [expect_eq] at opening
          apply kept.trans opening
          have branching := ending.part (.next expect_eq)
          split
          · next here =>
              cases fuel with
              | zero => exact kept.refl
              | succ fuel =>
                  exact missesNo_body braced here
                    (branching.part (.holding here))
          · cases fuel <;> exact kept.refl
      · exact opening

theorem missesNo_defined {walk after : Walk} {kind : TokenKind}
    {modifiers : Modifiers} {outcome : Outcome} {name : Option String}
    (define_eq : walk.define kind modifiers = (outcome, name, after)) :
    MissesNo isClosingBrace walk after :=
  (keptBySteps_missesNo _).defined define_eq (.inl (not_isClosingBrace rfl))

/-- Followed with `fuel`, a rule that pairs its braces misses a closing brace
only in a body. -/
def PairedWithin (fuel : Nat) : Prop :=
  ∀ {rule : Rule} {walk : Walk}, rule.pairsBraces →
    BodiesEnd ⟨fuel, rule, walk⟩ →
      MissesNo isClosingBrace walk (run fuel rule walk).2

namespace PairedWithin

variable {fuel : Nat} {walk : Walk}

theorem seq {first next : Rule} (paired : PairedWithin fuel)
    (first_tidy : first.pairsBraces) (next_tidy : next.pairsBraces)
    (ending : BodiesEnd ⟨fuel + 1, .seq first next, walk⟩) :
    MissesNo isClosingBrace walk (run (fuel + 1) (.seq first next) walk).2 := by
  have front := paired first_tidy (ending.part .first)
  rw [run]
  split
  · next after run_eq =>
      rw [run_eq] at front
      exact (keptBySteps_missesNo _).trans front
        (paired next_tidy (ending.part (.next run_eq)))
  · exact front

theorem accept {candidates : List Terminal} {found missing : Rule}
    (paired : PairedWithin fuel) (found_tidy : found.pairsBraces)
    (missing_tidy : missing.pairsBraces)
    (ending : BodiesEnd ⟨fuel + 1, .accept candidates found missing, walk⟩) :
    MissesNo isClosingBrace walk
      (run (fuel + 1) (.accept candidates found missing) walk).2 := by
  have kept := keptBySteps_missesNo isClosingBrace
  rw [run]
  split
  · next terminal cursor take_eq =>
      exact kept.trans (kept.take take_eq)
        (paired found_tidy (ending.part (.found take_eq)))
  · next take_eq => exact paired missing_tidy (ending.part (.missing take_eq))

theorem branch {test : Test} {holds fails : Rule} (paired : PairedWithin fuel)
    (holds_tidy : holds.pairsBraces) (fails_tidy : fails.pairsBraces)
    (ending : BodiesEnd ⟨fuel + 1, .branch test holds fails, walk⟩) :
    MissesNo isClosingBrace walk
      (run (fuel + 1) (.branch test holds fails) walk).2 := by
  rw [run]
  split
  · next here => exact paired holds_tidy (ending.part (.holding here))
  · next away => exact paired fails_tidy (ending.part (.failing away))

theorem define {kind : TokenKind} {modifiers : Modifiers} {body : Rule}
    (paired : PairedWithin fuel) (tidy : body.pairsBraces)
    (ending : BodiesEnd ⟨fuel + 1, .define kind modifiers body, walk⟩) :
    MissesNo isClosingBrace walk
      (run (fuel + 1) (.define kind modifiers body) walk).2 := by
  have kept := keptBySteps_missesNo isClosingBrace
  rw [run]
  split
  · next name after define_eq =>
      apply kept.trans (missesNo_defined define_eq)
      split
      · next name scope_eq =>
          exact kept.scope
            (paired tidy (ending.part (.opening define_eq scope_eq)))
      · next scope_eq =>
          exact paired tidy (ending.part (.plain define_eq scope_eq))
  · next define_eq => exact missesNo_defined define_eq

theorem signature {kind : TokenKind} {modifiers : Modifiers}
    (paired : PairedWithin fuel)
    (ending : BodiesEnd ⟨fuel + 1, .signature kind modifiers, walk⟩) :
    MissesNo isClosingBrace walk
      (run (fuel + 1) (.signature kind modifiers) walk).2 := by
  have kept := keptBySteps_missesNo isClosingBrace
  rw [run]
  split
  · next name after define_eq =>
      apply kept.trans (missesNo_defined define_eq)
      split
      · next terminal cursor take_eq =>
          have parameters := ending.part (.signature define_eq take_eq)
          exact kept.trans (kept.take take_eq)
            (kept.scope (paired rfl parameters))
      · exact kept.refl
  · next define_eq => exact missesNo_defined define_eq

theorem recover {resumption : Resumption} {body next resumed : Rule}
    (paired : PairedWithin fuel) (body_tidy : body.pairsBraces)
    (next_tidy : next.pairsBraces) (resumed_tidy : resumed.pairsBraces)
    (ending :
      BodiesEnd ⟨fuel + 1, .recover resumption body next resumed, walk⟩) :
    MissesNo isClosingBrace walk
      (run (fuel + 1) (.recover resumption body next resumed) walk).2 := by
  have kept := keptBySteps_missesNo isClosingBrace
  have front := paired body_tidy (ending.part .body)
  rw [run]
  split
  · next after run_eq =>
      rw [run_eq] at front
      exact kept.trans front
        (paired next_tidy (ending.part (.further run_eq)))
  · next line after run_eq =>
      rw [run_eq] at front
      split
      · next here =>
          exact kept.trans front
            (paired resumed_tidy (ending.part (.resumed run_eq here)))
      · exact front
  · exact front

end PairedWithin

theorem pairedWithin (fuel : Nat) : PairedWithin fuel := by
  have kept := keptBySteps_missesNo isClosingBrace
  induction fuel with
  | zero => exact fun _ _ => kept.refl
  | succ fuel paired =>
      intro rule walk tidy ending
      fun_cases Rule.pairsBraces rule with
      | case1 body => exact missesNo_requiredBody tidy ending
      | case2 body =>
          rw [run]
          split
          · next terminal cursor take_eq =>
              exact kept.trans (kept.take take_eq) (missesNo_body tidy
                (holds_of_take? take_eq) (ending.part (.found take_eq)))
          · next take_eq => exact paired rfl (ending.part (.missing take_eq))
      | case3 first next other =>
          rw [Rule.pairsBraces.eq_3 _ _ other, Bool.and_eq_true] at tidy
          exact paired.seq tidy.1 tidy.2 ending
      | case4 expected =>
          exact kept.need walk expected (.inl (not_isClosingBrace tidy))
      | case5 candidates =>
          exact kept.expect walk candidates (.inl (not_isClosingBrace tidy))
      | case6 candidates found missing other =>
          rw [Rule.pairsBraces.eq_6 _ _ _ other, Bool.and_eq_true,
            Bool.and_eq_true] at tidy
          exact paired.accept tidy.1.2 tidy.2 ending
      | case7 test holds fails =>
          rw [Rule.pairsBraces, Bool.and_eq_true] at tidy
          exact paired.branch tidy.1 tidy.2 ending
      | case8 kind modifiers body => exact paired.define tidy ending
      | case9 resumption body next resumed =>
          rw [Rule.pairsBraces, Bool.and_eq_true, Bool.and_eq_true] at tidy
          exact paired.recover tidy.1.1 tidy.1.2 tidy.2 ending
      | case10 nonterminal =>
          -- Where a body is called, the rules above have seen to it.
          rw [Rule.pairsBraces, Bool.not_eq_true'] at tidy
          exact paired (nonterminal.pairsBraces_rule tidy) (ending.part .call)
      | case11 => exact kept.refl
      | case12 complaint => exact kept.complain walk complaint
      | case13 => exact kept.strings
      | case14 => exact kept.resolve walk
      | case15 kind modifiers => exact paired.signature ending
      | case16 | case17 => cases tidy

theorem missesNo_statement (fuel : Nat) (block : Block) (walk : Walk)
    (ending : BodiesEnd ⟨fuel, .statement block, walk⟩) :
    MissesNo isClosingBrace walk (run fuel (.statement block) walk).2 := by
  have kept := keptBySteps_missesNo isClosingBrace
  cases fuel with
  | zero => exact kept.refl
  | succ fuel =>
      rw [run]
      split
      · exact kept.refl
      · next statement begins =>
          exact pairedWithin fuel statement.pairsBraces_rule
            (ending.part (.statement begins))
      · exact kept.complain walk .unexpectedToken

theorem missesNo_document {tokens : List Token}
    (ending : ∀ visit ∈ visits tokens, visit.isBody → visit.result.1 ≠ .ended) :
    MissesNo isClosingBrace (start tokens)
      (document (fun _ => false) tokens).2 := by
  have kept := keptBySteps_missesNo isClosingBrace
  unfold document
  split
  · exact kept.refl
  · next some_token =>
      apply related_statements kept
      · intro walk
        unfold settle
        split <;> exact kept.refl
      · intro first begins
        apply missesNo_statement
        intro inner inside
        apply ending inner
        apply List.mem_flatMap.mpr
        refine ⟨_, ?_, inside⟩
        rw [statementVisits, if_neg some_token]
        exact List.mem_map_of_mem begins

end Walk

end ComponentLang
