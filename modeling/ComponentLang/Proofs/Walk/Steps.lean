import ComponentLang.Proofs.Token.Passing
import ComponentLang.Walk.Allowance

namespace ComponentLang

structure Symbol.DeclaredBy (symbol : Symbol) (token : Token) : Prop where
  line : symbol.line = token.line
  column : symbol.column = token.column
  identifier : Literal.isIdentifier token.text
  name : symbol.name = Literal.nameOf token.text

namespace Walk

/-- A relation that single steps keep. That the document ends where something
is expected need only be looked at when `ends` holds of what is expected. -/
structure KeptBySteps (ends : Expected → Prop)
    (related : Walk → Walk → Prop) : Prop where
  refl : related walk walk
  trans : related first second → related second third → related first third
  report : (∀ expected, cause ≠ .endOfInput expected) →
    related walk (walk.report cause anchor)
  ended : ends expected → related walk
    (walk.report (.endOfInput expected) (.marker walk.place))
  next : walk.cursor.next? = some (token, reached) →
    related walk (walk.moveTo reached)
  rescue : walk.cursor.rescue? candidates = some reached →
    related walk (walk.moveTo reached)
  strings : related walk walk.strings
  classify : related walk (walk.classify kind modifiers)
  register : walk.cursor.current? = some token → symbol.DeclaredBy token →
    symbol.scope = walk.scopes.path →
    related walk { walk with symbols := (walk.symbols.declare symbol).2 }
  scope : related (walk.openScope name kind) after →
    related walk after.closeScope

namespace KeptBySteps

variable {ends : Expected → Prop} {related : Walk → Walk → Prop}

theorem advance (kept : KeptBySteps ends related) (walk : Walk)
    (expected : Expected)
    (complete : ends expected ∨ (walk.advance expected).1 ≠ .ended) :
    related walk (walk.advance expected).2 := by
  unfold Walk.advance at complete ⊢
  split
  · next token cursor next_eq => exact kept.next next_eq
  · next next_eq =>
      rw [next_eq] at complete
      exact kept.ended (complete.resolve_right fun unended => unended rfl)

theorem need (kept : KeptBySteps ends related) (walk : Walk)
    (expected : Expected)
    (complete : ends expected ∨ (walk.need expected).1 ≠ .ended) :
    related walk (walk.need expected).2 := by
  have advanced := kept.advance walk expected
  unfold Walk.need at complete ⊢
  split
  · next next_eq =>
      rw [next_eq] at complete
      exact advanced complete
  · next token cursor next_eq =>
      split
      · exact kept.next next_eq
      · exact kept.report nofun

theorem expect (kept : KeptBySteps ends related) (walk : Walk)
    (candidates : List Terminal)
    (complete : ends (.oneOf candidates) ∨
      (walk.expect candidates).1 ≠ .ended) :
    related walk (walk.expect candidates).2 := by
  have needed := kept.need walk (.oneOf candidates)
  unfold Walk.expect at complete ⊢
  cases need_eq : walk.need (.oneOf candidates) with
  | mk outcome after =>
      rw [need_eq] at needed complete
      cases outcome with
      | finished =>
          have taken := needed (.inr nofun)
          simp only
          split
          · exact taken
          · next token current_eq =>
              split
              · exact taken
              · have reported : related after
                    (after.report (.mismatch candidates) token) :=
                  kept.report nofun
                apply kept.trans taken
                apply kept.trans reported
                unfold Walk.rescue
                split
                · next reached found => exact kept.rescue found
                · exact kept.refl
      | abandoned line => exact needed complete
      | ended => exact needed complete
      | exhausted => exact needed complete

theorem take (kept : KeptBySteps ends related) {walk : Walk}
    {candidates : List Terminal} {terminal : Terminal} {cursor : TokenCursor}
    (found : walk.cursor.take? candidates = some (terminal, cursor)) :
    related walk (walk.moveTo cursor) := by
  unfold TokenCursor.take? at found
  split at found
  · nomatch found
  · next token after next_eq =>
      obtain ⟨_, -, same⟩ := Option.map_eq_some_iff.mp found
      cases same
      exact kept.next next_eq

theorem complain (kept : KeptBySteps ends related) (walk : Walk)
    (complaint : Complaint) : related walk (walk.complain complaint) := by
  unfold Walk.complain
  split
  · exact kept.refl
  · cases complaint <;> exact kept.report nofun

theorem resolve (kept : KeptBySteps ends related) (walk : Walk) :
    related walk walk.resolve := by
  unfold Walk.resolve
  split
  · exact kept.refl
  · split
    · split
      · exact kept.classify
      · exact kept.report nofun
    · exact kept.report nofun

theorem reportDuplicate (kept : KeptBySteps ends related) (walk : Walk)
    (registration : Registration) (kind : TokenKind) (token : Token) :
    related walk (walk.reportDuplicate registration kind token) := by
  unfold Walk.reportDuplicate
  split
  · split
    · exact kept.refl
    · exact kept.report nofun
  · exact kept.refl

theorem declare (kept : KeptBySteps ends related) (walk : Walk)
    (kind : TokenKind) (modifiers : Modifiers) :
    related walk (walk.declare kind modifiers).2 := by
  unfold Walk.declare
  split
  · exact kept.refl
  · next token there =>
      split
      · next identifier =>
          refine kept.trans (kept.register there ?_ ?_) (kept.trans
            (kept.reportDuplicate _ _ _ _) kept.classify)
          · exact ⟨rfl, rfl, identifier, rfl⟩
          · rfl
      · exact kept.report nofun

theorem define (kept : KeptBySteps ends related) (walk : Walk)
    (kind : TokenKind) (modifiers : Modifiers)
    (complete : ends .identifier ∨ (walk.define kind modifiers).1 ≠ .ended) :
    related walk (walk.define kind modifiers).2.2 := by
  have needed := kept.need walk .identifier
  unfold Walk.define at complete ⊢
  cases need_eq : walk.need .identifier with
  | mk outcome after =>
      rw [need_eq] at needed complete
      cases outcome with
      | finished =>
          exact kept.trans (needed (.inr nofun))
            (kept.declare after kind modifiers)
      | abandoned line => exact needed complete
      | ended => exact needed complete
      | exhausted => exact needed complete

theorem defined (kept : KeptBySteps ends related) {walk after : Walk}
    {kind : TokenKind} {modifiers : Modifiers} {outcome : Outcome}
    {name : Option String}
    (define_eq : walk.define kind modifiers = (outcome, name, after))
    (complete : ends .identifier ∨ outcome ≠ .ended) : related walk after := by
  have named := kept.define walk kind modifiers
  rw [define_eq] at named
  exact named complete

theorem run (kept : KeptBySteps ends related) (fuel : Nat) (rule : Rule)
    (walk : Walk) (complete : (∀ expected, ends expected) ∨
      (Walk.run fuel rule walk).1 ≠ .ended) :
    related walk (Walk.run fuel rule walk).2 := by
  fun_induction Walk.run fuel rule walk with
  | case1 | case2 => exact kept.refl
  | case3 fuel walk first next after first_eq first_ih next_ih =>
      rw [first_eq] at first_ih
      exact kept.trans (first_ih (.inr (by simp))) (next_ih complete)
  | case4 fuel walk first next _ first_ih => exact first_ih complete
  | case5 fuel walk expected =>
      exact kept.need walk expected (complete.imp_left (· expected))
  | case6 fuel walk candidates =>
      exact kept.expect walk candidates (complete.imp_left (· _))
  | case7 fuel walk candidates found missing terminal cursor take_eq induction =>
      exact kept.trans (kept.take take_eq) (induction complete)
  | case8 fuel walk candidates found missing _ induction =>
      exact induction complete
  | case9 fuel walk => exact kept.advance walk _ (complete.imp_left (· _))
  | case10 fuel walk test holds fails _ induction => exact induction complete
  | case11 fuel walk test holds fails _ induction => exact induction complete
  | case12 fuel walk complaint => exact kept.complain walk complaint
  | case13 => exact kept.strings
  | case14 fuel walk => exact kept.resolve walk
  | case15 fuel walk kind modifiers body name defined define_eq inner _ outcome
      after body_eq induction =>
      rw [body_eq] at induction
      exact kept.trans (kept.defined define_eq (.inr (by simp)))
        (kept.scope (induction complete))
  | case16 fuel walk kind modifiers body name defined define_eq _ induction =>
      exact kept.trans (kept.defined define_eq (.inr (by simp)))
        (induction complete)
  | case17 fuel walk kind modifiers body stopped name after _ define_eq =>
      exact kept.defined define_eq (complete.imp_left (· _))
  | case18 fuel walk kind modifiers name defined define_eq terminal cursor
      take_eq outcome after params_eq induction =>
      rw [params_eq] at induction
      apply kept.trans (kept.defined define_eq (.inr (by simp)))
      apply kept.trans (kept.take take_eq)
      exact kept.scope (induction complete)
  | case19 fuel walk kind modifiers name defined define_eq _ =>
      exact kept.defined define_eq (complete.imp_left (· _))
  | case20 fuel walk kind modifiers stopped name after _ define_eq =>
      exact kept.defined define_eq (complete.imp_left (· _))
  | case21 fuel walk resumption body next resumed after body_eq body_ih
      next_ih =>
      rw [body_eq] at body_ih
      exact kept.trans (body_ih (.inr (by simp))) (next_ih complete)
  | case22 fuel walk resumption body next resumed line after body_eq _ body_ih
      resumed_ih =>
      rw [body_eq] at body_ih
      exact kept.trans (body_ih (.inr (by simp))) (resumed_ih complete)
  | case23 fuel walk resumption body next resumed line after body_eq _
      body_ih =>
      rw [body_eq] at body_ih
      exact body_ih complete
  | case24 fuel walk resumption body next resumed _ _ body_ih =>
      exact body_ih complete
  | case25 => exact kept.refl
  | case26 fuel walk block statement _ induction => exact induction complete
  | case27 fuel walk block _ => exact kept.complain walk .unexpectedToken
  | case28 fuel walk nonterminal induction => exact induction complete

end KeptBySteps

structure Grows (before after : Walk) : Prop where
  classified : before.classified <:+ after.classified
  findings : before.findings <:+ after.findings

theorem Grows.of_eq {before after : Walk}
    (classified : after.classified = before.classified)
    (findings : after.findings = before.findings) : Grows before after :=
  ⟨classified ▸ List.suffix_rfl, findings ▸ List.suffix_rfl⟩

theorem Grows.trans {first second third : Walk} (front : Grows first second)
    (back : Grows second third) : Grows first third :=
  ⟨front.classified.trans back.classified,
    front.findings.trans back.findings⟩

theorem keptBySteps_grows : KeptBySteps (fun _ => True) Grows where
  refl := .of_eq rfl rfl
  trans := .trans
  report _ := ⟨List.suffix_rfl, List.suffix_cons _ _⟩
  ended _ := ⟨List.suffix_rfl, List.suffix_cons _ _⟩
  next _ := .of_eq rfl rfl
  rescue _ := .of_eq rfl rfl
  strings := .of_eq rfl rfl
  classify := ⟨List.suffix_append _ _, List.suffix_rfl⟩
  register _ _ _ := .of_eq rfl rfl
  scope body := ⟨body.classified, body.findings⟩

theorem settle_moveTo (walk : Walk) (cursor : TokenCursor) :
    (walk.moveTo cursor).settle = walk.settle.moveTo cursor := by
  cases global : walk.scopes.depth == 1 <;>
    simp only [settle, moveTo, global] <;> rfl

theorem grows_settle (walk : Walk) : Grows walk walk.settle := by
  unfold settle
  split <;> exact .of_eq rfl rfl

/-! The statements of a document. -/

def furtherStatements (steps fuel : Nat) (walk : Walk) : Bool × Walk :=
  match walk.settle.cursor.next? with
  | some (_, cursor) =>
      statements (fun _ => false) steps fuel (walk.settle.moveTo cursor)
  | none => (true, walk.settle)

theorem statements_step (steps fuel : Nat) (walk : Walk) :
    statements (fun _ => false) steps (fuel + 1) walk =
      if (run steps (.statement .document) walk).1 = .ended then
        (true, (run steps (.statement .document) walk).2.settle)
      else
        furtherStatements steps fuel
          (run steps (.statement .document) walk).2 := by
  rw [statements, if_neg Bool.false_ne_true]
  cases run steps (.statement .document) walk with
  | mk outcome after => cases outcome <;> rfl

theorem run_statement_of_isTrivia {walk : Walk} {steps : Nat}
    {token : Token} (there : walk.cursor.current? = some token) (trivia : token.isTrivia)
    (some_step : steps ≠ 0) (block : Block) :
    run steps (.statement block) walk = (.finished, walk) := by
  obtain ⟨fuel, rfl⟩ := Nat.exists_eq_succ_of_ne_zero some_step
  have nothing : walk.beginning block = .nothing := by
    unfold beginning TokenCursor.beginning
    rw [there]
    simp only [trivia, Bool.true_or, if_true]
  rw [run, nothing]

theorem next?_of_need {walk after : Walk} {expected : Expected}
    (finished : walk.need expected = (.finished, after)) :
    ∃ token reached, walk.cursor.next? = some (token, reached) ∧
      after = walk.moveTo reached := by
  unfold need advance at finished
  split at finished
  · next next_eq =>
      rw [next_eq] at finished
      cases finished
  · next token reached next_eq =>
      split at finished
      · cases finished
        exact ⟨token, reached, next_eq, rfl⟩
      · cases finished

/-! Steps that leave the walk where it is. -/

theorem behind_complain (walk : Walk) (complaint : Complaint) :
    (walk.complain complaint).cursor.behind = walk.cursor.behind := by
  unfold complain
  split
  · rfl
  · cases complaint <;> rfl

theorem behind_resolve (walk : Walk) :
    walk.resolve.cursor.behind = walk.cursor.behind := by
  unfold resolve
  split
  · rfl
  · split
    · split
      · exact TokenCursor.behind_reclassify _ _ _
      · rfl
    · rfl

theorem exists_reportDuplicate (walk : Walk) (registration : Registration)
    (kind : TokenKind) (token : Token) :
    ∃ findings,
      walk.reportDuplicate registration kind token = { walk with findings } := by
  unfold reportDuplicate
  split
  · split
    · exact ⟨walk.findings, rfl⟩
    · exact ⟨_, rfl⟩
  · exact ⟨walk.findings, rfl⟩

theorem cursor_reportDuplicate (walk : Walk) (registration : Registration)
    (kind : TokenKind) (token : Token) :
    (walk.reportDuplicate registration kind token).cursor = walk.cursor := by
  obtain ⟨findings, same⟩ := walk.exists_reportDuplicate registration kind token
  rw [same]

theorem behind_declare (walk : Walk) (kind : TokenKind)
    (modifiers : Modifiers) :
    (walk.declare kind modifiers).2.cursor.behind = walk.cursor.behind := by
  unfold declare
  split
  · rfl
  · split
    · exact (TokenCursor.behind_reclassify _ _ _).trans
        (congrArg TokenCursor.behind (cursor_reportDuplicate _ _ _ _))
    · rfl

end Walk

end ComponentLang
