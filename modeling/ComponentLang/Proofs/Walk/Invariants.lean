import ComponentLang.Proofs.Grammar.Freshness
import ComponentLang.Proofs.Walk.Visits

namespace ComponentLang

namespace Walk

/-- An invariant that single steps keep. Its first argument tells whether the
current token is fresh. What is said about the current token needs a fresh one;
any other step may follow a token that is not. -/
structure Invariant (holds : Bool → Walk → Prop) : Prop where
  weaken : holds true walk → holds false walk
  scopes : holds fresh walk →
    holds fresh { walk with scopes := stack, resets := count }
  next : holds false walk → walk.cursor.next? = some (token, reached) →
    holds true (walk.moveTo reached)
  ended : holds false walk → walk.cursor.next? = none →
    holds false (walk.report (.endOfInput expected) (.marker walk.place))
  abandoned : holds false walk → walk.cursor.next? = some (token, reached) →
    holds false (walk.report (.abandoned expected token.text)
      (if walk.isLater token then .marker walk.place else token))
  report : holds true walk → walk.cursor.current? = some token →
    (∀ known, cause ≠ .unknownIdentifier known) →
    holds true (walk.report cause token)
  rescue : holds true walk → walk.cursor.rescue? candidates = some reached →
    holds false (walk.moveTo reached)
  strings : holds true walk → holds false walk.strings
  resolve : holds true walk → holds false walk.resolve
  declare : kind.isSemantic → holds true walk →
    holds false (walk.declare kind modifiers).2

namespace Invariant

variable {holds : Bool → Walk → Prop} {walk : Walk} {fresh : Bool}

theorem any (inv : Invariant holds) (here : holds fresh walk) :
    holds false walk := by
  cases fresh with
  | false => exact here
  | true => exact inv.weaken here

theorem advance (inv : Invariant holds) (here : holds false walk)
    (expected : Expected) :
    holds ((walk.advance expected).1 == .finished)
      (walk.advance expected).2 := by
  unfold Walk.advance
  split
  · next token reached next_eq => exact inv.next here next_eq
  · next none_left => exact inv.ended here none_left

theorem need (inv : Invariant holds) (here : holds false walk)
    (expected : Expected) :
    holds ((walk.need expected).1 == .finished) (walk.need expected).2 := by
  unfold Walk.need
  split
  · exact inv.advance here expected
  · next token reached next_eq =>
      split
      · exact inv.next here next_eq
      · exact inv.abandoned here next_eq

theorem expect (inv : Invariant holds) (here : holds false walk)
    (candidates : List Terminal) :
    holds false (walk.expect candidates).2 := by
  have needed := inv.need here (.oneOf candidates)
  unfold Walk.expect
  split
  · next after need_eq =>
      rw [need_eq] at needed
      have taken : holds true after := needed
      split
      · exact inv.any taken
      · next token current_eq =>
          split
          · exact inv.any taken
          · have reported :
                holds true (after.report (.mismatch candidates) token) :=
              inv.report taken current_eq nofun
            unfold Walk.rescue
            split
            · next reached found => exact inv.rescue reported found
            · exact inv.any reported
  · exact inv.any needed

theorem take (inv : Invariant holds) (here : holds false walk)
    {candidates : List Terminal} {terminal : Terminal} {cursor : TokenCursor}
    (found : walk.cursor.take? candidates = some (terminal, cursor)) :
    holds true (walk.moveTo cursor) := by
  obtain ⟨token, next_eq, -⟩ := TokenCursor.next?_of_take? found
  exact inv.next here next_eq

theorem complain (inv : Invariant holds) (here : holds true walk)
    (complaint : Complaint) : holds false (walk.complain complaint) := by
  unfold Walk.complain
  split
  · exact inv.any here
  · next token current_eq =>
      cases complaint <;> exact inv.any (inv.report here current_eq nofun)

theorem define (inv : Invariant holds) (here : holds false walk)
    {kind : TokenKind} (semantic : kind.isSemantic) (modifiers : Modifiers) :
    holds false (walk.define kind modifiers).2.2 := by
  have needed := inv.need here .identifier
  unfold Walk.define
  split
  · next after need_eq =>
      rw [need_eq] at needed
      exact inv.declare semantic needed
  · next stopped after _ need_eq =>
      rw [need_eq] at needed
      exact inv.any needed

theorem defined (inv : Invariant holds) (here : holds false walk)
    {kind : TokenKind} (semantic : kind.isSemantic) {modifiers : Modifiers}
    {outcome : Outcome} {name : Option String} {after : Walk}
    (define_eq : walk.define kind modifiers = (outcome, name, after)) :
    holds false after := by
  have named := inv.define here semantic modifiers
  rwa [define_eq] at named

theorem openScope (inv : Invariant holds) (here : holds fresh walk)
    (name : String) (kind : TokenKind) :
    holds fresh (walk.openScope name kind) :=
  inv.scopes here

theorem closeScope (inv : Invariant holds) (here : holds fresh walk) :
    holds fresh walk.closeScope :=
  inv.scopes here

theorem settle (inv : Invariant holds) (here : holds fresh walk) :
    holds fresh walk.settle := by
  unfold Walk.settle
  split
  · exact here
  · exact inv.scopes here

theorem run (inv : Invariant holds) (fuel : Nat) (rule : Rule) (walk : Walk)
    (fresh : Bool) (speaks : rule.speaksFresh fresh)
    (here : holds fresh walk) :
    holds (rule.freshens && (Walk.run fuel rule walk).1 == .finished)
      (Walk.run fuel rule walk).2 := by
  fun_induction Walk.run fuel rule walk generalizing fresh with
  | case1 rule walk =>
      rw [show (Outcome.exhausted == Outcome.finished) = false from rfl,
        Bool.and_false]
      exact inv.any here
  | case2 => exact inv.any here
  | case3 fuel walk first next after first_eq first_ih next_ih =>
      rw [Rule.speaksFresh, Bool.and_eq_true] at speaks
      have front := first_ih fresh speaks.1 here
      -- The second rule may rely on the token that the first one leaves fresh.
      rw [first_eq, show (Outcome.finished == Outcome.finished) = true from rfl,
        Bool.and_true] at front
      exact inv.any (next_ih first.freshens speaks.2 front)
  | case4 fuel walk first next _ first_ih =>
      rw [Rule.speaksFresh, Bool.and_eq_true] at speaks
      exact inv.any (first_ih fresh speaks.1 here)
  | case5 fuel walk expected => exact inv.need (inv.any here) expected
  | case6 fuel walk candidates => exact inv.expect (inv.any here) candidates
  | case7 fuel walk candidates found missing terminal cursor take_eq
      induction =>
      rw [Rule.speaksFresh, Bool.and_eq_true] at speaks
      exact inv.any (induction true speaks.1 (inv.take (inv.any here) take_eq))
  | case8 fuel walk candidates found missing _ induction =>
      rw [Rule.speaksFresh, Bool.and_eq_true] at speaks
      exact inv.any (induction fresh speaks.2 here)
  | case9 fuel walk => exact inv.advance (inv.any here) _
  | case10 fuel walk test holding failing _ induction =>
      rw [Rule.speaksFresh, Bool.and_eq_true] at speaks
      exact inv.any (induction fresh speaks.1 here)
  | case11 fuel walk test holding failing _ induction =>
      rw [Rule.speaksFresh, Bool.and_eq_true] at speaks
      exact inv.any (induction fresh speaks.2 here)
  | case12 fuel walk complaint =>
      obtain rfl : fresh = true := speaks
      exact inv.complain here complaint
  | case13 =>
      obtain rfl : fresh = true := speaks
      exact inv.strings here
  | case14 fuel walk =>
      obtain rfl : fresh = true := speaks
      exact inv.resolve here
  | case15 fuel walk kind modifiers body name defined define_eq inner _ outcome
      after body_eq induction =>
      rw [Rule.speaksFresh, Bool.and_eq_true] at speaks
      have named := inv.defined (inv.any here) speaks.1 define_eq
      have within := induction false speaks.2 (inv.openScope named _ _)
      rw [body_eq] at within
      exact inv.closeScope (inv.any within)
  | case16 fuel walk kind modifiers body name defined define_eq _ induction =>
      rw [Rule.speaksFresh, Bool.and_eq_true] at speaks
      exact inv.any (induction false speaks.2
        (inv.defined (inv.any here) speaks.1 define_eq))
  | case17 fuel walk kind modifiers body stopped name after _ define_eq =>
      rw [Rule.speaksFresh, Bool.and_eq_true] at speaks
      exact inv.defined (inv.any here) speaks.1 define_eq
  | case18 fuel walk kind modifiers name defined define_eq terminal cursor
      take_eq outcome after params_eq induction =>
      have named := inv.defined (inv.any here) speaks define_eq
      have opened := inv.openScope (inv.take named take_eq)
        (parameterScope name) .nil
      have within := induction true rfl opened
      rw [params_eq] at within
      exact inv.closeScope (inv.any within)
  | case19 fuel walk kind modifiers name defined define_eq _ =>
      exact inv.defined (inv.any here) speaks define_eq
  | case20 fuel walk kind modifiers stopped name after _ define_eq =>
      exact inv.defined (inv.any here) speaks define_eq
  | case21 fuel walk resumption body next resumed after body_eq body_ih
      next_ih =>
      rw [Rule.speaksFresh, Bool.and_eq_true, Bool.and_eq_true] at speaks
      have front := body_ih fresh speaks.1.1 here
      rw [body_eq] at front
      exact inv.any (next_ih false speaks.1.2 (inv.any front))
  | case22 fuel walk resumption body next resumed line after body_eq _ body_ih
      resumed_ih =>
      rw [Rule.speaksFresh, Bool.and_eq_true, Bool.and_eq_true] at speaks
      have front := body_ih fresh speaks.1.1 here
      rw [body_eq] at front
      exact inv.any (resumed_ih false speaks.2 (inv.any front))
  | case23 fuel walk resumption body next resumed line after body_eq _
      body_ih =>
      rw [Rule.speaksFresh, Bool.and_eq_true, Bool.and_eq_true] at speaks
      have front := body_ih fresh speaks.1.1 here
      rw [body_eq] at front
      exact inv.any front
  | case24 fuel walk resumption body next resumed _ _ body_ih =>
      rw [Rule.speaksFresh, Bool.and_eq_true, Bool.and_eq_true] at speaks
      exact inv.any (body_ih fresh speaks.1.1 here)
  | case25 => exact inv.any here
  | case26 fuel walk block statement _ induction =>
      exact inv.any (induction false statement.speaksFresh_rule (inv.any here))
  | case27 fuel walk block _ =>
      obtain rfl : fresh = true := speaks
      exact inv.complain here .unexpectedToken
  | case28 fuel walk nonterminal induction =>
      exact inv.any (induction false nonterminal.speaksFresh_rule
        (inv.any here))

theorem any_run (inv : Invariant holds) {fuel : Nat} {rule : Rule}
    {outcome : Outcome} {after : Walk} (speaks : rule.speaksFresh fresh)
    (here : holds fresh walk)
    (run_eq : Walk.run fuel rule walk = (outcome, after)) :
    holds false after := by
  have ran := inv.run fuel rule walk fresh speaks here
  rw [run_eq] at ran
  exact inv.any ran

theorem statements (inv : Invariant holds) (stop : Walk → Bool)
    (steps fuel : Nat) (here : holds true walk) :
    holds false (Walk.statements stop steps fuel walk).2 := by
  fun_induction Walk.statements stop steps fuel walk with
  | case1 | case2 => exact inv.weaken here
  | case3 fuel walk _ after run_eq =>
      exact inv.settle (inv.any_run rfl here run_eq)
  | case4 fuel walk _ outcome after _ run_eq token cursor next_eq induction =>
      have settled := inv.settle (inv.any_run rfl here run_eq)
      exact induction (inv.next settled next_eq)
  | case5 fuel walk _ outcome after _ run_eq _ =>
      exact inv.settle (inv.any_run rfl here run_eq)

theorem document (inv : Invariant holds) (stop : Walk → Bool)
    {tokens : List Token} (here : holds true (start tokens)) :
    holds false (Walk.document stop tokens).2 := by
  unfold Walk.document
  split
  · exact inv.weaken here
  · exact inv.statements stop _ _ here

theorem of_mem_statementStarts (inv : Invariant holds) {steps fuel : Nat}
    {first : Walk} (here : holds true walk)
    (member : first ∈ statementStarts steps fuel walk) : holds true first := by
  induction fuel generalizing walk with
  | zero => nomatch member
  | succ fuel induction =>
      rcases List.mem_cons.mp member with rfl | later
      · exact here
      · split at later
        · nomatch later
        · next outcome after _ run_eq =>
            split at later
            · next token cursor next_eq =>
                have settled := inv.settle (inv.any_run rfl here run_eq)
                exact induction (inv.next settled next_eq) later
            · nomatch later

end Invariant

/-- The invariant holds where the visit begins, with as fresh a token as the
rule needs. -/
def Meets (holds : Bool → Walk → Prop) (visit : Visit) : Prop :=
  ∃ fresh, visit.rule.speaksFresh fresh ∧ holds fresh visit.walk

namespace Invariant

open Visit

variable {holds : Bool → Walk → Prop}

theorem part (inv : Invariant holds) {visit part : Visit}
    (way : Part visit part) (meets : Meets holds visit) : Meets holds part := by
  obtain ⟨fresh, speaks, here⟩ := meets
  cases way with
  | first =>
      rw [Rule.speaksFresh, Bool.and_eq_true] at speaks
      exact ⟨fresh, speaks.1, here⟩
  | @next fuel front back walk after finished =>
      rw [Rule.speaksFresh, Bool.and_eq_true] at speaks
      have ran := inv.run fuel front walk fresh speaks.1 here
      rw [finished, show (Outcome.finished == Outcome.finished) = true from rfl,
        Bool.and_true] at ran
      exact ⟨front.freshens, speaks.2, ran⟩
  | found taken =>
      rw [Rule.speaksFresh, Bool.and_eq_true] at speaks
      exact ⟨true, speaks.1, inv.take (inv.any here) taken⟩
  | missing absent =>
      rw [Rule.speaksFresh, Bool.and_eq_true] at speaks
      exact ⟨fresh, speaks.2, here⟩
  | holding _ =>
      rw [Rule.speaksFresh, Bool.and_eq_true] at speaks
      exact ⟨fresh, speaks.1, here⟩
  | failing _ =>
      rw [Rule.speaksFresh, Bool.and_eq_true] at speaks
      exact ⟨fresh, speaks.2, here⟩
  | opening defined _ =>
      rw [Rule.speaksFresh, Bool.and_eq_true] at speaks
      exact ⟨false, speaks.2,
        inv.openScope (inv.defined (inv.any here) speaks.1 defined) _ _⟩
  | plain defined _ =>
      rw [Rule.speaksFresh, Bool.and_eq_true] at speaks
      exact ⟨false, speaks.2, inv.defined (inv.any here) speaks.1 defined⟩
  | signature defined taken =>
      have named := inv.defined (inv.any here) speaks defined
      exact ⟨true, rfl, inv.openScope (inv.take named taken) _ _⟩
  | body =>
      rw [Rule.speaksFresh, Bool.and_eq_true, Bool.and_eq_true] at speaks
      exact ⟨fresh, speaks.1.1, here⟩
  | further finished =>
      rw [Rule.speaksFresh, Bool.and_eq_true, Bool.and_eq_true] at speaks
      exact ⟨false, speaks.1.2, inv.any_run speaks.1.1 here finished⟩
  | resumed abandoned _ =>
      rw [Rule.speaksFresh, Bool.and_eq_true, Bool.and_eq_true] at speaks
      exact ⟨false, speaks.2, inv.any_run speaks.1.1 here abandoned⟩
  | @statement fuel block statement walk _ =>
      exact ⟨false, statement.speaksFresh_rule, inv.any here⟩
  | @call fuel nonterminal walk =>
      exact ⟨false, nonterminal.speaksFresh_rule, inv.any here⟩

/-- What holds at the start of a document holds at each of its visits. -/
theorem meets_of_mem_visits (inv : Invariant holds) {tokens : List Token}
    {visit : Visit} (here : holds true (start tokens))
    (member : visit ∈ visits tokens) : Meets holds visit := by
  obtain ⟨whole, among, inside⟩ := List.mem_flatMap.mp member
  obtain ⟨-, -, rule_eq, begins⟩ := mem_statementVisits among
  apply of_mem_within _ inside
  · refine ⟨true, ?_, inv.of_mem_statementStarts here begins⟩
    rw [rule_eq]
    rfl
  · intro outer meets part member
    exact inv.part (Part.of_mem member) meets

end Invariant

end Walk

end ComponentLang
