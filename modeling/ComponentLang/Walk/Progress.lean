import ComponentLang.Grammar.Progress
import ComponentLang.Walk.Run

namespace ComponentLang.Walk

def remaining (walk : Walk) : Nat :=
  walk.cursor.remaining

@[simp] theorem remaining_moveTo (walk : Walk) (cursor : TokenCursor) :
    (walk.moveTo cursor).remaining = cursor.remaining := rfl

@[simp] theorem remaining_report (walk : Walk) (cause : Cause)
    (anchor : Token) : (walk.report cause anchor).remaining = walk.remaining :=
  rfl

@[simp] theorem remaining_classify (walk : Walk) (kind : TokenKind)
    (modifiers : Modifiers) :
    (walk.classify kind modifiers).remaining = walk.remaining :=
  TokenCursor.remaining_reclassify _ _ _

@[simp] theorem remaining_complain (walk : Walk) (complaint : Complaint) :
    (walk.complain complaint).remaining = walk.remaining := by
  unfold complain
  split
  · rfl
  · cases complaint <;> rfl

@[simp] theorem remaining_resolve (walk : Walk) :
    walk.resolve.remaining = walk.remaining := by
  unfold resolve
  split
  · rfl
  · split
    · split <;> simp
    · rfl

theorem remaining_strings (walk : Walk) :
    walk.strings.remaining ≤ walk.remaining :=
  TokenCursor.remaining_passStrings _

@[simp] theorem remaining_openScope (walk : Walk) (name : String)
    (kind : TokenKind) :
    (walk.openScope name kind).remaining = walk.remaining := rfl

@[simp] theorem remaining_closeScope (walk : Walk) :
    walk.closeScope.remaining = walk.remaining := rfl

@[simp] theorem remaining_reportDuplicate (walk : Walk)
    (registration : Registration) (kind : TokenKind) (token : Token) :
    (walk.reportDuplicate registration kind token).remaining =
      walk.remaining := by
  unfold reportDuplicate
  split
  · split <;> rfl
  · rfl

@[simp] theorem remaining_declare (walk : Walk) (kind : TokenKind)
    (modifiers : Modifiers) :
    (walk.declare kind modifiers).2.remaining = walk.remaining := by
  unfold declare
  split
  · rfl
  · split
    · exact (remaining_classify _ _ _).trans
        (remaining_reportDuplicate _ _ _ _)
    · rfl

@[simp] theorem remaining_settle (walk : Walk) :
    walk.settle.remaining = walk.remaining := by
  unfold settle
  split <;> rfl

/-- Whether a step took a token, as every step does that is finished. -/
def TookToken (before : Walk) (step : Outcome × Walk) : Prop :=
  step.2.remaining ≤ before.remaining ∧
    (step.1 = .finished → step.2.remaining < before.remaining)

theorem tookToken_advance (walk : Walk) (expected : Expected) :
    TookToken walk (walk.advance expected) := by
  unfold advance
  split
  · next token after next_eq =>
      have := TokenCursor.remaining_lt_of_next? next_eq
      exact ⟨Nat.le_of_lt this, fun _ => this⟩
  · exact ⟨Nat.le_refl _, nofun⟩

theorem tookToken_need (walk : Walk) (expected : Expected) :
    TookToken walk (walk.need expected) := by
  unfold need
  split
  · exact tookToken_advance walk expected
  · next token after next_eq =>
      have := TokenCursor.remaining_lt_of_next? next_eq
      split
      · exact ⟨Nat.le_of_lt this, fun _ => this⟩
      · exact ⟨Nat.le_refl _, nofun⟩

theorem remaining_rescue (walk : Walk) (candidates : List Terminal) :
    (walk.rescue candidates).remaining ≤ walk.remaining := by
  unfold rescue
  split
  · next after found =>
      exact Nat.le_of_lt (TokenCursor.remaining_lt_of_rescue? found)
  · exact Nat.le_refl _

theorem tookToken_expect (walk : Walk) (candidates : List Terminal) :
    TookToken walk (walk.expect candidates) := by
  have needed := tookToken_need walk (.oneOf candidates)
  unfold expect
  split
  · next after need_eq =>
      rw [need_eq] at needed
      split
      · exact needed
      · split
        · exact needed
        · have := remaining_rescue (after.report (.mismatch candidates) ‹_›)
            candidates
          simp [TookToken] at *
          omega
  · exact needed

theorem tookToken_define (walk : Walk) (kind : TokenKind)
    (modifiers : Modifiers) :
    TookToken walk
      ((walk.define kind modifiers).1, (walk.define kind modifiers).2.2) := by
  have needed := tookToken_need walk .identifier
  unfold define
  split
  · next after need_eq =>
      rw [need_eq] at needed
      simpa [TookToken] using needed
  · next stopped after _ need_eq =>
      rw [need_eq] at needed
      simpa [TookToken] using needed

theorem tookToken_of_define {walk after : Walk} {kind : TokenKind}
    {modifiers : Modifiers} {outcome : Outcome} {name : Option String}
    (define_eq : walk.define kind modifiers = (outcome, name, after)) :
    TookToken walk (outcome, after) := by
  have named := tookToken_define walk kind modifiers
  rwa [define_eq] at named

theorem remaining_lt_of_define {walk after : Walk} {kind : TokenKind}
    {modifiers : Modifiers} {name : Option String}
    (define_eq : walk.define kind modifiers = (.finished, name, after)) :
    after.remaining < walk.remaining :=
  (tookToken_of_define define_eq).2 rfl

/-- Of the two parts, the first holds however the rule ends. -/
theorem remaining_run (fuel : Nat) (rule : Rule) (walk : Walk) :
    (run fuel rule walk).2.remaining ≤ walk.remaining ∧
      (rule.takes → (run fuel rule walk).1 = .finished →
        (run fuel rule walk).2.remaining < walk.remaining) := by
  fun_induction run fuel rule walk with
  | case1 => exact ⟨Nat.le_refl _, fun _ done => by cases done⟩
  | case2 => exact ⟨Nat.le_refl _, fun takes => by cases takes⟩
  | case3 fuel walk first next after first_eq first_ih next_ih =>
      rw [first_eq] at first_ih
      refine ⟨Nat.le_trans next_ih.1 first_ih.1, fun takes done => ?_⟩
      rcases Bool.or_eq_true_iff.mp takes with front | back
      · exact Nat.lt_of_le_of_lt next_ih.1 (first_ih.2 front rfl)
      · exact Nat.lt_of_lt_of_le (next_ih.2 back done) first_ih.1
  | case4 fuel walk first next unfinished induction =>
      exact ⟨induction.1, fun _ done =>
        (unfinished _ (Prod.ext done rfl)).elim⟩
  | case5 fuel walk expected =>
      have took := tookToken_need walk expected
      exact ⟨took.1, fun _ => took.2⟩
  | case6 fuel walk candidates =>
      have took := tookToken_expect walk candidates
      exact ⟨took.1, fun _ => took.2⟩
  | case7 fuel walk candidates found missing terminal cursor take_eq
      induction =>
      have fewer : cursor.remaining < walk.remaining :=
        TokenCursor.remaining_lt_of_take? take_eq
      have further := Nat.lt_of_le_of_lt induction.1 fewer
      exact ⟨Nat.le_of_lt further, fun _ _ => further⟩
  | case8 fuel walk candidates found missing _ induction => exact induction
  | case9 fuel walk =>
      have took := tookToken_advance walk (.oneOf [Operator.rightBrace])
      exact ⟨took.1, fun _ => took.2⟩
  | case10 fuel walk test holds fails _ induction =>
      exact ⟨induction.1, fun takes =>
        induction.2 (Bool.and_eq_true_iff.mp takes).1⟩
  | case11 fuel walk test holds fails _ induction =>
      exact ⟨induction.1, fun takes =>
        induction.2 (Bool.and_eq_true_iff.mp takes).2⟩
  | case12 fuel walk complaint =>
      exact ⟨Nat.le_of_eq (remaining_complain walk complaint),
        fun takes => by cases takes⟩
  | case13 fuel walk =>
      exact ⟨remaining_strings walk, fun takes => by cases takes⟩
  | case14 fuel walk =>
      exact ⟨Nat.le_of_eq (remaining_resolve walk),
        fun takes => by cases takes⟩
  | case15 fuel walk kind modifiers body name defined define_eq inner _ outcome
      after run_eq induction =>
      rw [run_eq, remaining_openScope] at induction
      have further :=
        Nat.lt_of_le_of_lt induction.1 (remaining_lt_of_define define_eq)
      exact ⟨Nat.le_of_lt further, fun _ _ => further⟩
  | case16 fuel walk kind modifiers body name defined define_eq _ induction =>
      have further :=
        Nat.lt_of_le_of_lt induction.1 (remaining_lt_of_define define_eq)
      exact ⟨Nat.le_of_lt further, fun _ _ => further⟩
  | case17 fuel walk kind modifiers body stopped name after _ define_eq =>
      have took := tookToken_of_define define_eq
      exact ⟨took.1, fun _ => took.2⟩
  | case18 fuel walk kind modifiers name defined define_eq terminal cursor
      take_eq outcome after run_eq induction =>
      have fewer : cursor.remaining < defined.remaining :=
        TokenCursor.remaining_lt_of_take? take_eq
      rw [run_eq, remaining_openScope] at induction
      have further := Nat.lt_of_le_of_lt induction.1
        (Nat.lt_trans fewer (remaining_lt_of_define define_eq))
      exact ⟨Nat.le_of_lt further, fun _ _ => further⟩
  | case19 fuel walk kind modifiers name defined define_eq _ =>
      have took := tookToken_of_define define_eq
      exact ⟨took.1, fun _ => took.2⟩
  | case20 fuel walk kind modifiers stopped name after _ define_eq =>
      have took := tookToken_of_define define_eq
      exact ⟨took.1, fun _ => took.2⟩
  | case21 fuel walk resumption body next resumed after body_eq body_ih
      next_ih =>
      rw [body_eq] at body_ih
      exact ⟨Nat.le_trans next_ih.1 body_ih.1, fun takes => by cases takes⟩
  | case22 fuel walk resumption body next resumed line after body_eq _ body_ih
      resumed_ih =>
      rw [body_eq] at body_ih
      exact ⟨Nat.le_trans resumed_ih.1 body_ih.1, fun takes => by cases takes⟩
  | case23 fuel walk resumption body next resumed line after body_eq _
      body_ih =>
      rw [body_eq] at body_ih
      exact ⟨body_ih.1, fun takes => by cases takes⟩
  | case24 fuel walk resumption body next resumed _ _ induction =>
      exact ⟨induction.1, fun takes => by cases takes⟩
  | case25 => exact ⟨Nat.le_refl _, fun takes => by cases takes⟩
  | case26 fuel walk block statement _ induction =>
      exact ⟨induction.1, fun takes => by cases takes⟩
  | case27 fuel walk block _ =>
      exact ⟨Nat.le_of_eq (remaining_complain walk .unexpectedToken),
        fun takes => by cases takes⟩
  | case28 fuel walk nonterminal induction =>
      refine ⟨induction.1, fun takes => ?_⟩
      cases nonterminal with
      | expression => exact induction.2 Nonterminal.takes_expression
      | _ => cases takes

theorem remaining_le_of_run {fuel : Nat} {rule : Rule} {walk after : Walk}
    {outcome : Outcome} (run_eq : run fuel rule walk = (outcome, after)) :
    after.remaining ≤ walk.remaining := by
  have forward := (remaining_run fuel rule walk).1
  rwa [run_eq] at forward

end ComponentLang.Walk
