import ComponentLang.Walk.Progress

namespace ComponentLang.Walk

theorem run_succ (fuel : Nat) (rule : Rule) (walk : Walk)
    (enough : (run fuel rule walk).1 ≠ .exhausted) :
    run (fuel + 1) rule walk = run fuel rule walk := by
  fun_induction run fuel rule walk with
  | case1 => exact absurd rfl enough
  | case3 fuel walk first next after first_eq first_ih next_ih =>
      rw [run, first_ih (by simp [first_eq]), first_eq]
      exact next_ih enough
  | case4 fuel walk first next unfinished first_ih =>
      rw [run, first_ih enough]
      cases run_eq : run fuel first walk with
      | mk outcome after => cases outcome <;> simp_all
  | _ => simp_all [run]

theorem run_of_le {fuel more : Nat} {rule : Rule} {walk : Walk}
    {step : Outcome × Walk} (run_eq : run fuel rule walk = step)
    (unexhausted : step.1 ≠ .exhausted) (le : fuel ≤ more) :
    run more rule walk = step := by
  induction le with
  | refl => exact run_eq
  | step _ induction =>
      rw [run_succ _ _ _ (by rw [induction]; exact unexhausted), induction]

theorem fst_need_ne_exhausted (walk : Walk) (expected : Expected) :
    (walk.need expected).1 ≠ .exhausted := by
  unfold need advance
  repeat' split
  all_goals nofun

theorem fst_advance_ne_exhausted (walk : Walk) (expected : Expected) :
    (walk.advance expected).1 ≠ .exhausted := by
  unfold advance
  split <;> nofun

theorem fst_expect_ne_exhausted (walk : Walk) (candidates : List Terminal) :
    (walk.expect candidates).1 ≠ .exhausted := by
  have needed := fst_need_ne_exhausted walk (.oneOf candidates)
  unfold expect
  repeat' split
  all_goals simp_all

theorem fst_define_ne_exhausted (walk : Walk) (kind : TokenKind)
    (modifiers : Modifiers) : (walk.define kind modifiers).1 ≠ .exhausted := by
  have needed := fst_need_ne_exhausted walk .identifier
  unfold define
  split <;> simp_all

theorem fst_ne_exhausted_of_define {walk after : Walk} {kind : TokenKind}
    {modifiers : Modifiers} {outcome : Outcome} {name : Option String}
    (define_eq : walk.define kind modifiers = (outcome, name, after)) :
    outcome ≠ .exhausted := by
  have named := fst_define_ne_exhausted walk kind modifiers
  rwa [define_eq] at named

section Budget

variable {size rank : Nat} {taken : Bool}

theorem fits_behind {fuel : Nat} {rule : Rule} {walk after : Walk}
    (run_eq : run fuel rule walk = (.finished, after))
    (fits : walk.remaining + taken.toNat ≤ size) :
    after.remaining + (taken || rule.takes).toNat ≤ size := by
  have forward := remaining_le_of_run run_eq
  have further := (remaining_run fuel rule walk).2
  simp only [run_eq] at further
  cases takes : rule.takes with
  | true =>
      have fewer := further takes trivial
      rw [Bool.or_true, Bool.toNat_true]
      omega
  | false =>
      rw [Bool.or_false]
      omega

/-- A token that was taken pays for all ranks, and a lower rank for one call. -/
theorem call_fits {height callee left : Nat} (shallow : height < 64)
    (low : callee ≤ 2) (lower : taken = true ∨ callee < rank)
    (fits : left + taken.toNat ≤ size) :
    height + 64 * (3 * left + callee) ≤ 64 * (3 * size + rank) := by
  rcases lower with rfl | lower
  · rw [Bool.toNat_true] at fits
    omega
  · omega

end Budget

/-- Every step down is paid for: within a rule by its height, and for a call by
the token taken before it or by the lower rank of what is called. -/
theorem run_ne_exhausted (size rank : Nat) (taken : Bool) (fuel : Nat)
    (rule : Rule) (walk : Walk) (guarded : rule.isGuarded rank taken)
    (fits : walk.remaining + taken.toNat ≤ size)
    (enough : rule.height + 64 * (3 * size + rank) ≤ fuel) :
    (run fuel rule walk).1 ≠ .exhausted := by
  fun_induction run fuel rule walk generalizing size rank taken with
  | case1 rule => cases rule <;> simp [Rule.height] at enough
  | case2 => simp
  | case3 fuel walk first next after first_eq _ induction =>
      rw [Rule.isGuarded, Bool.and_eq_true] at guarded
      rw [Rule.height] at enough
      exact induction size rank _ guarded.2 (fits_behind first_eq fits)
        (by omega)
  | case4 fuel walk first next _ induction =>
      rw [Rule.isGuarded, Bool.and_eq_true] at guarded
      rw [Rule.height] at enough
      exact induction size rank _ guarded.1 fits (by omega)
  | case5 => exact fst_need_ne_exhausted _ _
  | case6 => exact fst_expect_ne_exhausted _ _
  | case7 fuel walk candidates found missing terminal cursor take_eq induction =>
      rw [Rule.isGuarded, Bool.and_eq_true] at guarded
      rw [Rule.height] at enough
      have fewer : cursor.remaining < walk.remaining :=
        TokenCursor.remaining_lt_of_take? take_eq
      refine induction size rank _ guarded.1 ?_ (by omega)
      rw [remaining_moveTo, Bool.toNat_true]
      omega
  | case8 fuel walk candidates found missing _ induction =>
      rw [Rule.isGuarded, Bool.and_eq_true] at guarded
      rw [Rule.height] at enough
      exact induction size rank _ guarded.2 fits (by omega)
  | case9 => exact fst_advance_ne_exhausted _ _
  | case10 fuel walk test holds fails _ induction =>
      rw [Rule.isGuarded, Bool.and_eq_true] at guarded
      rw [Rule.height] at enough
      exact induction size rank _ guarded.1 fits (by omega)
  | case11 fuel walk test holds fails _ induction =>
      rw [Rule.isGuarded, Bool.and_eq_true] at guarded
      rw [Rule.height] at enough
      exact induction size rank _ guarded.2 fits (by omega)
  | case12 | case13 | case14 => simp
  | case15 fuel walk kind modifiers body name defined define_eq inner _ outcome
      after body_eq induction =>
      have fewer := remaining_lt_of_define define_eq
      rw [Rule.height] at enough
      rw [body_eq] at induction
      refine induction size rank _ guarded ?_ (by omega)
      rw [remaining_openScope, Bool.toNat_true]
      omega
  | case16 fuel walk kind modifiers body name defined define_eq _ induction =>
      have fewer := remaining_lt_of_define define_eq
      rw [Rule.height] at enough
      refine induction size rank _ guarded ?_ (by omega)
      rw [Bool.toNat_true]
      omega
  | case17 fuel walk kind modifiers body stopped name after _ define_eq =>
      exact fst_ne_exhausted_of_define define_eq
  | case18 fuel walk kind modifiers name defined define_eq terminal cursor
      take_eq outcome after run_eq induction =>
      have fewer := remaining_lt_of_define define_eq
      have fewest : cursor.remaining < defined.remaining :=
        TokenCursor.remaining_lt_of_take? take_eq
      have enough : 2 + 64 * (3 * size + rank) ≤ fuel + 1 := enough
      rw [run_eq] at induction
      have inner : 1 + 64 * (3 * size + rank) ≤ fuel := by omega
      refine induction size rank true rfl ?_ inner
      rw [remaining_openScope, remaining_moveTo, Bool.toNat_true]
      omega
  | case19 => simp
  | case20 fuel walk kind modifiers stopped name after _ define_eq =>
      exact fst_ne_exhausted_of_define define_eq
  | case21 fuel walk resumption body next resumed after body_eq _ induction =>
      rw [Rule.isGuarded, Bool.and_eq_true, Bool.and_eq_true] at guarded
      rw [Rule.height] at enough
      exact induction size rank _ guarded.1.2 (fits_behind body_eq fits)
        (by omega)
  | case22 fuel walk resumption body next resumed line after body_eq _ _
      induction =>
      rw [Rule.isGuarded, Bool.and_eq_true, Bool.and_eq_true] at guarded
      rw [Rule.height] at enough
      have behind := remaining_le_of_run body_eq
      exact induction size rank _ guarded.2 (by omega) (by omega)
  | case23 => simp
  | case24 fuel walk resumption body next resumed _ _ induction =>
      rw [Rule.isGuarded, Bool.and_eq_true, Bool.and_eq_true] at guarded
      rw [Rule.height] at enough
      exact induction size rank _ guarded.1.1 fits (by omega)
  | case25 => simp
  | case26 fuel walk block statement _ induction =>
      have lower : taken = true ∨ Rule.statementRank < rank := by
        rwa [Rule.isGuarded, Bool.or_eq_true, decide_eq_true_eq] at guarded
      have enough : 1 + 64 * (3 * size + rank) ≤ fuel + 1 := enough
      have paid := call_fits statement.height_rule (Nat.le_refl 2) lower fits
      exact induction _ _ _ statement.isGuarded_rule (Nat.le_refl _)
        (Nat.le_trans paid (by omega))
  | case27 => simp
  | case28 fuel walk nonterminal induction =>
      have lower : taken = true ∨ nonterminal.rank < rank := by
        rwa [Rule.isGuarded, Bool.or_eq_true, decide_eq_true_eq] at guarded
      have enough : 1 + 64 * (3 * size + rank) ≤ fuel + 1 := enough
      have paid := call_fits nonterminal.height_rule
        (Nat.le_succ_of_le nonterminal.rank_le_one) lower fits
      exact induction _ _ _ nonterminal.isGuarded_rule (Nat.le_refl _)
        (Nat.le_trans paid (by omega))

theorem run_statement_ne_exhausted {size : Nat} {walk : Walk}
    (within : walk.remaining < size) (block : Block) :
    (run (allowance size) (.statement block) walk).1 ≠ .exhausted := by
  refine run_ne_exhausted size 3 false _ _ _ rfl (Nat.le_of_lt within) ?_
  simp only [Rule.height, allowance]
  omega

/-- Between two statements a token is taken, so that as many turns as there are
tokens are enough. -/
theorem statements_succ (stop : Walk → Bool) (steps fuel : Nat) (walk : Walk)
    (enough : walk.remaining < fuel) :
    statements stop steps (fuel + 1) walk = statements stop steps fuel walk := by
  fun_induction statements stop steps fuel walk with
  | case1 => exact absurd enough (Nat.not_lt_zero _)
  | case4 fuel walk goes outcome after unended run_eq token cursor next_eq
      induction =>
      have forward := remaining_le_of_run run_eq
      have taken := TokenCursor.remaining_lt_of_next? next_eq
      have settled := remaining_settle after
      simp only [remaining, moveTo] at *
      rw [statements, if_neg goes, run_eq]
      simp only [next_eq]
      exact induction (by omega)
  | _ => simp_all [statements]

theorem statements_of_le {stop : Walk → Bool} {steps fuel more : Nat}
    {walk : Walk} (enough : walk.remaining < fuel) (le : fuel ≤ more) :
    statements stop steps more walk = statements stop steps fuel walk := by
  induction le with
  | refl => rfl
  | step le induction =>
      rw [statements_succ _ _ _ _ (Nat.lt_of_lt_of_le enough le), induction]

theorem statements_allowance {stop : Walk → Bool} {size more fuel : Nat}
    {walk : Walk} (within : walk.remaining < size) (le : size ≤ more) :
    statements stop (allowance more) fuel walk =
      statements stop (allowance size) fuel walk := by
  induction fuel generalizing walk with
  | zero => rfl
  | succ fuel induction =>
      have visited : run (allowance more) (.statement .document) walk =
          run (allowance size) (.statement .document) walk := by
        apply run_of_le rfl (run_statement_ne_exhausted within .document)
        unfold allowance
        omega
      have forward :=
        (remaining_run (allowance size) (.statement .document) walk).1
      rw [statements, statements, visited]
      generalize run (allowance size) (.statement .document) walk = step
        at forward
      obtain ⟨outcome, after⟩ := step
      have settled := remaining_settle after
      cases next_eq : after.settle.cursor.next? with
      | none => cases outcome <;> simp only [next_eq]
      | some found =>
          have taken := TokenCursor.remaining_lt_of_next? next_eq
          have further := @induction (after.settle.moveTo found.2) (by
            simp only [remaining, moveTo] at *
            omega)
          cases outcome <;> simp only [next_eq, further]

theorem document_eq_statements {stop : Walk → Bool} {tokens : List Token}
    (some_token : tokens ≠ []) {size fuel : Nat} (fits : tokens.length ≤ size)
    (enough : tokens.length ≤ fuel) :
    document stop tokens =
      statements stop (allowance size) fuel (start tokens) := by
  have within : (start tokens).remaining < tokens.length := by
    cases tokens with
    | nil => exact absurd rfl some_token
    | cons token rest => exact Nat.lt_succ_self rest.length
  rw [document, if_neg (by simpa using some_token),
    statements_allowance within fits, statements_of_le within enough]

end ComponentLang.Walk
