import ComponentLang.Proofs.Token.Moves
import ComponentLang.Visitor.Run

namespace ComponentLang.Visitor

open TokenCursor (Reaches)

section Steps

variable (visitor : Visitor)

theorem reaches_advance (expected : Expected) :
    visitor.cursor.Reaches (visitor.advance expected).2.cursor := by
  unfold advance
  split
  · next next_eq => exact .next .here next_eq
  · exact .here

/-- What is given up is so in front of the token that was looked at. -/
theorem reaches_need (expected : Expected) :
    visitor.cursor.Reaches (visitor.need expected).2.cursor := by
  have ahead := visitor.reaches_advance expected
  unfold need
  split
  · next advanced =>
      rw [advanced] at ahead
      split
      · exact ahead
      · split
        · exact ahead
        · exact .here
  · exact ahead

theorem reaches_rescue (candidates : List Terminal) :
    visitor.cursor.Reaches (visitor.rescue candidates).cursor := by
  unfold rescue
  split
  · next rescue_eq => exact .rescue .here rescue_eq
  · exact .here

theorem reaches_expect (candidates : List Terminal) :
    visitor.cursor.Reaches (visitor.expect candidates).2.cursor := by
  have needed := visitor.reaches_need (.oneOf candidates)
  unfold expect
  split
  · next after need_eq =>
      rw [need_eq] at needed
      split
      · exact needed
      · split
        · exact needed
        · next found _ _ =>
            exact needed.trans
              (reaches_rescue (after.error (.mismatch candidates) found)
                candidates)
  · exact needed

theorem reaches_classify (kind : TokenKind) (modifiers : Modifiers) :
    visitor.cursor.Reaches (visitor.classify kind modifiers).cursor :=
  .reclassify .here

theorem cursor_complain (complaint : Complaint) :
    (visitor.complain complaint).cursor = visitor.cursor := by
  unfold complain
  split
  · rfl
  · cases complaint <;> rfl

theorem reaches_resolve : visitor.cursor.Reaches visitor.resolve.cursor := by
  unfold resolve
  split
  · exact .here
  · split
    · split
      · exact reaches_classify _ _ _
      · split <;> exact .here
    · exact .here

theorem cursor_register (symbol : Symbol) (token : Token) :
    (visitor.register symbol token).cursor = visitor.cursor := by
  unfold register refuse
  dsimp only
  repeat' split
  all_goals rfl

theorem reaches_declare (kind : TokenKind) (modifiers : Modifiers) :
    visitor.cursor.Reaches (visitor.declare kind modifiers).2.cursor := by
  have classified (symbol : Symbol) (token : Token) :
      visitor.cursor.Reaches
        ((visitor.register symbol token).classify kind symbol.modifiers).cursor :=
    visitor.cursor_register symbol token ▸ reaches_classify _ kind _
  unfold declare
  split
  · exact .here
  · split
    · dsimp only
      split <;> exact classified _ _
    · exact .here

theorem reaches_define (kind : TokenKind) (modifiers : Modifiers) :
    visitor.cursor.Reaches (visitor.define kind modifiers).2.2.cursor := by
  have needed := visitor.reaches_need .identifier
  unfold define
  split
  · next need_eq =>
      rw [need_eq] at needed
      exact needed.trans (reaches_declare _ kind modifiers)
  · next need_eq =>
      rw [need_eq] at needed
      exact needed

theorem cursor_closeScope (opened : Bool) :
    (visitor.closeScope opened).cursor = visitor.cursor := by
  cases opened <;> rfl

theorem cursor_settle : visitor.settle.cursor = visitor.cursor := by
  unfold settle
  split <;> rfl

end Steps

theorem reaches_follow {enter : Procedure → Visitor → Outcome × Visitor}
    (enters : ∀ procedure (visitor : Visitor),
      visitor.cursor.Reaches (enter procedure visitor).2.cursor)
    (procedure : Procedure) (locals : Locals) (visitor : Visitor) :
    visitor.cursor.Reaches
      (follow enter procedure locals visitor).2.2.cursor := by
  induction procedure generalizing locals visitor with
  | seq first next front back =>
      have reached := front locals visitor
      rw [follow]
      split
      · next first_eq =>
          rw [first_eq] at reached
          exact reached.trans (back _ _)
      · exact reached
  | accept candidates found missing there absent =>
      rw [follow]
      split
      · next taken_eq =>
          obtain ⟨_, next_eq, -⟩ := TokenCursor.next?_of_take? taken_eq
          exact (Reaches.next .here next_eq).trans
            (there locals (visitor.moveTo _))
      · exact absent locals visitor
  | branch test holds fails here other =>
      rw [follow]
      split
      · exact here locals visitor
      · exact other locals visitor
  | attempt body induction => exact induction {} visitor
  | statement block =>
      rw [follow]
      split
      · exact .here
      · exact enters _ visitor
      · exact (visitor.cursor_complain _).symm ▸ .here
  | call nonterminal => exact enters _ visitor
  | need expected => exact visitor.reaches_need expected
  | expect candidates => exact visitor.reaches_expect candidates
  | advance => exact visitor.reaches_advance _
  | complain complaint => exact (visitor.cursor_complain complaint).symm ▸ .here
  | strings => exact .strings .here
  | resolve => exact visitor.reaches_resolve
  | define kind modifiers => exact visitor.reaches_define kind modifiers
  | closeScope => exact (visitor.cursor_closeScope _).symm ▸ .here
  | done | openParameters | absorb | popScope | conclude => exact .here

theorem reaches_run (depth : Nat) (procedure : Procedure) (visitor : Visitor) :
    visitor.cursor.Reaches (run depth procedure visitor).2.cursor := by
  induction depth generalizing procedure visitor with
  | zero => exact .here
  | succ depth induction => exact reaches_follow induction procedure {} visitor

theorem reaches_statements (stop : Visitor → Bool) (depth turns : Nat)
    (visitor : Visitor) :
    visitor.cursor.Reaches (statements stop depth turns visitor).2.cursor := by
  induction turns generalizing visitor with
  | zero => exact .here
  | succ turns induction =>
      have ran := reaches_run depth (.statement .document) visitor
      rw [statements]
      split
      · exact .here
      · generalize run depth (.statement .document) visitor = step at ran ⊢
        obtain ⟨outcome, after⟩ := step
        have settled : visitor.cursor.Reaches after.settle.cursor :=
          after.cursor_settle.symm ▸ ran
        cases outcome with
        | ended => exact settled
        | _ =>
            dsimp only
            split
            · next next_eq =>
                exact (Reaches.next settled next_eq).trans
                  (induction (after.settle.moveTo _))
            · exact settled

theorem reaches_document (stop : Visitor → Bool) (visitor : Visitor) :
    visitor.cursor.Reaches (document stop visitor).2.cursor := by
  unfold document
  dsimp only
  split
  · exact .here
  · exact reaches_statements stop _ _ visitor

end ComponentLang.Visitor
