import ComponentLang.Proofs.Grammar.Definitions
import ComponentLang.Proofs.Walk.Acceptance

namespace ComponentLang

open Syntax

namespace Walk

variable {walk : Walk} {size : Nat}

theorem run_eq_of_passes {fuel : Nat} {rule : Rule} {after : Walk}
    (passes : Passes rule walk after)
    (unexhausted : (run fuel rule walk).1 ≠ .exhausted) :
    run fuel rule walk = (.finished, after) := by
  obtain ⟨enough, run_eq⟩ := passes
  have longer : run (max fuel enough) rule walk = run fuel rule walk :=
    run_of_le rfl unexhausted (Nat.le_max_left fuel enough)
  rw [← longer]
  exact run_of_le run_eq nofun (Nat.le_max_right fuel enough)

theorem exists_run_definition (definition : Definition)
    (others : List Definition) (global : walk.scopes.inner = [])
    (stands : walk.StandsOn (some (.terminal definition.word)))
    (spelled : (definition.body [] ++ items [] others).Forall₂ Item.Spells
      walk.cursor.upcoming) (within : walk.remaining < size) :
    ∃ after front,
      run (allowance size) (.statement .document) walk = (.finished, after) ∧
      walk.cursor.upcoming = front ++ after.cursor.upcoming ∧
      Takes (definition.body []) front after.cursor.upcoming walk after ∧
      (items [] others).Forall₂ Item.Spells after.cursor.upcoming := by
  have ends : Ends extending (items [] others) := by
    rw [← List.append_nil (items [] others)]
    exact ends_items others ends_nil
  have accepts : Rule.Accepts [] (some (.terminal definition.word))
      (.statement .document) (definition.body []) (items [] others) :=
    .statement definition.apart (definition.selected (.inl rfl))
      (definition.accepted ends)
  obtain ⟨front, behind, upcoming_eq, front_spelled, followed⟩ :=
    exists_of_forall₂_append spelled
  obtain ⟨after, passes, takes⟩ := accepts.succeeds walk front behind global
    stands upcoming_eq front_spelled followed
  have run_eq := run_eq_of_passes passes
    (run_statement_ne_exhausted within .document)
  obtain rfl := takes.upcoming
  exact ⟨after, front, run_eq, upcoming_eq, takes, followed⟩

theorem next?_of_upcoming_nil {cursor : TokenCursor}
    (nothing : cursor.upcoming = []) : cursor.next? = none := by
  cases next_eq : cursor.next? with
  | none => rfl
  | some found =>
      rw [TokenCursor.upcoming_of_next? next_eq] at nothing
      nomatch nothing

def TakesFurther (size : Nat) (definitions : List Definition) : Prop :=
  ∀ walk fuel, walk.scopes.inner = [] →
    (items [] definitions).Forall₂ Item.Spells walk.cursor.upcoming →
    walk.remaining ≤ fuel → fuel < size →
    ∃ after, furtherStatements (allowance size) fuel walk = (true, after) ∧
      Takes (items [] definitions) walk.cursor.upcoming [] walk after

theorem exists_statements {fuel : Nat} {definition : Definition}
    {others : List Definition} (further : TakesFurther size others)
    (global : walk.scopes.inner = [])
    (stands : walk.StandsOn (some (.terminal definition.word)))
    (spelled : (definition.body [] ++ items [] others).Forall₂ Item.Spells
      walk.cursor.upcoming)
    (enough : walk.remaining ≤ fuel) (bound : fuel < size) :
    ∃ after,
      statements (fun _ => false) (allowance size) (fuel + 1) walk =
        (true, after) ∧
      Takes (definition.body [] ++ items [] others) walk.cursor.upcoming [] walk
        after := by
  obtain ⟨between, front, run_eq, upcoming_eq, takes, followed⟩ :=
    exists_run_definition definition others global stands spelled
      (Nat.lt_of_le_of_lt enough bound)
  have forward := remaining_le_of_run run_eq
  obtain ⟨after, after_eq, takes_others⟩ := further between fuel
    (takes.inner.trans global) followed (Nat.le_trans forward enough) bound
  refine ⟨after, ?_, ?_⟩
  · rw [statements_step, run_eq]
    exact after_eq
  · rw [upcoming_eq]
    exact .trans (by rwa [List.append_nil]) takes_others

theorem takesFurther (size : Nat) (definitions : List Definition) :
    TakesFurther size definitions := by
  intro walk fuel global spelled enough bound
  induction definitions generalizing walk fuel with
  | nil =>
      have nothing := List.forall₂_nil_left_iff.mp spelled
      refine ⟨walk, ?_, nothing ▸ .refl walk⟩
      rw [furtherStatements, settle_of_inner global,
        next?_of_upcoming_nil nothing]
  | cons definition others induction =>
      have whole : walk.cursor.upcoming = walk.cursor.upcoming ++ [] :=
        (List.append_nil _).symm
      obtain ⟨token, further, reached, upcoming_eq, spells, later, next_eq,
        reached_eq⟩ := exists_next whole spelled
      rw [List.append_nil] at reached_eq
      obtain rfl := reached_eq
      have less := TokenCursor.remaining_lt_of_next? next_eq
      obtain ⟨fuel, rfl⟩ := Nat.exists_eq_succ_of_ne_zero
        (Nat.ne_zero_of_lt (Nat.lt_of_lt_of_le less enough))
      have moved : (walk.moveTo reached).scopes.inner = [] := global
      obtain ⟨after, after_eq, takes⟩ := exists_statements induction moved
        (standsOn_moveTo spells next_eq) later
        (Nat.le_of_lt_succ (Nat.lt_of_lt_of_le less enough))
        (Nat.lt_of_succ_lt bound)
      refine ⟨after, ?_, ?_⟩
      · rw [furtherStatements, settle_of_inner global, next_eq]
        exact after_eq
      · rw [upcoming_eq]
        exact .trans (.moveTo rfl spells (List.append_nil _).symm) takes

theorem exists_document {definitions : Document} {tokens : List Token}
    (spelled : definitions.items.Forall₂ Item.Spells (meaningful tokens)) :
    ∃ after, document (fun _ => false) tokens = (true, after) ∧
      Takes definitions.items (meaningful tokens) [] (start tokens) after := by
  cases tokens with
  | nil =>
      have nothing := List.forall₂_nil_right_iff.mp spelled
      exact ⟨start [], rfl, nothing ▸ .refl (start [])⟩
  | cons first rest =>
      rw [document, if_neg (by simp), List.length_cons]
      cases trivia : first.isTrivia with
      | true =>
          have meaningful_eq : meaningful (first :: rest) =
              (start (first :: rest)).cursor.upcoming :=
            List.filter_cons_of_neg (by simp [trivia])
          rw [meaningful_eq] at spelled ⊢
          rw [statements_step,
            run_statement_of_isTrivia rfl trivia (by simp [allowance])]
          exact takesFurther (rest.length + 1) definitions _ _ rfl spelled
            (Nat.le_refl _) (Nat.lt_succ_self _)
      | false =>
          have meaningful_eq : meaningful (first :: rest) =
              [first] ++ (start (first :: rest)).cursor.upcoming :=
            List.filter_cons_of_pos (by simp [trivia])
          rw [meaningful_eq] at spelled ⊢
          cases definitions with
          | nil => cases spelled
          | cons definition others =>
              obtain ⟨spells, later⟩ := List.forall₂_cons.mp spelled
              have stands : (start (first :: rest)).StandsOn
                  (some (.terminal definition.word)) := by
                rintro _ ⟨⟩
                exact ⟨first, rfl, spells⟩
              obtain ⟨after, after_eq, takes⟩ := exists_statements
                (takesFurther (rest.length + 1) others) rfl stands later
                (Nat.le_refl _) (Nat.lt_succ_self _)
              refine ⟨after, after_eq, ?_⟩
              exact .trans (.moveTo rfl spells (List.append_nil _).symm) takes

end Walk

end ComponentLang
