import ComponentLang.Proofs.Walk.Visits

namespace ComponentLang.Walk

/-- The walk in front of the statement behind this one, if there is another. -/
def nextStart? (steps : Nat) (walk : Walk) : Option Walk :=
  match run steps (.statement .document) walk with
  | (.ended, _) => none
  | (_, after) =>
      after.settle.cursor.next?.map fun found => after.settle.moveTo found.2

def finish (steps : Nat) (walk : Walk) : Walk :=
  (run steps (.statement .document) walk).2.settle

theorem statements_turn (stop : Walk → Bool) (steps fuel : Nat) (walk : Walk) :
    statements stop steps (fuel + 1) walk =
      if stop walk then (false, walk)
      else
        (nextStart? steps walk).elim (true, walk.finish steps)
          (statements stop steps fuel) := by
  rw [statements, nextStart?, finish]
  obtain ⟨outcome, after⟩ := run steps (.statement .document) walk
  cases next_eq : after.settle.cursor.next? <;>
    cases outcome <;> simp [next_eq]

theorem statementStarts_turn (steps fuel : Nat) (walk : Walk) :
    statementStarts steps (fuel + 1) walk =
      walk :: (nextStart? steps walk).elim [] (statementStarts steps fuel) := by
  rw [statementStarts, nextStart?]
  obtain ⟨outcome, after⟩ := run steps (.statement .document) walk
  cases next_eq : after.settle.cursor.next? <;>
    cases outcome <;> simp [next_eq]

section Turns

variable {stop : Walk → Bool} {steps fuel : Nat} {walk next : Walk}

theorem statements_of_nextStart? (goes : ¬stop walk)
    (next_eq : nextStart? steps walk = some next) :
    statements stop steps (fuel + 1) walk =
      statements stop steps fuel next := by
  rw [statements_turn, if_neg goes, next_eq]
  rfl

theorem statements_of_none (goes : ¬stop walk)
    (last : nextStart? steps walk = none) :
    statements stop steps (fuel + 1) walk = (true, walk.finish steps) := by
  rw [statements_turn, if_neg goes, last]
  rfl

end Turns

theorem fst_statements (steps fuel : Nat) (walk : Walk) :
    (statements (fun _ => false) steps fuel walk).1 = true := by
  induction fuel generalizing walk with
  | zero => rfl
  | succ fuel induction =>
      cases next_eq : nextStart? steps walk with
      | none => rw [statements_of_none Bool.false_ne_true next_eq]
      | some next =>
          rw [statements_of_nextStart? Bool.false_ne_true next_eq]
          exact induction next

theorem statements_length_statementStarts (steps fuel : Nat) (walk : Walk) :
    statements (fun _ => false) steps (statementStarts steps fuel walk).length
        walk =
      statements (fun _ => false) steps fuel walk := by
  induction fuel generalizing walk with
  | zero => rfl
  | succ fuel induction =>
      rw [statementStarts_turn, List.length_cons]
      cases next_eq : nextStart? steps walk with
      | none =>
          rw [statements_of_none Bool.false_ne_true next_eq,
            statements_of_none Bool.false_ne_true next_eq]
      | some next =>
          rw [statements_of_nextStart? Bool.false_ne_true next_eq,
            statements_of_nextStart? Bool.false_ne_true next_eq]
          exact induction next

/-- How the statements of a document end under a request to stop: in front of
the first statement where it is met, or as if there were none. -/
inductive StopsAt (stop : Walk → Bool) (behind : Nat → Walk) (count : Nat)
    (whole ended : Bool × Walk) : Prop where
  | stopped (number : Nat) (within : number < count)
    (met : stop (behind number)) (first : ∀ earlier < number,
      ¬stop (behind earlier))
    (ended_eq : ended = (false, behind number))
  | unmet (never : ∀ number < count, ¬stop (behind number))
    (ended_eq : ended = whole)

theorem stopsAt_statements (stop : Walk → Bool) (steps fuel : Nat)
    (walk : Walk) :
    StopsAt stop
      (fun number => (statements (fun _ => false) steps number walk).2)
      (statementStarts steps fuel walk).length
      (statements (fun _ => false) steps fuel walk)
      (statements stop steps fuel walk) := by
  induction fuel generalizing walk with
  | zero => exact .unmet nofun rfl
  | succ fuel induction =>
      rw [statementStarts_turn, List.length_cons]
      by_cases met : stop walk
      · refine .stopped 0 (Nat.succ_pos _) met nofun ?_
        rw [statements_turn, if_pos met]
        rfl
      · cases next_eq : nextStart? steps walk with
        | none =>
            refine .unmet (fun number less => ?_) ?_
            · obtain rfl : number = 0 := Nat.lt_one_iff.mp less
              exact met
            · rw [statements_of_none met next_eq,
                statements_of_none Bool.false_ne_true next_eq]
        | some next =>
            have turn (fuel : Nat) :
                statements (fun _ => false) steps (fuel + 1) walk =
                  statements (fun _ => false) steps fuel next :=
              statements_of_nextStart? Bool.false_ne_true next_eq
            rw [statements_of_nextStart? met next_eq, turn]
            -- What is the next statement's number there is one more here.
            cases induction next with
            | stopped number within here first ended_eq =>
                refine .stopped (number + 1) (Nat.succ_lt_succ within) ?_
                  (fun earlier less => ?_) ?_
                · simp only [turn, here]
                · cases earlier with
                  | zero => exact met
                  | succ earlier =>
                      simp only [turn]
                      exact first earlier (Nat.lt_of_succ_lt_succ less)
                · simp only [turn, ended_eq]
            | unmet never ended_eq =>
                refine .unmet (fun number less => ?_) ended_eq
                cases number with
                | zero => exact met
                | succ number =>
                    simp only [turn]
                    exact never number (Nat.lt_of_succ_lt_succ less)

def statementCount (tokens : List Token) : Nat :=
  (statementVisits tokens).length

/-- The walk behind the first `count` statements of a document, in front of the
next one; at its end when there are no more. -/
def behindStatements (tokens : List Token) (count : Nat) : Walk :=
  (statements (fun _ => false) (allowance tokens.length) count
    (start tokens)).2

theorem statementCount_eq_zero_iff {tokens : List Token} :
    statementCount tokens = 0 ↔ tokens = [] := by
  cases tokens with
  | nil => exact ⟨fun _ => rfl, fun _ => rfl⟩
  | cons first rest =>
      simp [statementCount, statementVisits, statementStarts]

theorem document_eq_behindStatements (tokens : List Token) :
    document (fun _ => false) tokens =
      (true, behindStatements tokens (statementCount tokens)) := by
  cases tokens with
  | nil => rfl
  | cons first rest =>
      have some_token : ¬(first :: rest).isEmpty := Bool.false_ne_true
      rw [behindStatements, statementCount, statementVisits, if_neg some_token,
        List.length_map, statements_length_statementStarts, document,
        if_neg some_token]
      exact Prod.ext (fst_statements _ _ _) rfl

theorem stopsAt_document (stop : Walk → Bool) (tokens : List Token) :
    StopsAt stop (behindStatements tokens) (statementCount tokens)
      (document (fun _ => false) tokens) (document stop tokens) := by
  cases tokens with
  | nil => exact .unmet nofun rfl
  | cons first rest =>
      have some_token : ¬(first :: rest).isEmpty := Bool.false_ne_true
      rw [statementCount, statementVisits, if_neg some_token, List.length_map,
        document, if_neg some_token, document, if_neg some_token]
      exact stopsAt_statements stop _ _ _

/-! What is kept from one statement to the next. -/

section Related

variable {related : Walk → Walk → Prop}

theorem related_turn (kept : KeptBySteps (fun _ => True) related)
    (settled : ∀ walk, related walk walk.settle) (steps fuel : Nat)
    (walk : Walk) :
    related (statements (fun _ => false) steps fuel walk).2
      (statements (fun _ => false) steps (fuel + 1) walk).2 := by
  induction fuel generalizing walk with
  | zero =>
      apply related_statements kept settled
      intro first _
      exact kept.run steps (.statement .document) first (.inl fun _ => trivial)
  | succ fuel induction =>
      cases next_eq : nextStart? steps walk with
      | none =>
          rw [statements_of_none Bool.false_ne_true next_eq,
            statements_of_none Bool.false_ne_true next_eq]
          exact kept.refl
      | some next =>
          rw [statements_of_nextStart? Bool.false_ne_true next_eq,
            statements_of_nextStart? Bool.false_ne_true next_eq]
          exact induction next

theorem related_behindStatements (kept : KeptBySteps (fun _ => True) related)
    (settled : ∀ walk, related walk walk.settle) (tokens : List Token)
    {count more : Nat} (le : count ≤ more) :
    related (behindStatements tokens count) (behindStatements tokens more) := by
  induction le with
  | refl => exact kept.refl
  | step _ induction =>
      exact kept.trans induction (related_turn kept settled _ _ _)

end Related

theorem keptBySteps_listed :
    KeptBySteps (fun _ => True) fun before after =>
      before.symbols.toList <+: after.symbols.toList where
  refl := List.prefix_rfl
  trans front back := front.trans back
  report _ := List.prefix_rfl
  ended _ := List.prefix_rfl
  next _ := List.prefix_rfl
  rescue _ := List.prefix_rfl
  strings := List.prefix_rfl
  classify := List.prefix_rfl
  register _ _ _ := by
    rw [SymbolTable.toList_declare]
    split
    · exact List.prefix_rfl
    · exact List.prefix_append _ _
  scope := id

theorem listed_settle (walk : Walk) :
    walk.symbols.toList <+: walk.settle.symbols.toList := by
  unfold settle
  split <;> exact List.prefix_rfl

end ComponentLang.Walk
