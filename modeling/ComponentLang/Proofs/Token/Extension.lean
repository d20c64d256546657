import ComponentLang.Proofs.Token.Passing

namespace ComponentLang.TokenCursor

variable {cursor reached : TokenCursor} {token current : Token}
  {tokens : List Token}

def extend (cursor : TokenCursor) (tokens : List Token) : TokenCursor :=
  { cursor with ahead := cursor.ahead ++ tokens }

theorem toList_extend (cursor : TokenCursor) (tokens : List Token) :
    (cursor.extend tokens).toList = cursor.toList ++ tokens :=
  (List.append_assoc _ _ _).symm

theorem current?_extend (there : cursor.current? = some current)
    (tokens : List Token) :
    (cursor.extend tokens).current? = some current := by
  obtain ⟨passed, _ | ⟨first, rest⟩⟩ := cursor
  · nomatch there
  · exact there

theorem behind_extend (there : cursor.current? = some current)
    (tokens : List Token) :
    (cursor.extend tokens).behind = cursor.behind ++ tokens := by
  obtain ⟨passed, _ | ⟨first, rest⟩⟩ := cursor
  · nomatch there
  · rfl

variable {within wanted : Token → Bool} {passed front back : List Token}

theorem seek_append_of_some
    (found : seek within wanted passed front = some (token, reached)) :
    seek within wanted passed (front ++ back) =
      some (token, reached.extend back) := by
  fun_induction seek within wanted passed front with
  | case1 => cases found
  | case2 => cases found
  | case3 passed first rest inside wants =>
      cases found
      rw [List.cons_append, seek, if_neg inside, if_pos wants]
      rfl
  | case4 passed first rest inside unwanted induction =>
      rw [List.cons_append, seek, if_neg inside, if_neg unwanted]
      exact induction found

theorem seek_append_of_none (missed : seek within wanted passed front = none)
    (outside : ∀ token ∈ back, ¬within token) :
    seek within wanted passed (front ++ back) = none := by
  fun_induction seek within wanted passed front with
  | case1 =>
      cases back with
      | nil => rfl
      | cons first rest =>
          have beyond := outside first List.mem_cons_self
          rw [List.nil_append, seek, if_pos (by simpa using beyond)]
  | case2 passed first rest beyond =>
      rw [List.cons_append, seek, if_pos beyond]
  | case3 => nomatch missed
  | case4 passed first rest inside unwanted induction =>
      rw [List.cons_append, seek, if_neg inside, if_neg unwanted]
      exact induction missed

theorem next?_extend (found : cursor.next? = some (token, reached))
    (tokens : List Token) :
    (cursor.extend tokens).next? = some (token, reached.extend tokens) := by
  obtain ⟨passed, _ | ⟨first, rest⟩⟩ := cursor
  · nomatch found
  · exact seek_append_of_some found

theorem rescue?_extend (there : cursor.current? = some current)
    (outside : ∀ token ∈ tokens, token.line ≠ current.line)
    (candidates : List Terminal) :
    (cursor.extend tokens).rescue? candidates =
      (cursor.rescue? candidates).map fun reached => reached.extend tokens := by
  obtain ⟨passed, _ | ⟨first, rest⟩⟩ := cursor
  · nomatch there
  · cases there
    rw [rescue?, rescue?]
    simp only [extend, List.cons_append]
    cases found : seek (fun token => token.line == current.line)
        (fun token => (Terminal.find? candidates token.text).isSome)
        (current :: passed) rest with
    | none =>
        rw [seek_append_of_none found fun token member same =>
          outside token member (beq_iff_eq.mp same)]
        rfl
    | some place =>
        obtain ⟨token, reached⟩ := place
        rw [seek_append_of_some found]
        rfl

/-- Strings are passed over as before, or on into the further tokens, and then
nothing but trivia was left. -/
theorem passStringsFrom_append {last : TokenCursor}
    (there : last.current? = some current)
    (near : ∀ token ∈ last.behind, token.isTrivia ∨ token ∈ front) :
    passStringsFrom (last.extend back) passed (front ++ back) =
        (passStringsFrom last passed front).extend back ∨
      (∀ token ∈ (passStringsFrom last passed front).behind, token.isTrivia) ∧
        (passStringsFrom (last.extend back) passed (front ++ back)).behind ⊆
          back := by
  fun_induction passStringsFrom last passed front generalizing current with
  | case1 last passed =>
      rw [List.nil_append]
      rcases behind_passStringsFrom (last.extend back) passed back with
        same | ⟨skipped, token, back_eq, -⟩
      · exact .inl same
      · refine .inr ⟨fun token member =>
          (near token member).resolve_right List.not_mem_nil,
          fun token member => ?_⟩
        rw [back_eq]
        exact List.mem_append_right _ (List.mem_cons_of_mem _ member)
  | case2 last passed first rest trivia induction =>
      rw [List.cons_append, passStringsFrom, if_pos trivia]
      refine induction there fun token member => ?_
      rcases near token member with other | among
      · exact .inl other
      · rcases List.mem_cons.mp among with rfl | later
        · exact .inl trivia
        · exact .inr later
  | case3 last passed first rest carries string induction =>
      rw [List.cons_append, passStringsFrom, if_neg carries, if_pos string]
      exact induction rfl fun token member => .inr member
  | case4 last passed first rest carries other =>
      rw [List.cons_append, passStringsFrom, if_neg carries, if_neg other]
      exact .inl rfl

theorem passStrings_extend (there : cursor.current? = some current)
    (tokens : List Token) :
    (cursor.extend tokens).passStrings = cursor.passStrings.extend tokens ∨
      (∀ token ∈ cursor.passStrings.behind, token.isTrivia) ∧
        (cursor.extend tokens).passStrings.behind ⊆ tokens := by
  obtain ⟨passed, _ | ⟨first, rest⟩⟩ := cursor
  · nomatch there
  · exact passStringsFrom_append there fun token member => .inr member

end ComponentLang.TokenCursor
