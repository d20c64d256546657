import ComponentLang.Token.Cursor

namespace ComponentLang.TokenCursor

def behind (cursor : TokenCursor) : List Token :=
  cursor.ahead.tail

theorem behind_of_seek {within wanted : Token → Bool} {passed tokens : List Token}
    {token : Token} {after : TokenCursor}
    (found : seek within wanted passed tokens = some (token, after)) :
    ∃ skipped, tokens = skipped ++ token :: after.behind ∧
      ∀ other ∈ skipped, wanted other = false := by
  fun_induction seek within wanted passed tokens with
  | case1 => cases found
  | case2 => cases found
  | case3 passed token rest =>
      cases found
      exact ⟨[], rfl, List.forall_mem_nil _⟩
  | case4 passed other rest _ unwanted induction =>
      obtain ⟨skipped, rfl, others⟩ := induction found
      refine ⟨other :: skipped, rfl, ?_⟩
      exact List.forall_mem_cons.mpr ⟨Bool.eq_false_iff.mpr unwanted, others⟩

theorem map_fst_seek (within wanted : Token → Bool) (passed tokens : List Token) :
    (seek within wanted passed tokens).map (·.1) =
      (tokens.takeWhile within).find? wanted := by
  fun_induction seek within wanted passed tokens with
  | case1 => rfl
  | case2 passed token rest beyond =>
      rw [Bool.not_eq_true'] at beyond
      rw [List.takeWhile_cons_of_neg (by simp [beyond])]
      rfl
  | case3 passed token rest inside found =>
      rw [Bool.not_eq_true, Bool.not_eq_false'] at inside
      rw [List.takeWhile_cons_of_pos inside, List.find?_cons_of_pos found]
      rfl
  | case4 passed token rest inside other induction =>
      rw [Bool.not_eq_true, Bool.not_eq_false'] at inside
      rw [List.takeWhile_cons_of_pos inside, List.find?_cons_of_neg other]
      exact induction

theorem behind_of_next? {cursor after : TokenCursor} {token : Token}
    (found : cursor.next? = some (token, after)) :
    ∃ skipped, cursor.behind = skipped ++ token :: after.behind ∧
      ∀ other ∈ skipped, other.isTrivia := by
  obtain ⟨passed, _ | ⟨current, rest⟩⟩ := cursor
  · nomatch found
  · obtain ⟨skipped, rest_eq, others⟩ := behind_of_seek found
    refine ⟨skipped, rest_eq, fun other member => ?_⟩
    simpa using others other member

theorem isTrivia_of_next? {cursor : TokenCursor} (none_left : cursor.next? = none)
    {token : Token} (member : token ∈ cursor.behind) : token.isTrivia := by
  obtain ⟨passed, _ | ⟨current, rest⟩⟩ := cursor
  · cases member
  · simp only [next?, behind, List.tail_cons] at none_left member
    generalize current :: passed = front at none_left
    induction rest generalizing front with
    | nil => cases member
    | cons other rest induction =>
        unfold seek at none_left
        by_cases trivia : other.isTrivia
        · rw [trivia] at none_left
          rcases List.mem_cons.mp member with rfl | later
          · exact trivia
          · exact induction later (other :: front) none_left
        · simp [trivia] at none_left

/-- The tokens behind the current one that carry meaning. -/
def upcoming (cursor : TokenCursor) : List Token :=
  cursor.behind.filter fun token => !token.isTrivia

theorem upcoming_of_behind {cursor after : TokenCursor} {skipped : List Token}
    {token : Token} (behind_eq : cursor.behind = skipped ++ token :: after.behind)
    (trivia : ∀ other ∈ skipped, other.isTrivia)
    (meaning : token.isTrivia = false) :
    cursor.upcoming = token :: after.upcoming := by
  rw [upcoming, behind_eq, List.filter_append,
    List.filter_cons_of_pos (by simp [meaning]),
    List.filter_eq_nil_iff.mpr (by simpa using trivia)]
  rfl

theorem upcoming_of_next? {cursor after : TokenCursor} {token : Token}
    (found : cursor.next? = some (token, after)) :
    cursor.upcoming = token :: after.upcoming := by
  obtain ⟨skipped, behind_eq, trivia⟩ := behind_of_next? found
  exact upcoming_of_behind behind_eq trivia (current?_of_next? found).2

theorem upcoming_eq_nil {cursor : TokenCursor} (none_left : cursor.next? = none) :
    cursor.upcoming = [] := by
  rw [upcoming, List.filter_eq_nil_iff]
  intro token member
  simp [isTrivia_of_next? none_left member]

theorem peek?_eq_head? (cursor : TokenCursor) :
    cursor.peek? = cursor.upcoming.head? := by
  unfold peek?
  cases next_eq : cursor.next? with
  | none => rw [upcoming_eq_nil next_eq]; rfl
  | some found => rw [upcoming_of_next? next_eq]; rfl

theorem next?_of_take? {cursor after : TokenCursor} {candidates : List Terminal}
    {terminal : Terminal}
    (found : cursor.take? candidates = some (terminal, after)) :
    ∃ token, cursor.next? = some (token, after) ∧
      Terminal.find? candidates token.text = some terminal := by
  unfold take? at found
  split at found
  · nomatch found
  · next token reached next_eq =>
      obtain ⟨_, found_eq, same⟩ := Option.map_eq_some_iff.mp found
      cases same
      exact ⟨token, next_eq, found_eq⟩

theorem peekIs_eq_isSome_take? (cursor : TokenCursor)
    (candidates : List Terminal) :
    cursor.peekIs candidates = (cursor.take? candidates).isSome := by
  unfold peekIs peek? take?
  cases cursor.next? with
  | none => rfl
  | some found => rw [Option.map_some, Option.any_some, Option.isSome_map]

theorem behind_of_rescue? {cursor after : TokenCursor}
    {candidates : List Terminal}
    (found : cursor.rescue? candidates = some after) :
    ∃ skipped token, cursor.behind = skipped ++ token :: after.behind ∧
      after.current? = some token ∧
      (Terminal.find? candidates token.text).isSome := by
  obtain ⟨passed, _ | ⟨current, rest⟩⟩ := cursor
  · nomatch found
  · obtain ⟨⟨token, reached⟩, seek_eq, rfl⟩ := Option.map_eq_some_iff.mp found
    obtain ⟨skipped, rest_eq, -⟩ := behind_of_seek seek_eq
    have there := current?_of_seek seek_eq
    exact ⟨skipped, token, rest_eq, there.1, there.2.1⟩

theorem line_of_rescue? {cursor after : TokenCursor} {current token : Token}
    {candidates : List Terminal} (there : cursor.current? = some current)
    (found : cursor.rescue? candidates = some after)
    (arrived : after.current? = some token) : token.line = current.line := by
  obtain ⟨passed, _ | ⟨first, rest⟩⟩ := cursor
  · nomatch there
  · cases there
    obtain ⟨⟨reached, place⟩, seek_eq, rfl⟩ := Option.map_eq_some_iff.mp found
    obtain ⟨here, -, within⟩ := current?_of_seek seek_eq
    cases arrived.symm.trans here
    exact beq_iff_eq.mp within

theorem behind_passStringsFrom (last : TokenCursor) (passed tokens : List Token) :
    passStringsFrom last passed tokens = last ∨
      ∃ skipped token, tokens =
          skipped ++ token :: (passStringsFrom last passed tokens).behind ∧
        (passStringsFrom last passed tokens).current? = some token ∧
        token.kind = .string ∧
        ∀ other ∈ skipped, other.isTrivia ∨ other.kind = .string := by
  fun_induction passStringsFrom last passed tokens with
  | case1 => exact .inl rfl
  | case2 last passed other rest trivia induction =>
      rcases induction with same | ⟨skipped, token, rest_eq, there, string, others⟩
      · exact .inl same
      · refine .inr ⟨other :: skipped, token, congrArg _ rest_eq, there, string, ?_⟩
        exact List.forall_mem_cons.mpr ⟨.inl trivia, others⟩
  | case3 last passed other rest _ string induction =>
      right
      rcases induction with same | ⟨skipped, token, rest_eq, there, kind, others⟩
      · rw [same]
        exact ⟨[], other, rfl, rfl, beq_iff_eq.mp string, List.forall_mem_nil _⟩
      · refine ⟨other :: skipped, token, congrArg _ rest_eq, there, kind, ?_⟩
        exact List.forall_mem_cons.mpr ⟨.inr (beq_iff_eq.mp string), others⟩
  | case4 => exact .inl rfl

theorem behind_passStrings (cursor : TokenCursor) :
    cursor.passStrings = cursor ∨
      ∃ skipped token,
        cursor.behind = skipped ++ token :: cursor.passStrings.behind ∧
        cursor.passStrings.current? = some token ∧ token.kind = .string ∧
        ∀ other ∈ skipped, other.isTrivia ∨ other.kind = .string := by
  obtain ⟨passed, _ | ⟨current, rest⟩⟩ := cursor
  · exact .inl rfl
  · exact behind_passStringsFrom _ _ _

@[simp] theorem behind_reclassify (cursor : TokenCursor) (kind : TokenKind)
    (modifiers : Modifiers) :
    (cursor.reclassify kind modifiers).behind = cursor.behind := by
  obtain ⟨passed, _ | ⟨current, rest⟩⟩ := cursor <;> rfl

@[simp] theorem current?_reclassify (cursor : TokenCursor) (kind : TokenKind)
    (modifiers : Modifiers) :
    (cursor.reclassify kind modifiers).current? =
      cursor.current?.map fun token => token.reclassify kind modifiers := by
  obtain ⟨passed, _ | ⟨current, rest⟩⟩ := cursor <;> rfl

theorem ahead_of_current? {cursor : TokenCursor} {token : Token}
    (there : cursor.current? = some token) :
    cursor.ahead = token :: cursor.behind := by
  obtain ⟨passed, _ | ⟨current, rest⟩⟩ := cursor
  · nomatch there
  · cases there
    rfl

/-- A move keeps the tokens, so it leaves behind it what it passes over. -/
theorem passed_of_move {cursor reached : TokenCursor}
    {current token : Token} {skipped : List Token}
    (there : cursor.current? = some current)
    (kept : reached.toList = cursor.toList)
    (behind_eq : cursor.behind = skipped ++ token :: reached.behind)
    (arrived : reached.current? = some token) :
    reached.passed.reverse = cursor.passed.reverse ++ current :: skipped := by
  obtain ⟨passed, _ | ⟨first, rest⟩⟩ := cursor
  · nomatch there
  · obtain ⟨others, _ | ⟨next, further⟩⟩ := reached
    · nomatch arrived
    · cases there
      cases arrived
      simp only [toList, behind, List.tail_cons] at *
      subst behind_eq
      have same : others.reverse ++ token :: further =
          (passed.reverse ++ current :: skipped) ++ token :: further := by
        simpa using kept
      exact List.append_cancel_right same

/-! The place of a cursor in a list of tokens. -/

/-- The cursor stands on a token of the list, before those that follow it
there. That token may have been classified since. -/
def StandsIn (tokens : List Token) (cursor : TokenCursor) : Prop :=
  ∃ front token current, tokens = front ++ token :: cursor.behind ∧
    cursor.current? = some current ∧ current.text = token.text

theorem StandsIn.ofList {tokens : List Token} (some_token : tokens ≠ []) :
    StandsIn tokens (ofList tokens) := by
  cases tokens with
  | nil => contradiction
  | cons token rest => exact ⟨[], token, token, rfl, rfl, rfl⟩

theorem StandsIn.move {tokens skipped : List Token} {cursor after : TokenCursor}
    {token : Token} (stands : StandsIn tokens cursor)
    (behind_eq : cursor.behind = skipped ++ token :: after.behind)
    (there : after.current? = some token) : StandsIn tokens after := by
  obtain ⟨front, current, _, rfl, -, -⟩ := stands
  refine ⟨front ++ current :: skipped, token, token, ?_, there, rfl⟩
  rw [behind_eq, List.append_assoc, List.cons_append]

theorem StandsIn.reclassify {tokens : List Token} {cursor : TokenCursor}
    (stands : StandsIn tokens cursor) (kind : TokenKind)
    (modifiers : Modifiers) :
    StandsIn tokens (cursor.reclassify kind modifiers) := by
  obtain ⟨front, token, current, tokens_eq, there, text_eq⟩ := stands
  refine ⟨front, token, current.reclassify kind modifiers, ?_, ?_, text_eq⟩
  · rw [behind_reclassify]
    exact tokens_eq
  · obtain ⟨passed, _ | ⟨first, rest⟩⟩ := cursor
    · nomatch there
    · cases there
      rfl

theorem StandsIn.next {tokens : List Token} {cursor after : TokenCursor}
    {token : Token} (stands : StandsIn tokens cursor)
    (found : cursor.next? = some (token, after)) : StandsIn tokens after := by
  obtain ⟨skipped, behind_eq, -⟩ := behind_of_next? found
  exact stands.move behind_eq (current?_of_next? found).1

theorem StandsIn.rescue {tokens : List Token} {cursor after : TokenCursor}
    {candidates : List Terminal} (stands : StandsIn tokens cursor)
    (found : cursor.rescue? candidates = some after) :
    StandsIn tokens after := by
  obtain ⟨skipped, token, behind_eq, there, -⟩ := behind_of_rescue? found
  exact stands.move behind_eq there

theorem StandsIn.passStrings {tokens : List Token} {cursor : TokenCursor}
    (stands : StandsIn tokens cursor) : StandsIn tokens cursor.passStrings := by
  rcases behind_passStrings cursor with same | ⟨_, token, behind_eq, there, -⟩
  · rwa [same]
  · exact stands.move behind_eq there

theorem StandsIn.remaining_lt {tokens : List Token} {cursor : TokenCursor}
    (stands : StandsIn tokens cursor) : cursor.remaining < tokens.length := by
  obtain ⟨front, token, _, rfl, -, -⟩ := stands
  simp only [List.length_append, List.length_cons, remaining, behind]
  omega

end ComponentLang.TokenCursor
