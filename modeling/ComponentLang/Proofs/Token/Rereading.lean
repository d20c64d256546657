import ComponentLang.Proofs.Token.Visited

namespace ComponentLang

theorem Keyword.startsStatement_eq_false {word : Keyword}
    (contextual : word.isContextual) : word.startsStatement = false := by
  cases word <;> first | rfl | nomatch contextual

namespace Token.Becomes

variable {original token : Token}

theorem isTrivia_eq_false (lexical : Scan.IsLexical original)
    (identifier : Literal.isIdentifier original.text) :
    original.isTrivia = false := by
  have unsettled := lexical.unsettled identifier
  unfold Token.isSettled at unsettled
  unfold isTrivia
  generalize original.kind = kind at unsettled ⊢
  cases kind with
  | comment | remark | operator => nomatch unsettled
  | _ => rfl

theorem isTrivia_of_isSemantic (semantic : token.kind.isSemantic) :
    token.isTrivia = false := by
  unfold isTrivia
  generalize token.kind = kind at semantic ⊢
  cases kind with
  | comment | remark | operator => nomatch semantic
  | _ => rfl

theorem isTrivia_eq (becomes : original.Becomes token) :
    original.isTrivia = token.isTrivia := by
  cases becomes with
  | same => rfl
  | classified lexical identifier semantic =>
      rw [isTrivia_eq_false lexical identifier, isTrivia_of_isSemantic semantic]

theorem line (becomes : original.Becomes token) : original.line = token.line := by
  cases becomes <;> rfl

theorem text (becomes : original.Becomes token) : original.text = token.text := by
  cases becomes <;> rfl

theorem eq_of_isTrivia (becomes : original.Becomes token)
    (trivia : original.isTrivia) : original = token := by
  cases becomes with
  | same => rfl
  | classified lexical identifier semantic =>
      rw [isTrivia_eq_false lexical identifier] at trivia
      nomatch trivia

theorem eq_or_isSemantic (becomes : original.Becomes token) :
    original = token ∨ token.kind.isSemantic := by
  cases becomes with
  | same => exact .inl rfl
  | classified _ _ semantic => exact .inr semantic

/-- What is said of a token replaces what was said of it before. -/
theorem reclassify_eq (becomes : original.Becomes token) (kind : TokenKind)
    (modifiers : Modifiers) :
    original.reclassify kind modifiers = token.reclassify kind modifiers := by
  cases becomes <;> rfl

theorem eq_of_all_trivia {originals tokens : List Token}
    (became : List.Forall₂ Token.Becomes originals tokens)
    (trivia : ∀ token ∈ originals, token.isTrivia) : originals = tokens := by
  induction became with
  | nil => rfl
  | cons becomes _ induction =>
      obtain ⟨first, rest⟩ := List.forall_mem_cons.mp trivia
      rw [becomes.eq_of_isTrivia first, induction rest]

end Token.Becomes

namespace TokenCursor

variable {first second : TokenCursor}

theorem visited_rel {related : Token → Token → Prop}
    (paired : Paired related first second) (fresh : Bool) :
    List.Forall₂ related (first.visited fresh) (second.visited fresh) := by
  obtain ⟨passed, ahead⟩ := first
  obtain ⟨otherPassed, otherAhead⟩ := second
  have front := List.rel_reverse paired.passed
  cases fresh with
  | true => exact front
  | false =>
      cases paired.ahead with
      | nil => exact List.rel_append front .nil
      | cons pair rest => exact List.rel_append front (.cons pair .nil)

theorem visited_prefix_toList (fresh : Bool) (cursor : TokenCursor) :
    cursor.visited fresh <+: cursor.toList :=
  ⟨_, cursor.visited_append_unvisited fresh⟩

/-- Of paired cursors, the first one shows what the second one's tokens are only
if it has visited the same. -/
theorem visited_eq_of_prefix {related : Token → Token → Prop}
    (paired : Paired related first second) {fresh : Bool}
    (shows : first.visited fresh <+: second.toList) :
    first.visited fresh = second.visited fresh := by
  have same_length := (visited_rel paired fresh).length_eq
  have within := List.prefix_of_prefix_length_le shows
    (visited_prefix_toList fresh second) (Nat.le_of_eq same_length)
  exact within.eq_of_length same_length

/-- From one token on, over trivia, both cursors have passed the same. -/
theorem passed_eq_of_next? {reached arrived : TokenCursor}
    {current token other : Token} (passed : first.passed = second.passed)
    (here : first.current? = some current)
    (there : second.current? = some current)
    (left : first.next? = some (token, reached))
    (right : second.next? = some (other, arrived))
    (paired : Paired Token.Becomes reached arrived) :
    reached.passed = arrived.passed := by
  obtain ⟨skipped, behind_eq, trivia⟩ := behind_of_next? left
  obtain ⟨others, otherBehind_eq, -⟩ := behind_of_next? right
  have left_eq := passed_of_move here (toList_of_next? left) behind_eq
    (current?_of_next? left).1
  have right_eq := passed_of_move there (toList_of_next? right) otherBehind_eq
    (current?_of_next? right).1
  have rest (tokens : List Token) :
      (second.passed.reverse ++ current :: tokens).drop
        (second.passed.length + 1) = tokens := by
    simp [List.drop_append]
  have became := List.rel_reverse paired.passed
  rw [left_eq, right_eq, passed] at became
  have skips := List.forall₂_drop (second.passed.length + 1) became
  rw [rest, rest] at skips
  rw [← List.reverse_inj, left_eq, right_eq, passed,
    Token.Becomes.eq_of_all_trivia skips trivia]

theorem reclassify_eq_self {cursor : TokenCursor} {token : Token}
    {kind : TokenKind} {modifiers : Modifiers}
    (there : cursor.current? = some token)
    (same : token.reclassify kind modifiers = token) :
    cursor.reclassify kind modifiers = cursor := by
  obtain ⟨passed, _ | ⟨current, rest⟩⟩ := cursor
  · rfl
  · cases there
    exact congrArg (fun other => mk passed (other :: rest)) same

theorem visited_passStringsFrom {last : TokenCursor} {passed tokens : List Token}
    (grows : last.visited false <+: passed.reverse) :
    last.visited false <+: (passStringsFrom last passed tokens).visited false := by
  fun_induction passStringsFrom last passed tokens with
  | case1 => exact List.prefix_refl _
  | case2 last passed token rest _ induction =>
      apply induction
      rw [List.reverse_cons]
      exact grows.trans (List.prefix_append _ _)
  | case3 last passed token rest _ _ induction =>
      have here : (mk passed (token :: rest)).visited false =
          (token :: passed).reverse := by
        simp [visited, current?]
      refine (grows.trans ?_).trans (induction (here ▸ List.prefix_refl _))
      rw [here, List.reverse_cons]
      exact List.prefix_append _ _
  | case4 => exact List.prefix_refl _

/-- Passing strings leads both cursors to one place, or the first one shows a
string that is none in the end. -/
theorem paired_passStringsFrom {last otherLast : TokenCursor}
    {passed otherPassed tokens others : List Token}
    (lasts : Paired Token.Becomes last otherLast)
    (front : List.Forall₂ Token.Becomes passed otherPassed)
    (back : List.Forall₂ Token.Becomes tokens others) :
    Paired Token.Becomes (passStringsFrom last passed tokens)
        (passStringsFrom otherLast otherPassed others) ∨
      ¬(passStringsFrom last passed tokens).visited false <+:
        otherPassed.reverse ++ others := by
  induction back generalizing last otherLast passed otherPassed with
  | nil => exact .inl lasts
  | @cons token other tokens others becomes rest induction =>
      rcases becomes.eq_or_isSemantic with rfl | semantic
      · have onward {reached arrived : TokenCursor}
            (there : Paired Token.Becomes reached arrived) :=
          induction there (.cons becomes front)
        simp only [List.reverse_cons, List.append_assoc, List.singleton_append]
          at onward
        unfold passStringsFrom
        split
        · exact onward lasts
        · split
          · exact onward ⟨front, .cons becomes rest⟩
          · exact .inl lasts
      · have no_trivia := Token.Becomes.isTrivia_of_isSemantic semantic
        have no_string : other.kind ≠ .string := by
          intro string
          rw [string] at semantic
          exact absurd semantic Bool.false_ne_true
        simp only [passStringsFrom, becomes.isTrivia_eq, no_trivia,
          beq_eq_false_iff_ne.mpr no_string, Bool.false_eq_true, if_false]
        split
        · next string =>
            -- The first cursor has passed it as a string, which it is no more.
            refine .inr fun shows => no_string ?_
            have visited : (mk passed (token :: tokens)).visited false <+:
                otherPassed.reverse ++ other :: others :=
              (visited_passStringsFrom (by simp [visited, current?])).trans shows
            obtain ⟨later, same⟩ := visited
            have parts : passed.reverse ++ token :: later =
                otherPassed.reverse ++ other :: others := by
              simpa [TokenCursor.visited, current?] using same
            have heads := (List.append_inj parts (by
              rw [List.length_reverse, List.length_reverse, front.length_eq])).2
            rw [← (List.cons.inj heads).1]
            exact beq_iff_eq.mp string
        · exact .inl lasts

theorem paired_passStrings (paired : Paired Token.Becomes first second) :
    Paired Token.Becomes first.passStrings second.passStrings ∨
      ¬first.passStrings.visited false <+: second.toList := by
  obtain ⟨passed, ahead⟩ := first
  obtain ⟨otherPassed, otherAhead⟩ := second
  cases paired.ahead with
  | nil => exact .inl paired
  | @cons token other tokens others becomes rest =>
      have reached := paired_passStringsFrom paired (.cons becomes paired.passed)
        rest
      simpa [passStrings, TokenCursor.toList] using reached

end TokenCursor

end ComponentLang
