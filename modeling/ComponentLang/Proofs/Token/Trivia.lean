import ComponentLang.Proofs.Token.Passing

namespace ComponentLang

def meaningful (tokens : List Token) : List Token :=
  tokens.filter fun token => !token.isTrivia

/-- A backslash continues a line; the grammar reads nothing into it. -/
def Terminal.isMeaningful : Terminal → Bool
  | .operator .backslash => false
  | _ => true

section Meaningful

variable {token : Token} {tokens : List Token}

theorem meaningful_cons_of_isTrivia (trivia : token.isTrivia) :
    meaningful (token :: tokens) = meaningful tokens :=
  List.filter_cons_of_neg (by simp [trivia])

theorem meaningful_cons (carries : token.isTrivia = false) :
    meaningful (token :: tokens) = token :: meaningful tokens :=
  List.filter_cons_of_pos (by simp [carries])

theorem Token.isTrivia_reclassify (token : Token) {kind : TokenKind}
    (semantic : kind.isSemantic) (modifiers : Modifiers) :
    (token.reclassify kind modifiers).isTrivia = false := by
  cases kind <;> first | rfl | exact absurd semantic Bool.false_ne_true

def Token.IsSilent (token : Token) : Prop :=
  ∀ terminal : Terminal, terminal.isMeaningful → token.text ≠ terminal.spelling

/-- The tokens come line by line, and trivia among them are silent. -/
structure Quiet (tokens : List Token) : Prop where
  ascends : tokens.Pairwise fun first second => first.line ≤ second.line
  silent : ∀ token ∈ tokens, token.isTrivia → token.IsSilent

theorem Quiet.sublist {others : List Token} (quiet : Quiet tokens)
    (among : others.Sublist tokens) : Quiet others :=
  ⟨quiet.ascends.sublist among,
    fun token member => quiet.silent token (among.mem member)⟩

theorem Token.IsSilent.find?_eq_none {candidates : List Terminal}
    (silent : token.IsSilent)
    (meant : candidates.all Terminal.isMeaningful) :
    Terminal.find? candidates token.text = none := by
  rw [Terminal.find?, List.find?_eq_none]
  intro candidate member spelled
  exact silent candidate (List.all_eq_true.mp meant candidate member)
    (beq_iff_eq.mp spelled)

end Meaningful

namespace TokenCursor

variable {cursor reached : TokenCursor} {token : Token}

def trim (cursor : TokenCursor) : TokenCursor where
  passed := meaningful cursor.passed
  ahead := meaningful cursor.ahead

theorem trim_mk (passed ahead : List Token) :
    trim ⟨passed, ahead⟩ = ⟨meaningful passed, meaningful ahead⟩ := rfl

theorem toList_trim (cursor : TokenCursor) :
    cursor.trim.toList = meaningful cursor.toList := by
  simp only [toList, trim, meaningful, List.filter_append, List.filter_reverse]

/-- The cursor stands on a meaningful token, with quiet tokens behind it. -/
structure Tidy (cursor : TokenCursor) : Prop where
  quiet : Quiet cursor.ahead
  stands : ∃ token, cursor.current? = some token ∧ token.isTrivia = false

theorem Tidy.exists_eq (tidy : Tidy cursor) :
    ∃ passed token rest, cursor = ⟨passed, token :: rest⟩ ∧
      token.isTrivia = false := by
  obtain ⟨token, there, carries⟩ := tidy.stands
  obtain ⟨passed, ahead⟩ := cursor
  cases ahead with
  | nil => nomatch there
  | cons current rest =>
      cases there
      exact ⟨passed, token, rest, rfl, carries⟩

theorem Tidy.current?_trim (tidy : Tidy cursor) :
    cursor.trim.current? = cursor.current? := by
  obtain ⟨passed, token, rest, rfl, carries⟩ := tidy.exists_eq
  rw [trim_mk, meaningful_cons carries]
  rfl

theorem Tidy.of_move {skipped : List Token} (quiet : Quiet cursor.ahead)
    (behind_eq : cursor.behind = skipped ++ token :: reached.behind)
    (there : reached.current? = some token) (carries : token.isTrivia = false) :
    Tidy reached := by
  refine ⟨quiet.sublist ?_, token, there, carries⟩
  have further : reached.ahead.Sublist cursor.behind := by
    rw [behind_eq, ahead_of_current? there]
    exact List.sublist_append_right _ _
  exact further.trans (List.tail_sublist _)

theorem seek_of_not_within {within wanted : Token → Bool}
    {passed tokens : List Token} (outside : ∀ token ∈ tokens, ¬within token) :
    seek within wanted passed tokens = none := by
  cases tokens with
  | nil => rfl
  | cons token rest =>
      rw [seek, if_pos (by simpa using outside token List.mem_cons_self)]

/-- A search that wants no trivia finds the same without them, if what is out
of its reach stays so. -/
theorem seek_meaningful {within wanted : Token → Bool}
    {passed tokens : List Token}
    (ends : tokens.Pairwise fun first second => within second → within first)
    (unwanted : ∀ token ∈ tokens, token.isTrivia → ¬wanted token) :
    seek within wanted (meaningful passed) (meaningful tokens) =
      (seek within wanted passed tokens).map
        fun (token, after) => (token, after.trim) := by
  induction tokens generalizing passed with
  | nil => rfl
  | cons token rest induction =>
      obtain ⟨first, ends⟩ := List.pairwise_cons.mp ends
      obtain ⟨here, unwanted⟩ := List.forall_mem_cons.mp unwanted
      cases trivia : token.isTrivia with
      | true =>
          have further := @induction (token :: passed) ends unwanted
          rw [meaningful_cons_of_isTrivia trivia] at further ⊢
          rw [seek.eq_2 within wanted passed token rest, if_neg (here trivia)]
          split
          · next outside =>
              -- The search ends at the trivia, and without them at the next
              -- token, which is out of reach as well.
              apply seek_of_not_within
              intro other member reachable
              have there := first other ((List.mem_filter.mp member).1) reachable
              simp [there] at outside
          · exact further
      | false =>
          have further := @induction (token :: passed) ends unwanted
          rw [meaningful_cons trivia] at further ⊢
          rw [seek, seek]
          split
          · rfl
          · split
            · rw [Option.map_some]
              simp only [trim_mk, meaningful_cons trivia]
            · exact further

theorem Tidy.next?_trim (tidy : Tidy cursor) :
    cursor.trim.next? =
      cursor.next?.map fun (token, after) => (token, after.trim) := by
  obtain ⟨passed, token, rest, rfl, carries⟩ := tidy.exists_eq
  rw [trim_mk, meaningful_cons carries, next?, next?]
  simp only
  rw [← meaningful_cons carries]
  apply seek_meaningful
  · exact List.pairwise_of_forall fun _ _ _ => rfl
  · intro other member trivia
    simp [trivia]

theorem next?_ofList_of_isTrivia {first : Token} {rest : List Token}
    (trivia : first.isTrivia) :
    (ofList (first :: rest)).next?.map (·.2.trim) =
      if (meaningful rest).isEmpty then none
      else some (ofList (meaningful rest)) := by
  have whole : List.Pairwise (fun _ _ : Token => true → true) rest :=
    List.pairwise_of_forall fun _ _ _ => rfl
  have unwanted : ∀ token ∈ rest, token.isTrivia → ¬!token.isTrivia := by
    simp +contextual
  have found := @seek_meaningful _ _ [first] rest whole unwanted
  rw [meaningful_cons_of_isTrivia trivia] at found
  have same : (ofList (first :: rest)).next?.map (·.2.trim) =
      (seek (fun _ => true) (fun token => !token.isTrivia) (meaningful [])
        (meaningful rest)).map (·.2) := by
    rw [found, Option.map_map]
    rfl
  rw [same]
  cases rest_eq : meaningful rest with
  | nil => rfl
  | cons token others =>
      have carries : token.isTrivia = false := by
        have among : token ∈ meaningful rest := rest_eq ▸ List.mem_cons_self
        simpa using (List.mem_filter.mp among).2
      rw [seek, if_neg (by simp), if_pos (by simp [carries])]
      rfl

theorem Tidy.rescue?_trim (tidy : Tidy cursor) {candidates : List Terminal}
    (meant : candidates.all Terminal.isMeaningful) :
    cursor.trim.rescue? candidates = (cursor.rescue? candidates).map trim := by
  have quiet := tidy.quiet
  obtain ⟨passed, token, rest, rfl, carries⟩ := tidy.exists_eq
  obtain ⟨first, ascends⟩ := List.pairwise_cons.mp quiet.ascends
  rw [trim_mk, meaningful_cons carries, rescue?, rescue?]
  simp only
  rw [← meaningful_cons carries, seek_meaningful, Option.map_map,
    Option.map_map]
  · rfl
  · refine List.Pairwise.imp_of_mem ?_ ascends
    intro early late among _ le same
    have least := first early among
    have here : late.line = token.line := beq_iff_eq.mp same
    exact beq_iff_eq.mpr (by omega)
  · intro other member trivia
    have silent := quiet.silent other (List.mem_cons_of_mem _ member) trivia
    rw [silent.find?_eq_none meant]
    exact Bool.false_ne_true

theorem passStringsFrom_meaningful (last : TokenCursor)
    (passed tokens : List Token) :
    passStringsFrom last.trim (meaningful passed) (meaningful tokens) =
      (passStringsFrom last passed tokens).trim := by
  fun_induction passStringsFrom last passed tokens with
  | case1 => rfl
  | case2 last passed token rest trivia induction =>
      rw [meaningful_cons_of_isTrivia trivia] at induction ⊢
      exact induction
  | case3 last passed token rest carries string induction =>
      have carries := Bool.eq_false_iff.mpr carries
      rw [meaningful_cons carries] at induction ⊢
      rw [passStringsFrom, if_neg (by simp [carries]), if_pos string]
      rw [trim_mk, meaningful_cons carries] at induction
      exact induction
  | case4 last passed token rest carries other =>
      have carries := Bool.eq_false_iff.mpr carries
      rw [meaningful_cons carries, passStringsFrom, if_neg (by simp [carries]),
        if_neg other]

theorem Tidy.passStrings_trim (tidy : Tidy cursor) :
    cursor.trim.passStrings = cursor.passStrings.trim := by
  obtain ⟨passed, token, rest, rfl, carries⟩ := tidy.exists_eq
  have same := passStringsFrom_meaningful ⟨passed, token :: rest⟩
    (token :: passed) rest
  rw [trim_mk, meaningful_cons carries, meaningful_cons carries] at same
  rw [trim_mk, meaningful_cons carries]
  exact same

theorem Tidy.reclassify_trim (tidy : Tidy cursor) {kind : TokenKind}
    (semantic : kind.isSemantic) (modifiers : Modifiers) :
    cursor.trim.reclassify kind modifiers =
      (cursor.reclassify kind modifiers).trim := by
  obtain ⟨passed, token, rest, rfl, carries⟩ := tidy.exists_eq
  have plain := token.isTrivia_reclassify semantic modifiers
  rw [trim_mk, meaningful_cons carries]
  change _ = trim ⟨passed, token.reclassify kind modifiers :: rest⟩
  rw [trim_mk, meaningful_cons plain]
  rfl

theorem Tidy.next (tidy : Tidy cursor)
    (found : cursor.next? = some (token, reached)) : Tidy reached := by
  obtain ⟨skipped, behind_eq, -⟩ := behind_of_next? found
  obtain ⟨there, carries⟩ := current?_of_next? found
  exact .of_move tidy.quiet behind_eq there carries

theorem Tidy.rescue (tidy : Tidy cursor) {candidates : List Terminal}
    (meant : candidates.all Terminal.isMeaningful)
    (found : cursor.rescue? candidates = some reached) : Tidy reached := by
  obtain ⟨skipped, token, behind_eq, there, spelled⟩ := behind_of_rescue? found
  apply Tidy.of_move tidy.quiet behind_eq there
  rw [Bool.eq_false_iff]
  intro trivia
  have among : token ∈ cursor.ahead := by
    apply List.mem_of_mem_tail
    change token ∈ cursor.behind
    rw [behind_eq]
    exact List.mem_append_right _ List.mem_cons_self
  rw [(tidy.quiet.silent token among trivia).find?_eq_none meant] at spelled
  nomatch spelled

theorem Tidy.passStrings (tidy : Tidy cursor) : Tidy cursor.passStrings := by
  rcases behind_passStrings cursor with same |
    ⟨skipped, token, behind_eq, there, string, -⟩
  · rwa [same]
  · apply Tidy.of_move tidy.quiet behind_eq there
    rw [Token.isTrivia, string]
    rfl

theorem Tidy.reclassify (tidy : Tidy cursor) {kind : TokenKind}
    (semantic : kind.isSemantic) (modifiers : Modifiers) :
    Tidy (cursor.reclassify kind modifiers) := by
  have quiet := tidy.quiet
  obtain ⟨passed, token, rest, rfl, carries⟩ := tidy.exists_eq
  obtain ⟨first, ascends⟩ := List.pairwise_cons.mp quiet.ascends
  have plain := token.isTrivia_reclassify semantic modifiers
  refine ⟨⟨List.pairwise_cons.mpr ⟨first, ascends⟩, ?_⟩, _, rfl, plain⟩
  refine List.forall_mem_cons.mpr ⟨fun trivia => ?_, fun other member =>
    quiet.silent other (List.mem_cons_of_mem _ member)⟩
  rw [plain] at trivia
  nomatch trivia

end TokenCursor

end ComponentLang
