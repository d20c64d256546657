import ComponentLang.Proofs.Token.Rereading
import ComponentLang.Proofs.Walk.Highlights
import ComponentLang.Proofs.Walk.Lockstep

namespace ComponentLang

/-- One finding tells what another one does, of a token whose kind may have
changed. -/
structure Finding.Retold (first second : Finding) : Prop where
  cause : first.cause = second.cause
  site : first.anchor.site = second.anchor.site
  suggestion : first.cause.suggestion first.anchor =
    second.cause.suggestion second.anchor

theorem Finding.Retold.refl (finding : Finding) : Finding.Retold finding finding :=
  ⟨rfl, rfl, rfl⟩

namespace Walk

variable {final : List Token} {walk after first second : Walk}
  {fresh now : Bool} {token other : Token}

/-- The walk shows a token as it is not in the end. -/
def Strays (final : List Token) (fresh : Bool) (walk : Walk) : Prop :=
  ¬walk.cursor.visited fresh <+: final

namespace Strays

theorem mono (strays : Strays final fresh walk)
    (grows : walk.cursor.visited fresh <+: after.cursor.visited now) :
    Strays final now after :=
  fun shows => strays (grows.trans shows)

theorem weaken (strays : Strays final true walk) : Strays final false walk :=
  strays.mono (List.prefix_append _ _)

theorem move (strays : Strays final false walk) {skipped : List Token}
    {reached : TokenCursor} (passes : walk.cursor.Passes skipped reached) :
    Strays final true (walk.moveTo reached) :=
  strays.mono passes.grows

theorem strings (strays : Strays final false walk) :
    Strays final false walk.strings := by
  rcases walk.cursor.passes_passStrings with same | ⟨skipped, passes⟩
  · rwa [Walk.strings, same]
  · exact (strays.move passes).weaken

theorem classify (strays : Strays final true walk) (kind : TokenKind)
    (modifiers : Modifiers) :
    Strays final false (walk.classify kind modifiers) := by
  apply strays.mono
  change _ <+: (walk.cursor.reclassify kind modifiers).visited false
  rw [TokenCursor.visited_false, TokenCursor.visited_true_reclassify]
  exact List.prefix_append _ _

theorem resolve (strays : Strays final true walk) :
    Strays final false walk.resolve := by
  unfold Walk.resolve
  split
  · exact strays.weaken
  · split
    · split
      · exact strays.classify _ _
      · exact strays.weaken
    · exact strays.weaken

theorem declare (strays : Strays final true walk) (kind : TokenKind)
    (modifiers : Modifiers) :
    Strays final false (walk.declare kind modifiers).2 := by
  unfold Walk.declare
  split
  · exact strays.weaken
  · split
    · apply classify
      apply strays.mono
      simpa only [cursor_reportDuplicate] using List.prefix_refl _
    · exact strays.weaken

end Strays

/-- A walk that has strayed does not come back. -/
theorem steady_strays (final : List Token) : SteadyInvariant (Strays final) where
  weaken := .weaken
  scopes := id
  next strays found := by
    obtain ⟨skipped, passes⟩ := TokenCursor.passes_of_next? found
    exact strays.move passes
  ended strays _ := strays
  abandoned strays _ := strays
  report strays _ _ := strays
  rescue strays found := by
    obtain ⟨skipped, passes⟩ := TokenCursor.passes_of_rescue? found
    exact (strays.weaken.move passes).weaken
  strings strays := strays.weaken.strings
  resolve := .resolve
  declare _ strays := strays.declare _ _
  reported strays := strays
  passed := .strings

structure Told (first second : Walk) : Prop where
  scopes : first.scopes = second.scopes
  symbols : first.symbols = second.symbols
  classified : first.classified = second.classified
  findings : List.Forall₂ Finding.Retold first.findings second.findings
  resets : first.resets = second.resets

/-- The second walk is over the final tokens. It stands where the first one
stands, and in front of there the first one has made of the tokens what they are
in the end. -/
structure Rereads (final : List Token) (first second : Walk) : Prop extends
    Told first second where
  paired : TokenCursor.Paired Token.Becomes first.cursor second.cursor
  whole : second.cursor.toList = final
  passed : first.cursor.passed = second.cursor.passed
  stands : ∃ token, first.cursor.current? = some token

/-- The first walk has strayed, whatever the second one does. -/
def Astray (final : List Token) (free : Bool) (first : Walk) (_ : Bool)
    (_ : Walk) : Prop :=
  Strays final free first

theorem Told.report (told : Told first second) {cause otherCause : Cause}
    {anchor otherAnchor : Token}
    (retold : Finding.Retold ⟨cause, anchor⟩ ⟨otherCause, otherAnchor⟩) :
    Told (first.report cause anchor) (second.report otherCause otherAnchor) :=
  { told with findings := .cons retold told.findings }

theorem Told.onward (told : Told first second)
    (paired : TokenCursor.Paired Token.Becomes first.cursor second.cursor)
    (whole : second.cursor.toList = final)
    (stands : ∃ token, first.cursor.current? = some token) :
    Onward (fun _ => Rereads final) (Astray final) first second := by
  by_cases shows : first.cursor.visited true <+: final
  · have same := TokenCursor.visited_eq_of_prefix paired (whole ▸ shows)
    exact .inl ⟨told, paired, whole, List.reverse_injective same, stands⟩
  · exact .inr (Strays.weaken shows)

namespace Rereads

theorem exists_current (rereads : Rereads final first second) :
    ∃ token other, first.cursor.current? = some token ∧
      second.cursor.current? = some other ∧ token.Becomes other := by
  obtain ⟨token, there⟩ := rereads.stands
  rcases none_or_some_of_rel rereads.paired.current?_rel with
    ⟨nowhere, -⟩ | pairs
  · rw [there] at nowhere
    nomatch nowhere
  · exact pairs

theorem eq_or_strays (rereads : Rereads final first second)
    (left : first.cursor.current? = some token)
    (right : second.cursor.current? = some other) :
    token = other ∨ Strays final false first := by
  by_cases shows : first.cursor.visited false <+: final
  · left
    have same := TokenCursor.visited_eq_of_prefix rereads.paired
      (rereads.whole ▸ shows)
    simp only [TokenCursor.visited, rereads.passed, left, right] at same
    exact (List.cons.inj (List.append_cancel_left same)).1
  · exact .inr shows

theorem place_eq (rereads : Rereads final first second) :
    first.place = second.place := by
  obtain ⟨token, other, left, right, becomes⟩ := rereads.exists_current
  rw [place, place, TokenCursor.place, TokenCursor.place, left, right]
  exact (Token.stop_eq_of_site becomes.site).symm

theorem isLater_eq (rereads : Rereads final first second)
    (becomes : token.Becomes other) :
    first.isLater token = second.isLater other := by
  obtain ⟨_, _, left, right, currents⟩ := rereads.exists_current
  rw [isLater, isLater, TokenCursor.isLater, TokenCursor.isLater, left, right]
  simp only [Option.any_some, currents.line, becomes.line]

theorem report (rereads : Rereads final first second) {cause otherCause : Cause}
    {anchor otherAnchor : Token}
    (retold : Finding.Retold ⟨cause, anchor⟩ ⟨otherCause, otherAnchor⟩) :
    Rereads final (first.report cause anchor)
      (second.report otherCause otherAnchor) :=
  { rereads with toTold := rereads.toTold.report retold }

theorem report_same (rereads : Rereads final first second) (cause : Cause)
    (anchor : Token) :
    Rereads final (first.report cause anchor) (second.report cause anchor) :=
  rereads.report (.refl _)

theorem canResumeAt_eq_false (walk : Walk)
    (identifier : Literal.isIdentifier token.text) :
    walk.canResumeAt token = false := by
  have no_brace : (token.text == Operator.rightBrace.spelling) = false := by
    refine beq_eq_false_iff_ne.mpr fun brace => ?_
    rw [brace] at identifier
    revert identifier
    decide +kernel
  have no_start :
      (Keyword.ofSpelling? token.text).any Keyword.startsStatement = false := by
    cases found : Keyword.ofSpelling? token.text with
    | none => rfl
    | some word =>
        obtain spelled := Keyword.ofSpelling?_eq_some_iff.mp found
        rw [← spelled] at identifier
        exact Keyword.startsStatement_eq_false
          (Keyword.isContextual_of_isIdentifier identifier)
  rw [canResumeAt_def, no_brace, no_start, Bool.and_false, Bool.false_and,
    Bool.or_false]

theorem takes_eq (rereads : Rereads final first second)
    (becomes : token.Becomes other) (expected : Expected) :
    (expected.accepts token || !first.canResumeAt token) =
      (expected.accepts other || !second.canResumeAt other) := by
  have later := rereads.isLater_eq becomes
  cases becomes with
  | same => rw [canResumeAt_eq rfl rfl later]
  | @classified kind modifiers lexical identifier semantic =>
      have again : second.canResumeAt (token.reclassify kind modifiers) = false :=
        canResumeAt_eq_false second identifier
      rw [canResumeAt_eq_false first identifier, again, Bool.not_false,
        Bool.or_true, Bool.or_true]

theorem next (rereads : Rereads final first second) :
    ComeAlike (fun _ => Rereads final) (Astray final) first second := by
  obtain ⟨current, currentOther, here, there, -⟩ := rereads.exists_current
  rcases rereads.eq_or_strays here there with rfl | strays
  · rcases none_or_some_of_rel
        (rereads.paired.next?_rel fun _ _ => Token.Becomes.isTrivia_eq) with
      ⟨left, right⟩ |
        ⟨⟨token, reached⟩, ⟨other, arrived⟩, left, right, becomes, paired⟩
    · exact .ended left right
    · refine .token left right becomes.text (rereads.takes_eq becomes)
        (rereads.isLater_eq becomes) ?_
      exact { rereads with
        paired := paired
        whole := (TokenCursor.toList_of_next? right).trans rereads.whole
        passed := TokenCursor.passed_eq_of_next? rereads.passed here there left
          right paired
        stands := ⟨token, (TokenCursor.current?_of_next? left).1⟩ }
  · exact .apart strays

theorem moveTo (rereads : Rereads final first second)
    {reached arrived : TokenCursor}
    (paired : TokenCursor.Paired Token.Becomes reached arrived)
    (whole : arrived.toList = second.cursor.toList)
    (stands : ∃ token, reached.current? = some token) :
    Onward (fun _ => Rereads final) (Astray final) (first.moveTo reached)
      (second.moveTo arrived) :=
  Told.onward { rereads with } paired (whole.trans rereads.whole) stands

theorem rescue (rereads : Rereads final first second)
    (candidates : List Terminal) :
    Onward (fun _ => Rereads final) (Astray final) (first.rescue candidates)
      (second.rescue candidates) := by
  have found : Option.Rel (TokenCursor.Paired Token.Becomes)
      (first.cursor.rescue? candidates) (second.cursor.rescue? candidates) :=
    rereads.paired.rescue?_rel (fun _ _ becomes => by rw [becomes.text])
      fun _ _ => Token.Becomes.line
  unfold Walk.rescue
  rcases none_or_some_of_rel found with
    ⟨left, right⟩ | ⟨reached, arrived, left, right, paired⟩
  · rw [left, right]
    exact .inl rereads
  · rw [left, right]
    obtain ⟨-, token, -, there, -⟩ := TokenCursor.behind_of_rescue? left
    exact rereads.moveTo paired (TokenCursor.toList_of_rescue? right)
      ⟨token, there⟩

theorem strings (rereads : Rereads final first second) :
    Onward (fun _ => Rereads final) (Astray final) first.strings
      second.strings := by
  rcases TokenCursor.paired_passStrings rereads.paired with paired | strays
  · refine rereads.moveTo paired (TokenCursor.toList_passStrings _) ?_
    rcases TokenCursor.behind_passStrings first.cursor with same |
      ⟨_, token, -, there, -⟩
    · rw [same]
      exact rereads.stands
    · exact ⟨token, there⟩
  · exact .inr (rereads.whole ▸ strays)

theorem find (rereads : Rereads final first second)
    (left : first.cursor.current? = some token)
    (right : second.cursor.current? = some other) (cause : Cause) :
    Onward (fun _ => Rereads final) (Astray final) (first.report cause token)
      (second.report cause other) := by
  rcases rereads.eq_or_strays left right with rfl | strays
  · exact .inl (rereads.report (.refl _))
  · exact .inr strays

theorem complain (rereads : Rereads final first second) (complaint : Complaint) :
    Onward (fun _ => Rereads final) (Astray final) (first.complain complaint)
      (second.complain complaint) := by
  obtain ⟨token, other, left, right, -⟩ := rereads.exists_current
  rw [Walk.complain, Walk.complain, left, right, rereads.symbols]
  cases complaint <;> exact rereads.find left right _

/-- The same is said of both current tokens. If that is not how the token ends,
the first walk strays. -/
theorem classify (rereads : Rereads final first second) (kind : TokenKind)
    (modifiers : Modifiers) :
    Onward (fun _ => Rereads final) (Astray final)
      (first.classify kind modifiers) (second.classify kind modifiers) := by
  obtain ⟨token, other, left, right, becomes⟩ := rereads.exists_current
  have same := becomes.reclassify_eq kind modifiers
  by_cases ends : other.reclassify kind modifiers = other
  · have paired := rereads.paired.reclassify kind modifiers
      fun _ _ _ _ becomes => by rw [becomes.reclassify_eq kind modifiers]; exact .same
    have whole : (second.cursor.reclassify kind modifiers).toList = final := by
      rw [TokenCursor.reclassify_eq_self right ends]
      exact rereads.whole
    refine Told.onward ⟨rereads.scopes, rereads.symbols, ?_, rereads.findings,
      rereads.resets⟩ paired whole ⟨token.reclassify kind modifiers, ?_⟩
    · simp only [Walk.classify, TokenCursor.current?_reclassify, left, right,
        Option.map_some, same, rereads.classified]
    · rw [Walk.classify, TokenCursor.current?_reclassify, left, Option.map_some]
  · refine .inr fun shows => ends ?_
    change (first.cursor.reclassify kind modifiers).visited false <+: _ at shows
    rw [TokenCursor.visited_false_reclassify kind modifiers left,
      ← rereads.whole, TokenCursor.toList, TokenCursor.ahead_of_current? right,
      TokenCursor.visited, if_pos rfl, rereads.passed,
      List.prefix_append_right_inj] at shows
    exact same.symm.trans (List.cons_prefix_cons.mp shows).1

theorem resolve (rereads : Rereads final first second) :
    Onward (fun _ => Rereads final) (Astray final) first.resolve
      second.resolve := by
  obtain ⟨token, other, left, right, becomes⟩ := rereads.exists_current
  rw [Walk.resolve, Walk.resolve, left, right, rereads.symbols]
  simp only [becomes.text]
  split
  · split
    · exact rereads.classify _ _
    · exact rereads.find left right _
  · exact rereads.find left right _

theorem register (rereads : Rereads final first second) (symbol : Symbol) :
    Rereads final { first with symbols := (first.symbols.declare symbol).2 }
      { second with symbols := (second.symbols.declare symbol).2 } :=
  { rereads with symbols := by rw [rereads.symbols] }

theorem reportDuplicate (rereads : Rereads final first second)
    (becomes : token.Becomes other) (registration : Registration)
    (kind : TokenKind) :
    Rereads final (first.reportDuplicate registration kind token)
      (second.reportDuplicate registration kind other) := by
  unfold Walk.reportDuplicate
  split
  · split
    · exact rereads
    · exact rereads.report ⟨rfl, becomes.site.symm, rfl⟩
  · exact rereads

theorem declare (rereads : Rereads final first second) (kind : TokenKind)
    (modifiers : Modifiers) :
    Onward (fun _ => Rereads final) (Astray final)
      (first.declare kind modifiers).2 (second.declare kind modifiers).2 := by
  obtain ⟨token, other, left, right, becomes⟩ := rereads.exists_current
  obtain ⟨line, column, text⟩ := Token.site_eq_iff.mp becomes.site
  rw [Walk.declare, Walk.declare, left, right]
  simp only [text, line, column]
  split
  · have registered := rereads.register ⟨Literal.nameOf token.text,
      first.scopes.path, kind, modifiers.withDeclaration, token.line,
      token.column⟩
    simp only [rereads.symbols, rereads.scopes] at registered ⊢
    exact (registered.reportDuplicate becomes _ kind).classify _ _
  · exact rereads.find left right _

theorem settle (rereads : Rereads final first second) :
    Rereads final first.settle second.settle := by
  unfold Walk.settle
  rw [rereads.scopes]
  split
  · exact rereads
  · exact { rereads with scopes := rfl, resets := by rw [rereads.resets] }

end Rereads

theorem lockstep_rereads (final : List Token) :
    Lockstep (fun _ => Rereads final) (Astray final) where
  left := steady_strays final
  right := steady_const _
  weaken := id
  current := by
    intro fresh first second rereads
    obtain ⟨token, other, left, right, becomes⟩ := rereads.exists_current
    refine ⟨token, other, left, right, becomes.text, fun _ => ?_⟩
    rcases rereads.eq_or_strays left right with rfl | strays
    · exact .inl rfl
    · exact becomes.eq_or_isSemantic.imp (congrArg Token.kind) fun semantic =>
        ⟨semantic, strays⟩
  next rereads := rereads.next
  ended rereads _ _ := by
    rw [rereads.place_eq]
    exact rereads.report_same _ _
  abandoned := by
    intro first second token reached other arrived expected rereads left right
      _ moved _
    obtain ⟨_, _, here, there, becomes⟩ := moved.exists_current
    cases (current?_moveTo_of_next? left).symm.trans here
    cases (current?_moveTo_of_next? right).symm.trans there
    rw [rereads.isLater_eq becomes, rereads.place_eq, becomes.text]
    split
    · exact rereads.report_same _ _
    · exact rereads.report ⟨rfl, becomes.site.symm, rfl⟩
  mismatch := by
    intro first second token other candidates rereads here there
    obtain ⟨_, _, left, right, becomes⟩ := rereads.exists_current
    cases here.symm.trans left
    cases there.symm.trans right
    refine rereads.report ⟨rfl, becomes.site.symm, ?_⟩
    rw [Cause.suggestion, Cause.suggestion, becomes.text]
  rescue _ rereads := rereads.rescue _
  complain complaint rereads := rereads.complain complaint
  strings rereads := rereads.strings
  resolve rereads := rereads.resolve
  declare _ modifiers rereads := rereads.declare _ modifiers
  openScope name kind rereads :=
    { rereads with
      scopes := congrArg (ScopeStack.push · ⟨name, kind⟩) rereads.scopes }
  closeScope rereads :=
    { rereads with
      scopes := congrArg (fun scopes => scopes.pop.2) rereads.scopes }
  settle rereads := rereads.settle

theorem rereads_start {tokens final : List Token} (some_token : tokens ≠ [])
    (became : List.Forall₂ Token.Becomes tokens final) :
    Rereads final (start tokens) (start final) where
  scopes := rfl
  symbols := rfl
  classified := rfl
  findings := .nil
  resets := rfl
  paired := TokenCursor.paired_ofList became
  whole := TokenCursor.toList_ofList final
  passed := rfl
  stands := by
    cases tokens with
    | nil => exact absurd rfl some_token
    | cons token rest => exact ⟨token, rfl⟩

/-- A second walk over a document tells what the first one told, and leaves the
tokens as they are. -/
theorem document_reread {tokens : List Token}
    (lexical : Highlights.Lexical tokens) :
    let walk := (document (fun _ => false) tokens).2
    let again := (document (fun _ => false) walk.cursor.toList).2
    again.cursor.toList = walk.cursor.toList ∧ Told walk again := by
  intro walk again
  have became : List.Forall₂ Token.Becomes tokens walk.cursor.toList :=
    (highlights_document (fun _ => false) lexical).1
  by_cases some_token : tokens = []
  · subst some_token
    exact ⟨rfl, rfl, rfl, rfl, .nil, rfl⟩
  · have same_length := became.length_eq
    have some_again : walk.cursor.toList ≠ [] := by
      rw [← List.length_pos_iff, ← same_length, List.length_pos_iff]
      exact some_token
    have fits := Nat.le_of_eq same_length.symm
    have walk_eq : walk = (statements (fun _ => false) (allowance tokens.length)
        tokens.length (start tokens)).2 := by
      rw [← document_eq_statements some_token (Nat.le_refl _) (Nat.le_refl _)]
    have again_eq : again = (statements (fun _ => false)
        (allowance tokens.length) tokens.length (start walk.cursor.toList)).2 := by
      rw [← document_eq_statements some_again fits fits]
    have onward := (lockstep_rereads walk.cursor.toList).statements
      (allowance tokens.length) tokens.length (rereads_start some_token became)
    rw [← walk_eq, ← again_eq] at onward
    rcases onward with rereads | strays
    · exact ⟨rereads.whole, rereads.toTold⟩
    · exact absurd (TokenCursor.visited_prefix_toList false walk.cursor) strays

end Walk

end ComponentLang
