import ComponentLang.Proofs.Token.Sites
import ComponentLang.Proofs.Walk.Invariants

namespace ComponentLang

/-- The anchor lies on one of the tokens, or marks the end of one. -/
def Token.AnchoredIn (tokens : List Token) (anchor : Token) : Prop :=
  (∃ token ∈ tokens, anchor.start = token.start ∧
    anchor.length = token.length) ∨
  ∃ token ∈ tokens, anchor.start = token.stop ∧ anchor.length = 0

namespace Walk

open TokenCursor

def here (walk : Walk) : Position :=
  (walk.cursor.current?.map Token.start).getD ⟨0, 0⟩

/-- Where it is found that something is missing behind the current token. -/
def gap (walk : Walk) : Position :=
  match walk.cursor.next? with
  | none => walk.place
  | some (token, _) =>
      if walk.isLater token then walk.place else token.start

/-- No finding lies behind this place. -/
def frontier (walk : Walk) : Bool → Position
  | true => walk.here
  | false => walk.gap

structure InOrder (tokens : List Token) (fresh : Bool) (walk : Walk) : Prop where
  follows : walk.cursor.Follows tokens
  anchored : ∀ finding ∈ walk.findings, finding.anchor.AnchoredIn tokens
  ordered : walk.findings.Pairwise fun later earlier =>
    earlier.anchor.start ≤ later.anchor.start
  bounded : ∀ finding ∈ walk.findings,
    finding.anchor.start ≤ walk.frontier fresh

theorem frontier_of_cursor {walk other : Walk}
    (same : other.cursor = walk.cursor) (fresh : Bool) :
    other.frontier fresh = walk.frontier fresh := by
  cases fresh with
  | true => rw [frontier, frontier, here, here, same]
  | false =>
      simp only [frontier, gap, isLater, place, TokenCursor.isLater,
        TokenCursor.place, same]
      rfl

theorem place_of_current? {walk : Walk} {token : Token}
    (there : walk.cursor.current? = some token) : walk.place = token.stop := by
  rw [place, TokenCursor.place, there]
  rfl

theorem here_of_current? {walk : Walk} {token : Token}
    (there : walk.cursor.current? = some token) :
    walk.here = token.start := by
  rw [here, there]
  rfl

theorem frontier_of_current? {walk : Walk} {token : Token}
    (there : walk.cursor.current? = some token) :
    walk.frontier true = token.start :=
  here_of_current? there

section Frontier

variable {tokens : List Token} {walk : Walk} {fresh : Bool}
  {current token : Token} {reached : TokenCursor}

theorem start_le_gap (follows : walk.cursor.Follows tokens)
    (ordered : tokens.Pairwise Token.Before)
    (there : walk.cursor.current? = some current) :
    current.start ≤ walk.gap := by
  unfold gap
  split
  · rw [place_of_current? there]
    exact current.start_le_stop
  · next token reached next_eq =>
      split
      · rw [place_of_current? there]
        exact current.start_le_stop
      · exact (follows.before_next ordered there next_eq).start_le

theorem gap_le_next (follows : walk.cursor.Follows tokens)
    (ordered : tokens.Pairwise Token.Before)
    (next_eq : walk.cursor.next? = some (token, reached)) :
    walk.gap ≤ token.start := by
  obtain ⟨current, there⟩ := follows.stands
  unfold gap
  rw [next_eq]
  simp only
  split
  · rw [place_of_current? there]
    exact (follows.before_next ordered there next_eq).stop_le
  · exact Position.le_refl _

theorem InOrder.of_same {other : Walk} (inOrder : InOrder tokens fresh walk)
    (cursor_eq : other.cursor = walk.cursor)
    (findings_eq : other.findings = walk.findings) :
    InOrder tokens fresh other := by
  refine ⟨cursor_eq ▸ inOrder.follows, ?_, ?_, ?_⟩
  · exact findings_eq ▸ inOrder.anchored
  · exact findings_eq ▸ inOrder.ordered
  · rw [findings_eq, frontier_of_cursor cursor_eq]
    exact inOrder.bounded

theorem InOrder.found {cause : Cause} {anchor : Token}
    (inOrder : InOrder tokens fresh walk) (here : anchor.AnchoredIn tokens)
    (start_eq : anchor.start = walk.frontier fresh) :
    InOrder tokens fresh (walk.report cause anchor) where
  follows := inOrder.follows
  anchored := List.forall_mem_cons.mpr ⟨here, inOrder.anchored⟩
  ordered := by
    refine List.pairwise_cons.mpr ⟨?_, inOrder.ordered⟩
    intro finding member
    rw [start_eq]
    exact inOrder.bounded finding member
  bounded := by
    have last : anchor.start ≤ walk.frontier fresh := by
      rw [start_eq]
      exact Position.le_refl _
    exact List.forall_mem_cons.mpr ⟨last, inOrder.bounded⟩

theorem InOrder.foundHere {cause : Cause} (inOrder : InOrder tokens true walk)
    (there : walk.cursor.current? = some token) :
    InOrder tokens true (walk.report cause token) := by
  obtain ⟨original, member, same⟩ := inOrder.follows.exists_current there
  refine inOrder.found (.inl ⟨original, member, ?_, ?_⟩)
    (frontier_of_current? there).symm
  · exact (Token.start_eq_of_site same).symm
  · exact (Token.length_eq_of_site same).symm

theorem InOrder.goOn (inOrder : InOrder tokens fresh walk)
    (follows : reached.Follows tokens)
    (further : walk.frontier fresh ≤ (walk.moveTo reached).frontier true) :
    InOrder tokens true (walk.moveTo reached) where
  follows := follows
  anchored := inOrder.anchored
  ordered := inOrder.ordered
  bounded finding member :=
    Position.le_trans (inOrder.bounded finding member) further

theorem InOrder.goBehind (inOrder : InOrder tokens true walk)
    (follows : reached.Follows tokens)
    (there : walk.cursor.current? = some current)
    (reached_eq : reached.current? = some token)
    (before : current.Before token) :
    InOrder tokens true (walk.moveTo reached) := by
  apply inOrder.goOn follows
  rw [frontier_of_current? there, frontier_of_current? reached_eq]
  exact before.start_le

theorem InOrder.weaken (ordered : tokens.Pairwise Token.Before)
    (inOrder : InOrder tokens true walk) : InOrder tokens false walk := by
  obtain ⟨current, there⟩ := inOrder.follows.stands
  refine ⟨inOrder.follows, inOrder.anchored, inOrder.ordered, ?_⟩
  intro finding member
  have bound := inOrder.bounded finding member
  rw [frontier_of_current? there] at bound
  exact Position.le_trans bound (start_le_gap inOrder.follows ordered there)

theorem InOrder.classify (inOrder : InOrder tokens true walk)
    (kind : TokenKind) (modifiers : Modifiers) :
    InOrder tokens true (walk.classify kind modifiers) := by
  refine ⟨inOrder.follows.reclassify kind modifiers, inOrder.anchored,
    inOrder.ordered, ?_⟩
  intro finding member
  obtain ⟨current, there⟩ := inOrder.follows.stands
  have same : (walk.classify kind modifiers).cursor.current? =
      some (current.reclassify kind modifiers) := by
    simp only [Walk.classify, current?_reclassify, there, Option.map_some]
  rw [frontier_of_current? same, Token.start_reclassify,
    ← frontier_of_current? there]
  exact inOrder.bounded finding member

theorem InOrder.resolve (inOrder : InOrder tokens true walk) :
    InOrder tokens true walk.resolve := by
  unfold Walk.resolve
  split
  · exact inOrder
  · next token there =>
      split
      · split
        · exact inOrder.classify _ _
        · exact inOrder.foundHere there
      · exact inOrder.foundHere there

theorem InOrder.reportDuplicate (inOrder : InOrder tokens true walk)
    (there : walk.cursor.current? = some token) (registration : Registration)
    (kind : TokenKind) :
    InOrder tokens true (walk.reportDuplicate registration kind token) := by
  unfold Walk.reportDuplicate
  split
  · split
    · exact inOrder
    · exact inOrder.foundHere there
  · exact inOrder

theorem InOrder.declare (inOrder : InOrder tokens true walk)
    (kind : TokenKind) (modifiers : Modifiers) :
    InOrder tokens true (walk.declare kind modifiers).2 := by
  unfold Walk.declare
  split
  · exact inOrder
  · next token there =>
      split
      · apply InOrder.classify
        refine InOrder.reportDuplicate ?_ ?_ _ _
        · exact inOrder.of_same rfl rfl
        · exact there
      · exact inOrder.foundHere there

end Frontier

theorem invariant_inOrder {tokens : List Token}
    (ordered : tokens.Pairwise Token.Before) :
    Invariant (InOrder tokens) where
  weaken := .weaken ordered
  scopes inOrder := inOrder.of_same rfl rfl
  next inOrder next_eq := by
    apply inOrder.goOn (inOrder.follows.next next_eq)
    rw [frontier_of_current? (current?_of_next? next_eq).1]
    exact gap_le_next inOrder.follows ordered next_eq
  ended inOrder none_left := by
    obtain ⟨current, there⟩ := inOrder.follows.stands
    obtain ⟨original, member, same⟩ := inOrder.follows.exists_current there
    apply inOrder.found
    · refine .inr ⟨original, member, ?_, rfl⟩
      rw [Token.start_marker, place_of_current? there,
        Token.stop_eq_of_site same]
    · simp only [Token.start_marker, frontier, gap, none_left]
  abandoned := by
    intro walk token reached expected inOrder next_eq
    obtain ⟨current, there⟩ := inOrder.follows.stands
    apply inOrder.found
    · split
      · obtain ⟨original, member, same⟩ := inOrder.follows.exists_current there
        refine .inr ⟨original, member, ?_, rfl⟩
        rw [Token.start_marker, place_of_current? there,
          Token.stop_eq_of_site same]
      · obtain ⟨original, member, same⟩ :=
          (inOrder.follows.next next_eq).exists_current
            (current?_of_next? next_eq).1
        exact .inl ⟨original, member, (Token.start_eq_of_site same).symm,
          (Token.length_eq_of_site same).symm⟩
    · simp only [frontier, gap, next_eq]
      split <;> rfl
  report inOrder there _ := inOrder.foundHere there
  rescue inOrder found := by
    obtain ⟨current, there⟩ := inOrder.follows.stands
    obtain ⟨later, reached_eq, before⟩ :=
      inOrder.follows.before_rescue ordered there found
    exact .weaken ordered (inOrder.goBehind (inOrder.follows.rescue found) there
      reached_eq before)
  strings := by
    intro walk inOrder
    obtain ⟨current, there⟩ := inOrder.follows.stands
    apply InOrder.weaken ordered
    rcases inOrder.follows.before_passStrings ordered there with
      same | ⟨later, reached_eq, before⟩
    · rwa [Walk.strings, same]
    · exact inOrder.goBehind inOrder.follows.passStrings there reached_eq before
  resolve inOrder := .weaken ordered inOrder.resolve
  declare _ inOrder := .weaken ordered (inOrder.declare _ _)

theorem inOrder_start {tokens : List Token} (some_token : ¬tokens.isEmpty) :
    InOrder tokens true (start tokens) where
  follows := .ofList some_token
  anchored _ member := absurd member List.not_mem_nil
  ordered := .nil
  bounded _ member := absurd member List.not_mem_nil

/-- The findings of a document, latest first, come in document order, each on
one of its tokens or at the end of one. -/
theorem findings_inOrder {tokens : List Token}
    (ordered : tokens.Pairwise Token.Before) (stop : Walk → Bool) :
    (∀ finding ∈ (document stop tokens).2.findings,
      finding.anchor.AnchoredIn tokens) ∧
    (document stop tokens).2.findings.Pairwise fun later earlier =>
      earlier.anchor.start ≤ later.anchor.start := by
  by_cases empty : tokens.isEmpty
  · rw [document, if_pos empty]
    exact ⟨fun _ member => absurd member List.not_mem_nil, .nil⟩
  · have whole := (invariant_inOrder ordered).document stop (inOrder_start empty)
    exact ⟨whole.anchored, whole.ordered⟩

end Walk

end ComponentLang
