import ComponentLang.Proofs.Token.Sites
import ComponentLang.Proofs.Walk.Invariants

namespace ComponentLang

/-- The anchor is one of the tokens, but for its kind, or marks the end of
one. -/
def Token.CitedFrom (tokens : List Token) (anchor : Token) : Prop :=
  ∃ token ∈ tokens, anchor.site = token.site ∨ anchor = .marker token.stop

namespace Walk

open TokenCursor

structure Cites (tokens : List Token) (walk : Walk) : Prop where
  follows : walk.cursor.Follows tokens
  cited : ∀ finding ∈ walk.findings, finding.anchor.CitedFrom tokens

namespace Cites

variable {tokens : List Token} {walk : Walk} {token : Token}
  {reached : TokenCursor}

theorem current (cites : Cites tokens walk)
    (there : walk.cursor.current? = some token) : token.CitedFrom tokens := by
  obtain ⟨original, member, same⟩ := cites.follows.exists_current there
  exact ⟨original, member, .inl same.symm⟩

theorem next (cites : Cites tokens walk)
    (next_eq : walk.cursor.next? = some (token, reached)) :
    token.CitedFrom tokens := by
  obtain ⟨original, member, same⟩ :=
    (cites.follows.next next_eq).exists_current (current?_of_next? next_eq).1
  exact ⟨original, member, .inl same.symm⟩

theorem place (cites : Cites tokens walk) :
    (Token.marker walk.place).CitedFrom tokens := by
  obtain ⟨current, there⟩ := cites.follows.stands
  obtain ⟨original, member, same⟩ := cites.follows.exists_current there
  refine ⟨original, member, .inr ?_⟩
  rw [Walk.place, TokenCursor.place, there, Option.map_some, Option.getD_some,
    Token.stop_eq_of_site same]

theorem report (cites : Cites tokens walk) {anchor : Token}
    (cited : anchor.CitedFrom tokens) (cause : Cause) :
    Cites tokens (walk.report cause anchor) :=
  ⟨cites.follows, List.forall_mem_cons.mpr ⟨cited, cites.cited⟩⟩

theorem classify (cites : Cites tokens walk) (kind : TokenKind)
    (modifiers : Modifiers) : Cites tokens (walk.classify kind modifiers) :=
  ⟨cites.follows.reclassify kind modifiers, cites.cited⟩

theorem resolve (cites : Cites tokens walk) : Cites tokens walk.resolve := by
  unfold Walk.resolve
  split
  · exact cites
  · next token there =>
      have cited := cites.current there
      split
      · split
        · exact cites.classify _ _
        · exact cites.report cited _
      · exact cites.report cited _

theorem reportDuplicate (cites : Cites tokens walk)
    (cited : token.CitedFrom tokens) (registration : Registration)
    (kind : TokenKind) :
    Cites tokens (walk.reportDuplicate registration kind token) := by
  unfold Walk.reportDuplicate
  split
  · split
    · exact cites
    · exact cites.report cited _
  · exact cites

theorem declare (cites : Cites tokens walk) (kind : TokenKind)
    (modifiers : Modifiers) :
    Cites tokens (walk.declare kind modifiers).2 := by
  unfold Walk.declare
  split
  · exact cites
  · next token there =>
      have cited := cites.current there
      split
      · apply classify
        refine reportDuplicate ?_ cited _ _
        exact ⟨cites.follows, cites.cited⟩
      · exact cites.report cited _

end Cites

theorem invariant_cites (tokens : List Token) :
    Invariant fun _ => Cites tokens where
  weaken := id
  scopes cites := ⟨cites.follows, cites.cited⟩
  next cites next_eq := ⟨cites.follows.next next_eq, cites.cited⟩
  ended cites _ := cites.report cites.place _
  abandoned cites next_eq := by
    apply cites.report
    split
    · exact cites.place
    · exact cites.next next_eq
  report cites there _ := cites.report (cites.current there) _
  rescue cites found := ⟨cites.follows.rescue found, cites.cited⟩
  strings cites := ⟨cites.follows.passStrings, cites.cited⟩
  resolve := Cites.resolve
  declare _ cites := cites.declare _ _

theorem citedFrom_of_mem_findings (stop : Walk → Bool) (tokens : List Token) :
    ∀ finding ∈ (document stop tokens).2.findings,
      finding.anchor.CitedFrom tokens := by
  by_cases empty : tokens.isEmpty
  · rw [document, if_pos empty]
    exact fun _ member => absurd member List.not_mem_nil
  · have begins : Cites tokens (start tokens) :=
      ⟨.ofList empty, fun _ member => absurd member List.not_mem_nil⟩
    exact ((invariant_cites tokens).document stop begins).cited

end Walk

end ComponentLang
