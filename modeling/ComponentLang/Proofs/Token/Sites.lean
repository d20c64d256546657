import ComponentLang.Proofs.Token.Passing

namespace ComponentLang

theorem Position.le_def {first second : Position} :
    first ≤ second ↔
      first.line < second.line ∨
        first.line = second.line ∧ first.column ≤ second.column :=
  Position.le_iff

instance : LT Position :=
  ⟨fun first second => first.line < second.line ∨
    first.line = second.line ∧ first.column < second.column⟩

instance (first second : Position) : Decidable (first < second) :=
  inferInstanceAs (Decidable (_ ∨ _))

theorem Position.lt_def {first second : Position} :
    first < second ↔
      first.line < second.line ∨
        first.line = second.line ∧ first.column < second.column :=
  Iff.rfl

section Order

variable {first second third : Position}

theorem Position.le_refl (place : Position) : place ≤ place :=
  le_def.mpr (.inr ⟨rfl, Nat.le_refl _⟩)

theorem Position.not_lt : ¬first < second ↔ second ≤ first := by
  rw [lt_def, le_def]
  omega

theorem Position.lt_of_le_of_lt (front : first ≤ second)
    (back : second < third) : first < third := by
  rw [le_def] at front
  rw [lt_def] at *
  omega

theorem Position.le_of_lt (before : first < second) : first ≤ second := by
  rw [lt_def] at before
  rw [le_def]
  omega

end Order

namespace Token

def site (token : Token) : Nat × Nat × String :=
  (token.line, token.column, token.text)

/-- One token ends at or before the start of another. -/
def Before (first second : Token) : Prop :=
  first.line < second.line ∨
    first.line = second.line ∧ first.column < second.column ∧
      first.column + first.length ≤ second.column

@[simp] theorem site_reclassify (token : Token) (kind : TokenKind)
    (modifiers : Modifiers) :
    (token.reclassify kind modifiers).site = token.site := rfl

section Sites

variable {first second other : Token}

theorem site_eq_iff :
    first.site = second.site ↔
      first.line = second.line ∧ first.column = second.column ∧
        first.text = second.text := by
  simp only [site, Prod.mk.injEq]

theorem start_eq_of_site (same : first.site = second.site) :
    first.start = second.start := by
  obtain ⟨line, column, -⟩ := site_eq_iff.mp same
  rw [start, start, line, column]

theorem length_eq_of_site (same : first.site = second.site) :
    first.length = second.length := by
  rw [length, length, (site_eq_iff.mp same).2.2]

theorem stop_eq_of_site (same : first.site = second.site) :
    first.stop = second.stop := by
  obtain ⟨line, column, -⟩ := site_eq_iff.mp same
  rw [stop, stop, line, column, length_eq_of_site same]

theorem Before.start_lt (before : first.Before second) :
    first.start < second.start := by
  rw [Position.lt_def]
  unfold Before at before
  simp only [start]
  omega

theorem Before.start_le (before : first.Before second) :
    first.start ≤ second.start :=
  Position.le_of_lt before.start_lt

theorem Before.stop_le (before : first.Before second) :
    first.stop ≤ second.start := by
  rw [Position.le_def]
  unfold Before at before
  simp only [start, stop]
  omega

theorem start_le_stop (token : Token) : token.start ≤ token.stop :=
  Position.le_def.mpr (.inr ⟨rfl, Nat.le_add_right _ _⟩)

end Sites

theorem pairwise_before_of_sites {tokens others : List Token}
    (same : tokens.map site = others.map site)
    (ordered : others.Pairwise Before) : tokens.Pairwise Before := by
  have apart {list : List Token} :
      list.Pairwise Before ↔ (list.map site).Pairwise fun first second =>
        first.1 < second.1 ∨
          first.1 = second.1 ∧ first.2.1 < second.2.1 ∧
            first.2.1 + Text.units first.2.2.toList ≤ second.2.1 := by
    rw [List.pairwise_map]
    rfl
  rw [apart, same]
  exact apart.mp ordered

end Token

namespace TokenCursor

/-- The cursor stands on one of its tokens, and they are, classified or not,
the given ones. -/
structure Follows (tokens : List Token) (cursor : TokenCursor) : Prop where
  sites : cursor.toList.map Token.site = tokens.map Token.site
  stands : ∃ token, cursor.current? = some token

theorem toList_of_current? {cursor : TokenCursor} {token : Token}
    (there : cursor.current? = some token) :
    cursor.toList = cursor.passed.reverse ++ token :: cursor.behind := by
  obtain ⟨passed, _ | ⟨current, rest⟩⟩ := cursor
  · nomatch there
  · cases there
    rfl

namespace Follows

variable {tokens : List Token} {cursor reached : TokenCursor} {token : Token}

theorem ofList (some_token : ¬tokens.isEmpty) :
    Follows tokens (ofList tokens) := by
  cases tokens with
  | nil => exact absurd rfl some_token
  | cons first rest => exact ⟨by rw [toList_ofList], first, rfl⟩

theorem move (follows : Follows tokens cursor)
    (same : reached.toList = cursor.toList)
    (there : reached.current? = some token) : Follows tokens reached :=
  ⟨same ▸ follows.sites, token, there⟩

theorem next (follows : Follows tokens cursor)
    (found : cursor.next? = some (token, reached)) : Follows tokens reached :=
  follows.move (toList_of_next? found) (current?_of_next? found).1

theorem rescue {candidates : List Terminal} (follows : Follows tokens cursor)
    (found : cursor.rescue? candidates = some reached) :
    Follows tokens reached := by
  obtain ⟨skipped, token, -, there, -⟩ := behind_of_rescue? found
  exact follows.move (toList_of_rescue? found) there

theorem passStrings (follows : Follows tokens cursor) :
    Follows tokens cursor.passStrings := by
  rcases behind_passStrings cursor with same | ⟨_, token, -, there, -⟩
  · rwa [same]
  · exact follows.move (toList_passStrings cursor) there

theorem reclassify (follows : Follows tokens cursor) (kind : TokenKind)
    (modifiers : Modifiers) :
    Follows tokens (cursor.reclassify kind modifiers) := by
  obtain ⟨sites, token, there⟩ := follows
  constructor
  · rw [← sites]
    obtain ⟨passed, _ | ⟨current, rest⟩⟩ := cursor
    · rfl
    · simp [TokenCursor.reclassify, toList]
  · exact ⟨_, by rw [current?_reclassify, there, Option.map_some]⟩

theorem exists_site (follows : Follows tokens cursor)
    (member : token ∈ cursor.toList) :
    ∃ original ∈ tokens, original.site = token.site := by
  have listed := List.mem_map_of_mem (f := Token.site) member
  rw [follows.sites] at listed
  exact List.mem_map.mp listed

theorem exists_current (follows : Follows tokens cursor)
    (there : cursor.current? = some token) :
    ∃ original ∈ tokens, original.site = token.site := by
  apply follows.exists_site
  rw [toList_of_current? there]
  exact List.mem_append_right _ List.mem_cons_self

theorem before (follows : Follows tokens cursor)
    (ordered : tokens.Pairwise Token.Before)
    (there : cursor.current? = some token) {later : Token}
    (member : later ∈ cursor.behind) : token.Before later := by
  have apart := Token.pairwise_before_of_sites follows.sites ordered
  rw [toList_of_current? there, List.pairwise_append] at apart
  exact (List.pairwise_cons.mp apart.2.1).1 later member

theorem before_next (follows : Follows tokens cursor)
    (ordered : tokens.Pairwise Token.Before)
    (there : cursor.current? = some token) {later : Token}
    (found : cursor.next? = some (later, reached)) : token.Before later := by
  obtain ⟨skipped, behind_eq, -⟩ := behind_of_next? found
  apply follows.before ordered there
  rw [behind_eq]
  exact List.mem_append_right _ List.mem_cons_self

theorem before_rescue {candidates : List Terminal}
    (follows : Follows tokens cursor) (ordered : tokens.Pairwise Token.Before)
    (there : cursor.current? = some token)
    (found : cursor.rescue? candidates = some reached) :
    ∃ later, reached.current? = some later ∧ token.Before later := by
  obtain ⟨skipped, later, behind_eq, current_eq, -⟩ := behind_of_rescue? found
  refine ⟨later, current_eq, follows.before ordered there ?_⟩
  rw [behind_eq]
  exact List.mem_append_right _ List.mem_cons_self

theorem before_passStrings (follows : Follows tokens cursor)
    (ordered : tokens.Pairwise Token.Before)
    (there : cursor.current? = some token) :
    cursor.passStrings = cursor ∨
      ∃ later, cursor.passStrings.current? = some later ∧
        token.Before later := by
  rcases behind_passStrings cursor with same |
    ⟨skipped, later, behind_eq, current_eq, -⟩
  · exact .inl same
  · refine .inr ⟨later, current_eq, follows.before ordered there ?_⟩
    rw [behind_eq]
    exact List.mem_append_right _ List.mem_cons_self

end Follows

end TokenCursor

end ComponentLang
