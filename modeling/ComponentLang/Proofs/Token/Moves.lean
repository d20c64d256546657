import ComponentLang.Proofs.Token.Passing

namespace ComponentLang.TokenCursor

/-- Moves, and looks ahead, lead from the cursor to the other one. -/
inductive Reaches (cursor : TokenCursor) : TokenCursor → Prop where
  | here : Reaches cursor cursor
  | next {place after : TokenCursor} {token : Token} :
      Reaches cursor place → place.next? = some (token, after) →
        Reaches cursor after
  | rescue {place after : TokenCursor} {candidates : List Terminal} :
      Reaches cursor place → place.rescue? candidates = some after →
        Reaches cursor after
  | strings {place : TokenCursor} :
      Reaches cursor place → Reaches cursor place.passStrings
  | reclassify {place : TokenCursor} {kind : TokenKind}
      {modifiers : Modifiers} :
      Reaches cursor place → Reaches cursor (place.reclassify kind modifiers)

theorem Reaches.trans {first second third : TokenCursor}
    (front : first.Reaches second) (back : second.Reaches third) :
    first.Reaches third := by
  induction back with
  | here => exact front
  | next _ found induction => exact .next induction found
  | rescue _ found induction => exact .rescue induction found
  | strings _ induction => exact .strings induction
  | reclassify _ induction => exact .reclassify induction

theorem length_toList (cursor : TokenCursor) :
    cursor.toList.length = cursor.size := by
  simp [toList, size]

theorem getElem?_index (cursor : TokenCursor) :
    cursor.toList[cursor.index]? = cursor.current? := by
  simp [toList, index, current?, List.head?_eq_getElem?,
    List.getElem?_append_right]

theorem size_of_current? {cursor : TokenCursor} {token : Token}
    (there : cursor.current? = some token) :
    cursor.size = cursor.index + (cursor.behind.length + 1) := by
  rw [size, ahead_of_current? there]
  rfl

structure Forward (cursor after : TokenCursor) : Prop where
  size_eq : after.size = cursor.size
  index_le : cursor.index ≤ after.index
  behind : after.behind <:+ cursor.behind
  stands : cursor.current?.isSome → after.current?.isSome

namespace Forward

theorem refl (cursor : TokenCursor) : Forward cursor cursor :=
  ⟨rfl, Nat.le_refl _, List.suffix_rfl, id⟩

theorem trans {first second third : TokenCursor} (front : Forward first second)
    (back : Forward second third) : Forward first third where
  size_eq := back.size_eq.trans front.size_eq
  index_le := Nat.le_trans front.index_le back.index_le
  behind := back.behind.trans front.behind
  stands there := back.stands (front.stands there)

theorem of_behind {cursor after : TokenCursor} {skipped : List Token}
    {token : Token} (kept : after.toList = cursor.toList)
    (behind_eq : cursor.behind = skipped ++ token :: after.behind)
    (there : after.current? = some token) : Forward cursor after := by
  have size_eq : after.size = cursor.size := by
    rw [← length_toList, kept, length_toList]
  refine ⟨size_eq, ?_, ?_, fun _ => there ▸ rfl⟩
  · have arrived := size_of_current? there
    have behind_le : cursor.behind.length ≤ cursor.ahead.length := by
      simp [TokenCursor.behind]
    simp only [size, index, behind_eq, List.length_append,
      List.length_cons] at *
    omega
  · rw [behind_eq]
    exact (List.suffix_cons _ _).trans (List.suffix_append _ _)

variable {cursor after : TokenCursor}

theorem index_lt_of_remaining_lt (forward : Forward cursor after)
    (fewer : after.remaining < cursor.remaining) :
    cursor.index < after.index := by
  have size_eq := forward.size_eq
  simp only [size, remaining, index, List.length_tail] at *
  omega

theorem behind_eq_of_index_eq (forward : Forward cursor after)
    (still : after.index = cursor.index) : after.behind = cursor.behind := by
  apply forward.behind.eq_of_length
  have size_eq := forward.size_eq
  simp only [size, TokenCursor.behind, index, List.length_tail] at *
  omega

theorem length_upcoming_le (forward : Forward cursor after) :
    after.upcoming.length ≤ cursor.upcoming.length :=
  (forward.behind.sublist.filter _).length_le

end Forward

theorem forward_of_next? {cursor after : TokenCursor} {token : Token}
    (found : cursor.next? = some (token, after)) : Forward cursor after := by
  obtain ⟨skipped, behind_eq, -⟩ := behind_of_next? found
  exact .of_behind (toList_of_next? found) behind_eq
    (current?_of_next? found).1

theorem forward_of_rescue? {cursor after : TokenCursor}
    {candidates : List Terminal}
    (found : cursor.rescue? candidates = some after) :
    Forward cursor after := by
  obtain ⟨skipped, token, behind_eq, there, -⟩ := behind_of_rescue? found
  exact .of_behind (toList_of_rescue? found) behind_eq there

theorem forward_passStrings (cursor : TokenCursor) :
    Forward cursor cursor.passStrings := by
  rcases behind_passStrings cursor with same | ⟨_, _, behind_eq, there, -⟩
  · rw [same]
    exact .refl cursor
  · exact .of_behind (toList_passStrings cursor) behind_eq there

theorem forward_reclassify (cursor : TokenCursor) (kind : TokenKind)
    (modifiers : Modifiers) :
    Forward cursor (cursor.reclassify kind modifiers) := by
  obtain ⟨passed, _ | ⟨current, rest⟩⟩ := cursor
  · exact .refl _
  · exact ⟨rfl, Nat.le_refl _, List.suffix_rfl, id⟩

theorem Reaches.forward {cursor after : TokenCursor}
    (reaches : cursor.Reaches after) : Forward cursor after := by
  induction reaches with
  | here => exact .refl cursor
  | next _ found induction => exact induction.trans (forward_of_next? found)
  | rescue _ found induction =>
      exact induction.trans (forward_of_rescue? found)
  | strings _ induction => exact induction.trans (forward_passStrings _)
  | reclassify _ induction => exact induction.trans (forward_reclassify _ _ _)

theorem index_lt_of_next? {cursor after : TokenCursor} {token : Token}
    (found : cursor.next? = some (token, after)) :
    cursor.index < after.index :=
  (forward_of_next? found).index_lt_of_remaining_lt
    (remaining_lt_of_next? found)

theorem Reaches.index_lt {tokens : List Token} {cursor : TokenCursor}
    (reaches : (ofList tokens).Reaches cursor) (some_token : tokens ≠ []) :
    cursor.index < tokens.length := by
  obtain ⟨size_eq, -, -, stands⟩ := reaches.forward
  have some_current : (ofList tokens).current?.isSome := by
    simpa [ofList, current?, List.isSome_head?] using some_token
  obtain ⟨token, there⟩ := Option.isSome_iff_exists.mp (stands some_current)
  have placed := size_of_current? there
  have whole : (ofList tokens).size = tokens.length := by simp [size, ofList]
  omega

theorem Reaches.index_eq_zero {cursor : TokenCursor}
    (reaches : (ofList []).Reaches cursor) : cursor.index = 0 := by
  have size_eq := reaches.forward.size_eq
  simp only [size, ofList, index, List.length_nil] at *
  omega

/-! What comes next is told by the tokens behind the current one alone. -/

theorem peekIs_of_subset {first second : TokenCursor}
    {candidates terminals : List Terminal}
    (same : second.behind = first.behind) (among : terminals ⊆ candidates)
    (here : second.peekIs terminals) : first.peekIs candidates := by
  simp only [peekIs, peek?_eq_head?, upcoming, same, Option.any_eq_true,
    Terminal.find?, List.find?_isSome] at here ⊢
  obtain ⟨token, found, terminal, member, spelled⟩ := here
  exact ⟨token, found, terminal, among member, spelled⟩

end ComponentLang.TokenCursor
