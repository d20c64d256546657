namespace ComponentLang.StableSort

/-- Puts an element before the first one that it may precede. -/
def insert (le : α → α → Bool) (element : α) : List α → List α
  | [] => [element]
  | head :: tail =>
      if le element head then element :: head :: tail
      else head :: insert le element tail

def sort (le : α → α → Bool) (elements : List α) : List α :=
  elements.foldr (insert le) []

@[simp] theorem sort_nil (le : α → α → Bool) : sort le [] = [] := rfl

@[simp] theorem sort_cons (le : α → α → Bool) (element : α) (rest : List α) :
    sort le (element :: rest) = insert le element (sort le rest) := rfl

theorem insert_perm (le : α → α → Bool) (element : α) (elements : List α) :
    (insert le element elements).Perm (element :: elements) := by
  induction elements with
  | nil => exact .refl _
  | cons head tail induction =>
      unfold insert
      split
      · exact .refl _
      · exact (induction.cons head).trans (.swap element head tail)

theorem sort_perm (le : α → α → Bool) (elements : List α) :
    (sort le elements).Perm elements := by
  induction elements with
  | nil => exact .refl _
  | cons element rest induction =>
      exact (insert_perm le element _).trans (induction.cons element)

@[simp] theorem mem_sort {le : α → α → Bool} {element : α}
    {elements : List α} : element ∈ sort le elements ↔ element ∈ elements :=
  (sort_perm le elements).mem_iff

@[simp] theorem length_sort (le : α → α → Bool) (elements : List α) :
    (sort le elements).length = elements.length :=
  (sort_perm le elements).length_eq

theorem pairwise_insert {le : α → α → Bool}
    (trans : ∀ a b c, le a b → le b c → le a c)
    (total : ∀ a b, le a b ∨ le b a) (element : α) {elements : List α}
    (sorted : elements.Pairwise fun a b => le a b) :
    (insert le element elements).Pairwise fun a b => le a b := by
  induction elements with
  | nil => simp [insert]
  | cons head tail induction =>
      obtain ⟨head_le, tail_sorted⟩ := List.pairwise_cons.mp sorted
      unfold insert
      split
      · next element_le =>
          refine List.pairwise_cons.mpr ⟨?_, sorted⟩
          intro other member
          rcases List.mem_cons.mp member with rfl | member
          · exact element_le
          · exact trans _ _ _ element_le (head_le other member)
      · next not_le =>
          refine List.pairwise_cons.mpr ⟨?_, induction tail_sorted⟩
          intro other member
          rcases List.mem_cons.mp ((insert_perm le element tail).mem_iff.mp member)
            with rfl | member
          · exact (total head other).resolve_right not_le
          · exact head_le other member

theorem pairwise_sort {le : α → α → Bool}
    (trans : ∀ a b c, le a b → le b c → le a c)
    (total : ∀ a b, le a b ∨ le b a) (elements : List α) :
    (sort le elements).Pairwise fun a b => le a b := by
  induction elements with
  | nil => exact .nil
  | cons element rest induction =>
      exact pairwise_insert trans total element induction

/-- Among elements that precede each other, the inserted one comes first. -/
theorem filter_insert {le : α → α → Bool} (among : α → Bool) (element : α)
    (elements : List α)
    (same : ∀ other ∈ elements, among element → among other → le element other) :
    (insert le element elements).filter among =
      (element :: elements).filter among := by
  induction elements with
  | nil => rfl
  | cons head tail induction =>
      unfold insert
      split
      · rfl
      · next not_le =>
          have tail_eq := induction fun other member =>
            same other (List.mem_cons_of_mem head member)
          by_cases here : among element
          · have apart : ¬among head := fun both =>
              not_le (same head List.mem_cons_self here both)
            simpa [apart, here] using tail_eq
          · simp only [List.filter_cons, here] at tail_eq ⊢
            simp [tail_eq]

/-- Elements that the order does not tell apart keep their order. -/
theorem filter_sort {le : α → α → Bool} (among : α → Bool)
    (same : ∀ a b, among a → among b → le a b) (elements : List α) :
    (sort le elements).filter among = elements.filter among := by
  induction elements with
  | nil => rfl
  | cons element rest induction =>
      rw [sort_cons, filter_insert among element _
        fun other _ => same element other]
      simp only [List.filter_cons, induction]

theorem sort_of_pairwise {le : α → α → Bool} {elements : List α}
    (sorted : elements.Pairwise fun a b => le a b) :
    sort le elements = elements := by
  induction elements with
  | nil => rfl
  | cons element rest induction =>
      obtain ⟨element_le, rest_sorted⟩ := List.pairwise_cons.mp sorted
      rw [sort_cons, induction rest_sorted]
      cases rest with
      | nil => rfl
      | cons head tail =>
          unfold insert
          rw [if_pos (element_le head List.mem_cons_self)]

end ComponentLang.StableSort
