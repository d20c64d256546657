import ComponentLang.Diagnostic.Basic

namespace ComponentLang

namespace StableSort

variable {α β : Type} {le : α → α → Bool} {element : α} {elements : List α}

theorem map_insert (order : β → β → Bool) (image : α → β) (element : α)
    (elements : List α) :
    (insert (fun first second => order (image first) (image second)) element
      elements).map image =
      insert order (image element) (elements.map image) := by
  induction elements with
  | nil => rfl
  | cons head tail induction =>
      rw [List.map_cons, insert, insert]
      split
      · rfl
      · rw [List.map_cons, induction]

theorem map_sort (order : β → β → Bool) (image : α → β) (elements : List α) :
    (sort (fun first second => order (image first) (image second))
      elements).map image =
      sort order (elements.map image) := by
  induction elements with
  | nil => rfl
  | cons element rest induction =>
      rw [sort_cons, map_insert, induction]
      rfl

theorem filter_insert_of_pairwise
    (trans : ∀ a b c, le a b → le b c → le a c) (among : α → Bool)
    (sorted : elements.Pairwise fun first second => le first second)
    (member : among element) :
    (insert le element elements).filter among =
      insert le element (elements.filter among) := by
  induction elements with
  | nil => simp [insert, member]
  | cons head tail induction =>
      obtain ⟨least, tail_sorted⟩ := List.pairwise_cons.mp sorted
      rw [insert]
      split
      · next front =>
          -- The element comes before all of the list, so before what is left.
          have first : ∀ other ∈ (head :: tail).filter among,
              le element other := by
            intro other left
            rcases List.mem_cons.mp (List.mem_filter.mp left).1 with rfl | later
            · exact front
            · exact trans _ _ _ front (least other later)
          rw [List.filter_cons_of_pos member]
          cases kept : (head :: tail).filter among with
          | nil => rfl
          | cons next others =>
              rw [kept] at first
              rw [insert, if_pos (first next List.mem_cons_self)]
      · next behind =>
          rw [List.filter_cons, List.filter_cons, induction tail_sorted]
          split
          · rw [insert, if_neg behind]
          · rfl

theorem filter_insert_of_not {among : α → Bool} (other : among element = false) :
    (insert le element elements).filter among = elements.filter among := by
  induction elements with
  | nil => simp [insert, other]
  | cons head tail induction =>
      rw [insert]
      split
      · rw [List.filter_cons_of_neg (by simp [other])]
      · rw [List.filter_cons, List.filter_cons, induction]

/-- Leaving elements out and sorting the others may be done in either order. -/
theorem filter_sort_comm (trans : ∀ a b c, le a b → le b c → le a c)
    (total : ∀ a b, le a b ∨ le b a) (among : α → Bool) (elements : List α) :
    (sort le elements).filter among = sort le (elements.filter among) := by
  induction elements with
  | nil => rfl
  | cons element rest induction =>
      have sorted := pairwise_sort trans total rest
      rw [sort_cons, List.filter_cons]
      cases member : among element with
      | true =>
          rw [filter_insert_of_pairwise trans among sorted member, induction]
          rfl
      | false =>
          rw [filter_insert_of_not member, induction]
          rfl

theorem filter_sort_by (place : α → Position) (among : α → Bool)
    (elements : List α) :
    (sort (fun first second => (place first).le (place second))
      elements).filter among =
      sort (fun first second => (place first).le (place second))
        (elements.filter among) := by
  apply filter_sort_comm
  · intro first second third
    exact Position.le_trans
  · intro first second
    exact Bool.or_eq_true_iff.mp (Position.le_total (place first) (place second))

end StableSort

end ComponentLang
