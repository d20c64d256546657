import Mathlib.Order.Bounds.Basic
import ComponentLang.Text.EditDistance

namespace ComponentLang.Text

/-- One character is put in, taken out or replaced. -/
inductive Edit : List Char → List Char → Prop where
  | insert (front back : List Char) (char : Char) :
      Edit (front ++ back) (front ++ char :: back)
  | delete (front back : List Char) (char : Char) :
      Edit (front ++ char :: back) (front ++ back)
  | substitute (front back : List Char) (char other : Char) :
      Edit (front ++ char :: back) (front ++ other :: back)

/-- So many edits, one after the other, turn one run into another. -/
inductive Edits : Nat → List Char → List Char → Prop where
  | none (chars : List Char) : Edits 0 chars chars
  | more {count : Nat} {first second third : List Char}
      (edit : Edit first second) (rest : Edits count second third) :
      Edits (count + 1) first third

theorem Edit.cons {first second : List Char} (edit : Edit first second)
    (head : Char) : Edit (head :: first) (head :: second) := by
  cases edit with
  | insert front back char => exact .insert (head :: front) back char
  | delete front back char => exact .delete (head :: front) back char
  | substitute front back char other =>
      exact .substitute (head :: front) back char other

theorem Edit.reverse {first second : List Char} (edit : Edit first second) :
    Edit first.reverse second.reverse := by
  cases edit with
  | insert front back char =>
      simpa using Edit.insert back.reverse front.reverse char
  | delete front back char =>
      simpa using Edit.delete back.reverse front.reverse char
  | substitute front back char other =>
      simpa using Edit.substitute back.reverse front.reverse char other

theorem Edits.cons {count : Nat} {first second : List Char}
    (edits : Edits count first second) (head : Char) :
    Edits count (head :: first) (head :: second) := by
  induction edits with
  | none => exact .none _
  | more edit _ induction => exact .more (edit.cons head) induction

theorem Edits.reverse {count : Nat} {first second : List Char}
    (edits : Edits count first second) :
    Edits count first.reverse second.reverse := by
  induction edits with
  | none => exact .none _
  | more edit _ induction => exact .more edit.reverse induction

theorem Edits.min {count other : Nat} {source target : List Char}
    (edits : Edits count source target) (others : Edits other source target) :
    Edits (min count other) source target := by
  rcases Nat.le_total count other with shorter | shorter
  · rwa [Nat.min_eq_left shorter]
  · rwa [Nat.min_eq_right shorter]

/-! The recursion. -/

/-- The cost of the cheapest way from the first run to the second. -/
def distance : List Char → List Char → Nat
  | [], target => target.length
  | source, [] => source.length
  | char :: source, goal :: target =>
      min (min (distance (char :: source) target + 1)
          (distance source (goal :: target) + 1))
        (if char = goal then distance source target
          else distance source target + 1)
termination_by source target => source.length + target.length

section Distance

variable (source target : List Char) (char other goal : Char)

theorem distance_nil_left : distance [] target = target.length := by
  rw [distance]

theorem distance_nil_right : distance source [] = source.length := by
  cases source <;> simp [distance]

theorem distance_cons_cons :
    distance (char :: source) (goal :: target) =
      min (min (distance (char :: source) target + 1)
          (distance source (goal :: target) + 1))
        (if char = goal then distance source target
          else distance source target + 1) := by
  rw [distance]

theorem distance_self : distance source source = 0 := by
  induction source with
  | nil => rw [distance_nil_left, List.length_nil]
  | cons char source induction =>
      rw [distance_cons_cons, if_pos rfl, induction, Nat.min_zero]

/-! A character more or less, or another one, in front. -/

theorem distance_cons_le :
    distance (char :: source) target ≤ distance source target + 1 := by
  cases target with
  | nil => simp only [distance_nil_right, List.length_cons, Nat.le_refl]
  | cons goal target =>
      rw [distance_cons_cons]
      omega

theorem distance_le_cons_target :
    distance source (goal :: target) ≤ distance source target + 1 := by
  cases source with
  | nil => simp only [distance_nil_left, List.length_cons, Nat.le_refl]
  | cons char source =>
      rw [distance_cons_cons]
      omega

theorem distance_le_cons :
    distance source target ≤ distance (char :: source) target + 1 := by
  induction target with
  | nil =>
      simp only [distance_nil_right, List.length_cons]
      omega
  | cons goal target induction =>
      have longer := distance_le_cons_target source target goal
      rw [distance_cons_cons]
      split <;> omega

theorem distance_substitute :
    distance (char :: source) target ≤
      distance (other :: source) target + 1 := by
  induction target with
  | nil =>
      simp only [distance_nil_right, List.length_cons]
      omega
  | cons goal target induction =>
      rw [distance_cons_cons, distance_cons_cons]
      split <;> split <;> omega

theorem distance_cons_le_cons {first second : List Char}
    (near : ∀ target, distance first target ≤ distance second target + 1) :
    distance (char :: first) target ≤ distance (char :: second) target + 1 := by
  induction target with
  | nil =>
      have shorter := near []
      simp only [distance_nil_right, List.length_cons] at shorter ⊢
      omega
  | cons goal target induction =>
      have whole := near (goal :: target)
      have behind := near target
      rw [distance_cons_cons, distance_cons_cons]
      split <;> omega

end Distance

theorem distance_append_le {first second : List Char}
    (near : ∀ target, distance first target ≤ distance second target + 1)
    (front target : List Char) :
    distance (front ++ first) target ≤
      distance (front ++ second) target + 1 := by
  induction front generalizing target with
  | nil => exact near target
  | cons char front induction =>
      exact distance_cons_le_cons target char induction

theorem Edit.distance_le {first second : List Char} (edit : Edit first second)
    (target : List Char) :
    distance first target ≤ distance second target + 1 := by
  cases edit with
  | insert front back char =>
      exact distance_append_le (fun goal => distance_le_cons back goal char)
        front target
  | delete front back char =>
      exact distance_append_le (fun goal => distance_cons_le back goal char)
        front target
  | substitute front back char other =>
      exact distance_append_le
        (fun goal => distance_substitute back goal char other) front target

theorem Edits.distance_le {count : Nat} {source target : List Char}
    (edits : Edits count source target) : distance source target ≤ count := by
  induction edits with
  | none chars => rw [distance_self]
  | @more count first second third edit _ induction =>
      exact Nat.le_trans (edit.distance_le third) (Nat.succ_le_succ induction)

theorem edits_insert_all (target : List Char) :
    Edits target.length [] target := by
  induction target with
  | nil => exact .none []
  | cons goal target induction =>
      exact .more (.insert [] [] goal) (induction.cons goal)

theorem edits_delete_all (source : List Char) :
    Edits source.length source [] := by
  induction source with
  | nil => exact .none []
  | cons char source induction => exact .more (.delete [] source char) induction

theorem edits_distance (source target : List Char) :
    Edits (distance source target) source target := by
  fun_induction distance source target with
  | case1 target => exact edits_insert_all target
  | case2 source => exact edits_delete_all source
  | case3 char source goal target inserted deleted kept =>
      have by_insert : Edits (distance (char :: source) target + 1)
          (char :: source) (goal :: target) :=
        .more (.insert [] (char :: source) goal) (inserted.cons goal)
      have by_delete : Edits (distance source (goal :: target) + 1)
          (char :: source) (goal :: target) :=
        .more (.delete [] source char) deleted
      have by_keep : Edits
          (if char = goal then distance source target
            else distance source target + 1)
          (char :: source) (goal :: target) := by
        split
        · next same => exact same ▸ kept.cons char
        · exact .more (.substitute [] source char goal) (kept.cons goal)
      exact (by_insert.min by_delete).min by_keep

/-! The rows. -/

/-- The distances from a run to what stands behind the part `passed` of the
target, both read backwards. -/
def rowBehind (front passed : List Char) : List Char → List Nat
  | [] => []
  | goal :: target =>
      distance front (goal :: passed) :: rowBehind front (goal :: passed) target

def row (front target : List Char) : List Nat :=
  distance front [] :: rowBehind front [] target

theorem firstRow_eq (target : List Char) : firstRow target = row [] target := by
  have behind : ∀ passed : List Char, rowBehind [] passed target =
      List.range' (passed.length + 1) target.length := by
    induction target with
    | nil => exact fun _ => rfl
    | cons goal target induction =>
        intro passed
        rw [rowBehind, induction, distance_nil_left, List.length_cons,
          List.length_cons, List.range'_succ]
  rw [firstRow, row, behind, distance_nil_left, List.range_eq_range',
    List.range'_succ]
  rfl

theorem nextEntries_eq (char : Char) (front passed target : List Char) :
    nextEntries char (distance (char :: front) passed) (distance front passed)
        target (rowBehind front passed target) =
      rowBehind (char :: front) passed target := by
  induction target generalizing passed with
  | nil => rfl
  | cons goal target induction =>
      rw [rowBehind, rowBehind, nextEntries, distance_cons_cons,
        ← distance_cons_cons, induction]

theorem nextRow_row (char : Char) (front target : List Char) :
    nextRow target (row front target) char = row (char :: front) target := by
  have longer : distance (char :: front) [] = distance front [] + 1 := by
    simp only [distance_nil_right, List.length_cons]
  rw [row, nextRow, ← longer, nextEntries_eq, row]

theorem foldl_nextRow (source front target : List Char) :
    source.foldl (nextRow target) (row front target) =
      row (source.reverse ++ front) target := by
  induction source generalizing front with
  | nil => rfl
  | cons char source induction =>
      rw [List.foldl_cons, nextRow_row, induction, List.reverse_cons,
        List.append_assoc]
      rfl

theorem getLastD_row (front target : List Char) :
    (row front target).getLastD 0 = distance front target.reverse := by
  have behind : ∀ passed : List Char,
      (distance front passed :: rowBehind front passed target).getLastD 0 =
        distance front (target.reverse ++ passed) := by
    induction target with
    | nil => exact fun _ => rfl
    | cons goal target induction =>
        intro passed
        rw [rowBehind, List.getLastD_cons, List.reverse_cons, List.append_assoc]
        exact induction (goal :: passed)
  rw [row, behind, List.append_nil]

theorem editDistance_eq (source target : List Char) :
    editDistance source target = distance source.reverse target.reverse := by
  rw [editDistance, firstRow_eq, foldl_nextRow, getLastD_row, List.append_nil]

/-- What the rows compute is the least number of edits. -/
theorem isLeast_editDistance (source target : List Char) :
    IsLeast {count | Edits count source target}
      (editDistance source target) := by
  rw [editDistance_eq]
  constructor
  · simpa using (edits_distance source.reverse target.reverse).reverse
  · intro count edits
    exact edits.reverse.distance_le

end ComponentLang.Text
