namespace ComponentLang.Text

def unitWidth (char : Char) : Nat :=
  if char.toNat < 0x10000 then 1 else 2

theorem unitWidth_pos (char : Char) : 0 < unitWidth char := by
  unfold unitWidth
  split <;> decide

def units : List Char → Nat
  | [] => 0
  | char :: rest => unitWidth char + units rest

@[simp] theorem units_nil : units [] = 0 := rfl

@[simp] theorem units_cons (char : Char) (chars : List Char) :
    units (char :: chars) = unitWidth char + units chars := rfl

@[simp] theorem units_append (left right : List Char) :
    units (left ++ right) = units left + units right := by
  induction left with
  | nil => simp
  | cons char left induction => simp [induction, Nat.add_assoc]

/-- How many characters cover the first `width` code units of a line. A
character that starts inside the range counts even when it ends behind it. -/
def charsWithin : (width : Nat) → List Char → Nat
  | 0, _ => 0
  | _ + 1, [] => 0
  | width + 1, char :: rest =>
      charsWithin (width + 1 - unitWidth char) rest + 1

@[simp] theorem charsWithin_zero (line : List Char) :
    charsWithin 0 line = 0 := by
  cases line <;> rfl

@[simp] theorem charsWithin_nil (width : Nat) : charsWithin width [] = 0 := by
  cases width <;> rfl

theorem charsWithin_units_append (front rest : List Char) :
    charsWithin (units front) (front ++ rest) = front.length := by
  induction front with
  | nil => simp
  | cons char front induction =>
      obtain ⟨width, width_eq⟩ : ∃ width, units (char :: front) = width + 1 :=
        Nat.exists_eq_add_one_of_ne_zero (by
          have := unitWidth_pos char
          simp only [units_cons]
          omega)
      have rest_eq : width + 1 - unitWidth char = units front := by
        have := units_cons char front
        omega
      rw [width_eq, List.cons_append, charsWithin, rest_eq, induction,
        List.length_cons]

end ComponentLang.Text
