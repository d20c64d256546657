import ComponentLang.Scan.Piece

namespace ComponentLang

namespace Literal

theorem isNameChar_of_isDigit {char : Char} (digit : char.isDigit) :
    isNameChar char := by
  simp [isNameChar, Char.isAlphanum, digit]

theorem isNameChar_of_isHexDigit {char : Char} (digit : isHexDigit char) :
    isNameChar char := by
  simp only [isHexDigit, Bool.or_eq_true, Bool.and_eq_true,
    decide_eq_true_eq] at digit
  rcases digit with (decimal | ⟨first, last⟩) | ⟨first, last⟩
  · exact isNameChar_of_isDigit decimal
  · have lower : char.isLower := Bool.and_eq_true_iff.mpr
      ⟨decide_eq_true first,
        decide_eq_true (UInt32.le_trans last (by decide : 'f'.val ≤ 'z'.val))⟩
    have letter : char.isAlpha := Bool.or_eq_true_iff.mpr (.inr lower)
    simp [isNameChar, Char.isAlphanum, letter]
  · have upper : char.isUpper := decide_eq_true
      ⟨first, UInt32.le_trans last (by decide : 'F'.val ≤ 'Z'.val)⟩
    have letter : char.isAlpha := Bool.or_eq_true_iff.mpr (.inl upper)
    simp [isNameChar, Char.isAlphanum, letter]

/-- Decimal digits, with a point among them or without one. -/
inductive Decimal : List Char → Prop where
  | whole (nonempty : digits ≠ []) (decimal : ∀ char ∈ digits, char.isDigit) :
      Decimal digits
  | pointed (nonempty : whole ≠ [] ∨ fraction ≠ [])
      (front : ∀ char ∈ whole, char.isDigit)
      (back : ∀ char ∈ fraction, char.isDigit) :
      Decimal (whole ++ '.' :: fraction)

theorem span_of_isDigit {digits : List Char}
    (decimal : ∀ char ∈ digits, char.isDigit) (rest : List Char) :
    (digits ++ rest).takeWhile (· != '.') =
        digits ++ rest.takeWhile (· != '.') ∧
      (digits ++ rest).dropWhile (· != '.') = rest.dropWhile (· != '.') := by
  have no_point : ∀ char ∈ digits, (char != '.') = true := by
    intro char member
    rw [bne_iff_ne]
    rintro rfl
    exact absurd (decimal '.' member) (by decide)
  exact ⟨List.takeWhile_append_of_pos no_point,
    List.dropWhile_append_of_pos no_point⟩

theorem isDecimal_iff {chars : List Char} : isDecimal chars ↔ Decimal chars := by
  constructor
  · intro decimal
    have parts := List.takeWhile_append_dropWhile (p := (· != '.')) (l := chars)
    have stops := List.head?_dropWhile_not (· != '.') chars
    unfold isDecimal at decimal
    simp only at decimal
    split at decimal
    · next none_left =>
        rw [none_left, List.append_nil] at parts
        rw [parts, Bool.and_eq_true, List.all_eq_true, Bool.not_eq_true',
          List.isEmpty_eq_false_iff] at decimal
        exact .whole decimal.1 decimal.2
    · next point fraction left_eq =>
        rw [left_eq] at parts stops
        obtain rfl : point = '.' := by simpa using stops
        simp only [Bool.and_eq_true, Bool.not_eq_true', Bool.and_eq_false_iff,
          List.isEmpty_eq_false_iff, List.all_eq_true] at decimal
        rw [← parts]
        exact .pointed decimal.1.1 decimal.1.2 decimal.2
  · rintro (⟨nonempty, decimal⟩ | ⟨nonempty, front, back⟩)
    · obtain ⟨taken, dropped⟩ := span_of_isDigit decimal []
      simp only [List.append_nil, List.takeWhile_nil, List.dropWhile_nil]
        at taken dropped
      simp only [isDecimal, taken, dropped, Bool.and_eq_true,
        Bool.not_eq_true', List.isEmpty_eq_false_iff, List.all_eq_true]
      exact ⟨nonempty, decimal⟩
    · next whole fraction =>
        obtain ⟨taken, dropped⟩ := span_of_isDigit front ('.' :: fraction)
        rw [List.takeWhile_cons_of_neg (by decide), List.append_nil] at taken
        rw [List.dropWhile_cons_of_neg (by decide)] at dropped
        simp only [isDecimal, taken, dropped, Bool.and_eq_true,
          Bool.not_eq_true', Bool.and_eq_false_iff, List.isEmpty_eq_false_iff,
          List.all_eq_true]
        exact ⟨⟨nonempty, front⟩, back⟩

inductive Unsigned : List Char → Prop where
  | hexadecimal (marked : mark = 'x' ∨ mark = 'X') (nonempty : digits ≠ [])
      (hexadecimal : ∀ char ∈ digits, isHexDigit char) :
      Unsigned ('0' :: mark :: digits)
  | decimal (decimal : Decimal chars) : Unsigned chars

theorem Decimal.isDigit_or_point {chars : List Char} (decimal : Decimal chars) :
    ∀ char ∈ chars, char.isDigit ∨ char = '.' := by
  intro char member
  cases decimal with
  | whole _ decimal => exact .inl (decimal char member)
  | pointed _ front back =>
      rcases List.mem_append.mp member with before | behind
      · exact .inl (front char before)
      · rcases List.mem_cons.mp behind with point | after
        · exact .inr point
        · exact .inl (back char after)

theorem Unsigned.isNameChar_or_point {chars : List Char}
    (number : Unsigned chars) :
    ∀ char ∈ chars, isNameChar char ∨ char = '.' := by
  intro char member
  cases number with
  | hexadecimal marked _ hexadecimal =>
      refine .inl ?_
      rcases List.mem_cons.mp member with rfl | behind
      · rfl
      · rcases List.mem_cons.mp behind with rfl | digit
        · rcases marked with rfl | rfl <;> rfl
        · exact isNameChar_of_isHexDigit (hexadecimal char digit)
  | decimal decimal =>
      exact (decimal.isDigit_or_point char member).imp_left isNameChar_of_isDigit

theorem Unsigned.ne_nil {chars : List Char} (number : Unsigned chars) :
    chars ≠ [] := by
  cases number with
  | hexadecimal => exact List.cons_ne_nil _ _
  | decimal decimal =>
      cases decimal with
      | whole nonempty => exact nonempty
      | pointed => exact List.append_ne_nil_of_right_ne_nil _ (List.cons_ne_nil _ _)

theorem isUnsigned_iff {chars : List Char} :
    isUnsigned chars ↔ Unsigned chars := by
  have marks (digits : List Char) : (!digits.isEmpty && digits.all isHexDigit) ↔
      digits ≠ [] ∧ ∀ char ∈ digits, isHexDigit char := by
    rw [Bool.and_eq_true, Bool.not_eq_true', List.isEmpty_eq_false_iff,
      List.all_eq_true]
  constructor
  · intro number
    unfold isUnsigned at number
    split at number
    · next digits =>
        obtain ⟨nonempty, hexadecimal⟩ := (marks digits).mp number
        exact .hexadecimal (.inl rfl) nonempty hexadecimal
    · next digits =>
        obtain ⟨nonempty, hexadecimal⟩ := (marks digits).mp number
        exact .hexadecimal (.inr rfl) nonempty hexadecimal
    · exact .decimal (isDecimal_iff.mp number)
  · rintro (⟨marked, nonempty, hexadecimal⟩ | ⟨decimal⟩)
    · next mark digits =>
        have digits_eq := (marks digits).mpr ⟨nonempty, hexadecimal⟩
        rcases marked with rfl | rfl <;> exact digits_eq
    · have unmarked (mark : Char) (other : ¬(mark.isDigit ∨ mark = '.')) :
          mark ∉ chars :=
        fun member => other (decimal.isDigit_or_point mark member)
      unfold isUnsigned
      split
      · exact absurd (by simp) (unmarked 'x' (by decide))
      · exact absurd (by simp) (unmarked 'X' (by decide))
      · exact isDecimal_iff.mpr decimal

theorem isNumber_iff_of_head? {text : String}
    (unsigned : text.toList.head? ≠ some '-') :
    isNumber text ↔ Unsigned text.toList := by
  rw [← isUnsigned_iff, isNumber]
  split
  · next chars text_eq => exact absurd (congrArg List.head? text_eq) unsigned
  · rfl

theorem Unsigned.of_point {digits : List Char}
    (number : Unsigned (digits ++ ['.'])) :
    digits ≠ [] ∧ ∀ char ∈ digits, char.isDigit := by
  generalize chars_eq : digits ++ ['.'] = chars at number
  have last : chars.getLast? = some '.' := by
    rw [← chars_eq, List.getLast?_concat]
  have member := List.mem_of_getLast? last
  cases number with
  | hexadecimal marked _ hexadecimal =>
      rcases List.mem_cons.mp member with zero | behind
      · nomatch zero
      · rcases List.mem_cons.mp behind with rfl | digit
        · rcases marked with marked | marked <;> nomatch marked
        · exact absurd (hexadecimal '.' digit) (by decide)
  | decimal decimal =>
      cases decimal with
      | whole _ decimal => exact absurd (decimal '.' member) (by decide)
      | @pointed whole fraction nonempty front back =>
          rcases List.eq_nil_or_concat fraction with rfl | ⟨init, digit, rfl⟩
          · obtain rfl := List.append_cancel_right chars_eq
            exact ⟨nonempty.resolve_right fun other => other rfl, front⟩
          · rw [List.concat_eq_append, ← List.cons_append, ← List.append_assoc,
              List.getLast?_concat] at last
            obtain rfl := Option.some.inj last
            exact absurd (back '.' (by simp)) (by decide)

end Literal

open Literal

theorem Scan.lexicalKind_of_isNumber {text : String} (number : isNumber text) :
    lexicalKind text = .number := by
  have no_type : BuiltinType.ofSpelling? text = none := by
    cases found : BuiltinType.ofSpelling? text with
    | none => rfl
    | some type =>
        obtain rfl := BuiltinType.ofSpelling?_eq_some_iff.mp found
        cases type <;> nomatch number
  have no_word : Keyword.ofSpelling? text = none := by
    cases found : Keyword.ofSpelling? text with
    | none => rfl
    | some word =>
        obtain rfl := Keyword.ofSpelling?_eq_some_iff.mp found
        cases word <;> nomatch number
  have no_sign : Operator.ofSpelling? text = none := by
    cases found : Operator.ofSpelling? text with
    | none => rfl
    | some sign =>
        obtain rfl := Operator.ofSpelling?_eq_some_iff.mp found
        cases sign <;> nomatch number
  simp [lexicalKind, no_type, no_word, no_sign, number]

end ComponentLang
