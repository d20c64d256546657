import ComponentLang.Json.Lexeme
import ComponentLang.Json.Printer
import Mathlib.Data.List.TakeWhile
import Mathlib.Data.Nat.Digits.Defs

namespace ComponentLang.Json.Lexeme

theorem isNumberChar_of_isDigit {char : Char} (digit : char.isDigit) :
    isNumberChar char := by
  simp [isNumberChar, digit]

theorem all_isNumberChar_of_isDigitsThen {next : List Char → Bool}
    (behind : ∀ {chars}, next chars → ∀ char ∈ chars, isNumberChar char)
    {chars : List Char} (digits : isDigitsThen next chars) :
    ∀ char ∈ chars, isNumberChar char := by
  rw [isDigitsThen, Bool.and_eq_true] at digits
  intro char member
  rw [← List.takeWhile_append_dropWhile (p := Char.isDigit) (l := chars),
    List.mem_append] at member
  rcases member with among | after
  · exact isNumberChar_of_isDigit (List.mem_takeWhile_imp among)
  · exact behind digits.2 char after

theorem all_isNumberChar_of_isExponent {chars : List Char}
    (exponent : isExponent chars) : ∀ char ∈ chars, isNumberChar char := by
  have nothing {chars : List Char} (isEmpty : chars.isEmpty) :
      ∀ char ∈ chars, isNumberChar char := by
    simp [List.isEmpty_iff.mp isEmpty]
  cases chars with
  | nil => simp
  | cons letter rest =>
      obtain ⟨isLetter, digits⟩ := Bool.and_eq_true_iff.mp exponent
      have first : isNumberChar letter := by
        rw [isNumberChar, Bool.or_assoc, isLetter, Bool.or_true]
      refine List.forall_mem_cons.mpr ⟨first, ?_⟩
      split at digits
      · exact List.forall_mem_cons.mpr
          ⟨by decide, all_isNumberChar_of_isDigitsThen nothing digits⟩
      · exact List.forall_mem_cons.mpr
          ⟨by decide, all_isNumberChar_of_isDigitsThen nothing digits⟩
      · exact all_isNumberChar_of_isDigitsThen nothing digits

theorem all_isNumberChar_of_isFraction {chars : List Char}
    (fraction : isFraction chars) : ∀ char ∈ chars, isNumberChar char := by
  fun_cases isFraction chars with
  | case1 rest =>
      exact List.forall_mem_cons.mpr
        ⟨by decide, all_isNumberChar_of_isDigitsThen
          all_isNumberChar_of_isExponent fraction⟩
  | case2 rest noPoint =>
      exact all_isNumberChar_of_isExponent
        (by simpa [isFraction] using fraction)

theorem all_isNumberChar_of_isMagnitude {chars : List Char}
    (magnitude : isMagnitude chars) : ∀ char ∈ chars, isNumberChar char := by
  fun_cases isMagnitude chars with
  | case1 rest =>
      exact List.forall_mem_cons.mpr
        ⟨by decide, all_isNumberChar_of_isFraction magnitude⟩
  | case2 rest noZero =>
      exact all_isNumberChar_of_isDigitsThen all_isNumberChar_of_isFraction
        (by simpa [isMagnitude] using magnitude)

theorem all_isNumberChar_of_isNumberLiteral {chars : List Char}
    (literal : isNumberLiteral chars) : ∀ char ∈ chars, isNumberChar char := by
  fun_cases isNumberLiteral chars with
  | case1 rest =>
      exact List.forall_mem_cons.mpr
        ⟨by decide, all_isNumberChar_of_isMagnitude literal⟩
  | case2 rest noSign =>
      exact all_isNumberChar_of_isMagnitude
        (by simpa [isNumberLiteral] using literal)

theorem isNumberLiteral_ne_nil {chars : List Char}
    (literal : isNumberLiteral chars) : chars ≠ [] := by
  rintro rfl
  exact absurd literal (by decide)

/-- What can stand behind a number without being read as more of it. -/
def EndsNumber (chars : List Char) : Prop :=
  ∀ char ∈ chars.head?, isNumberChar char = false

theorem mark?_of_isNumberChar {char : Char} (number : isNumberChar char) :
    mark? char = none := by
  fun_cases mark? char <;> first | rfl | exact absurd number (by decide)

theorem split?_number {literal rest : List Char}
    (isNumber : isNumberLiteral literal) (ends : EndsNumber rest) :
    split? (literal ++ rest) =
      some (.number (String.ofList literal), rest) := by
  obtain ⟨char, more, rfl⟩ :=
    List.exists_cons_of_ne_nil (isNumberLiteral_ne_nil isNumber)
  obtain ⟨first, others⟩ :=
    List.forall_mem_cons.mp (all_isNumberChar_of_isNumberLiteral isNumber)
  have stops : rest.takeWhile isNumberChar = [] ∧
      rest.dropWhile isNumberChar = rest := by
    cases rest with
    | nil => exact ⟨rfl, rfl⟩
    | cons next rest => simp [ends next rfl]
  have differs {letter : Char} (noNumber : isNumberChar letter = false) :
      char ≠ letter := by
    rintro rfl
    exact absurd first (by simp [noNumber])
  rw [List.cons_append, split?, mark?_of_isNumberChar first,
    List.takeWhile_append_of_pos others, List.dropWhile_append_of_pos others,
    stops.1, stops.2, List.append_nil]
  · exact if_pos isNumber
  · exact fun _ null _ => differs (by decide) null
  · exact fun _ yes _ => differs (by decide) yes
  · exact fun _ no _ => differs (by decide) no
  · exact fun quote => differs (by decide) quote

theorem isNumberLiteral_of_digits {first : Char} {rest : List Char}
    (digits : ∀ char ∈ first :: rest, char.isDigit)
    (leading : first = '0' → rest = []) : isNumberLiteral (first :: rest) := by
  have isDigit := digits first List.mem_cons_self
  have noSign : first ≠ '-' := by
    rintro rfl
    exact absurd isDigit (by decide)
  have magnitude : isMagnitude (first :: rest) := by
    by_cases zero : first = '0'
    · obtain rfl := zero
      rw [leading rfl]
      rfl
    · rw [isMagnitude]
      · rw [isDigitsThen, List.takeWhile_eq_self_iff.mpr digits,
          List.dropWhile_eq_nil_iff.mpr digits]
        rfl
      · exact fun _ isZero => zero (List.cons.inj isZero).1
  rw [isNumberLiteral]
  · exact magnitude
  · exact fun _ sign => noSign (List.cons.inj sign).1

theorem head?_toDigits {number : Nat} (positive : 0 < number) :
    (Nat.toDigits 10 number).head? ≠ some '0' := by
  induction number using Nat.strong_induction_on with
  | _ number induction =>
      rw [Nat.toDigits_eq_if (by decide)]
      split
      case isTrue _ =>
        rw [List.head?_cons, ne_eq, Option.some.injEq, Nat.digitChar_eq_zero]
        omega
      case isFalse _ =>
        rw [List.head?_append, Option.or_of_isSome]
        · exact induction (number / 10) (by omega) (by omega)
        · exact List.isSome_head?.mpr Nat.toDigits_ne_nil

theorem isNumberLiteral_toString (number : Nat) :
    isNumberLiteral (toString number).toList := by
  rw [Nat.toString_eq_ofList_toDigits, String.toList_ofList]
  have digits : ∀ char ∈ Nat.toDigits 10 number, char.isDigit := fun _ =>
    Nat.isDigit_of_mem_toDigits (by decide) (by decide)
  rcases Nat.eq_zero_or_pos number with rfl | positive
  · rfl
  · obtain ⟨first, rest, digits_eq⟩ :=
      List.exists_cons_of_ne_nil (Nat.toDigits_ne_nil (n := number) (b := 10))
    have leading := head?_toDigits positive
    rw [digits_eq] at digits leading ⊢
    exact isNumberLiteral_of_digits digits fun zero =>
      absurd (congrArg some zero) leading

theorem unit?_hexDigit :
    ∀ code < 32,
      unit? '0' '0' (hexDigit (code / 16)) (hexDigit (code % 16)) =
        some code := by
  decide

theorem splitString_escapeChar (char : Char) :
    ∃ part,
      (∀ found rest, splitString found (escapeChar char ++ rest) =
        splitString (part :: found) rest) ∧
      ∀ found parts, textOf found (part :: parts) =
        textOf (char :: found) parts := by
  unfold escapeChar
  split
  case h_8 noQuote noBackslash _ _ _ _ _ =>
    split
    case isTrue control =>
      refine ⟨.unit char.toNat, fun found rest => ?_, fun found parts => ?_⟩
      · simp only [List.cons_append, List.nil_append, splitString,
          unit?_hexDigit char.toNat control]
      · rw [textOf.eq_def]
        simp only
        rw [if_pos (by omega), Char.ofNat_toNat]
    case isFalse noControl =>
      refine ⟨.char char, fun found rest => ?_, fun found parts => rfl⟩
      have plain : (char == '\\' || char.toNat < 0x20) = false := by
        rw [beq_false_of_ne noBackslash, Bool.false_or]
        exact decide_eq_false noControl
      rw [List.cons_append, List.nil_append, splitString, plain]
      · rfl
      · exact noQuote
      · exact fun _ _ _ _ _ backslash _ => noBackslash backslash
      · exact fun _ _ backslash _ => noBackslash backslash
  all_goals exact ⟨.char _, fun found rest => rfl, fun found parts => rfl⟩

/-- Quoted characters are read back as the text they make. -/
theorem splitString_flatMap (chars : List Char) :
    ∃ parts,
      (∀ found rest, splitString found (chars.flatMap escapeChar ++ rest) =
        splitString (parts.reverse ++ found) rest) ∧
      ∀ found, textOf found parts =
        some (String.ofList (found.reverse ++ chars)) := by
  induction chars with
  | nil => exact ⟨[], fun found rest => rfl, fun found => by simp [textOf]⟩
  | cons char chars induction =>
      obtain ⟨part, split_first, text_first⟩ := splitString_escapeChar char
      obtain ⟨parts, split_rest, text_rest⟩ := induction
      refine ⟨part :: parts, fun found rest => ?_, fun found => ?_⟩
      · rw [List.flatMap_cons, List.append_assoc, split_first, split_rest]
        simp
      · rw [text_first, text_rest]
        simp

theorem split?_quote (text : String) (rest : List Char) :
    split? ((quote (some text)).toList ++ rest) =
      some (.string (some text), rest) := by
  obtain ⟨parts, split_eq, text_eq⟩ := splitString_flatMap text.toList
  have chars_eq : (quote (some text)).toList ++ rest =
      '"' :: (text.toList.flatMap escapeChar ++ '"' :: rest) := by
    simp [quote]
  rw [chars_eq, split?, split_eq, splitString]
  simp [text_eq]

end ComponentLang.Json.Lexeme
