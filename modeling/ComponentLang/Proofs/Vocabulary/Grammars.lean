import ComponentLang.Proofs.Syntax.Beginnings
import ComponentLang.Proofs.Vocabulary.Numbers
import Mathlib.Computability.RegularExpressions

namespace ComponentLang

namespace Literal

/-! Regular expressions. -/

def oneOf (chars : List Char) : RegularExpression Char :=
  chars.foldr (fun char others => .char char + others) 0

def repeated (form : RegularExpression Char) : RegularExpression Char :=
  form * form.star

section Languages

variable {chars word : List Char}

theorem mem_oneOf :
    word ∈ (oneOf chars).matches' ↔ ∃ char ∈ chars, word = [char] := by
  induction chars with
  | nil => simp [oneOf, Language.notMem_zero]
  | cons char chars induction =>
      rw [List.exists_mem_cons_iff, ← induction]
      exact Language.mem_add ..

theorem mem_oneOf_mul {form : RegularExpression Char} :
    word ∈ (oneOf chars * form).matches' ↔
      ∃ char ∈ chars, ∃ rest ∈ form.matches', word = char :: rest := by
  rw [RegularExpression.matches'_mul, Language.mem_mul]
  constructor
  · rintro ⟨front, here, rest, later, rfl⟩
    obtain ⟨char, among, rfl⟩ := mem_oneOf.mp here
    exact ⟨char, among, rest, later, rfl⟩
  · rintro ⟨char, among, rest, later, rfl⟩
    exact ⟨[char], mem_oneOf.mpr ⟨char, among, rfl⟩, rest, later, rfl⟩

theorem mem_star_oneOf :
    word ∈ (oneOf chars).star.matches' ↔ ∀ char ∈ word, char ∈ chars := by
  rw [RegularExpression.matches'_star, Language.mem_kstar]
  constructor
  · rintro ⟨words, rfl, each⟩ char member
    obtain ⟨part, among, inside⟩ := List.mem_flatten.mp member
    obtain ⟨other, known, rfl⟩ := mem_oneOf.mp (each part among)
    rwa [List.mem_singleton.mp inside]
  · intro known
    refine ⟨word.map fun char => [char], ?_, fun part among => ?_⟩
    · rw [← List.flatMap_def, List.flatMap_singleton']
    · obtain ⟨char, member, rfl⟩ := List.mem_map.mp among
      exact mem_oneOf.mpr ⟨char, known char member, rfl⟩

theorem mem_repeated_oneOf :
    word ∈ (repeated (oneOf chars)).matches' ↔
      word ≠ [] ∧ ∀ char ∈ word, char ∈ chars := by
  rw [repeated, mem_oneOf_mul]
  constructor
  · rintro ⟨char, among, rest, later, rfl⟩
    exact ⟨List.cons_ne_nil _ _,
      List.forall_mem_cons.mpr ⟨among, mem_star_oneOf.mp later⟩⟩
  · rintro ⟨nonempty, known⟩
    obtain ⟨char, rest, rfl⟩ := List.exists_cons_of_ne_nil nonempty
    obtain ⟨among, later⟩ := List.forall_mem_cons.mp known
    exact ⟨char, among, rest, mem_star_oneOf.mpr later, rfl⟩

end Languages

/-! The characters of literals. -/

def digits : List Char :=
  "0123456789".toList

def hexDigits : List Char :=
  "0123456789abcdefABCDEF".toList

def nameStarts : List Char :=
  "_ABCDEFGHIJKLMNOPQRSTUVWXYZabcdefghijklmnopqrstuvwxyz".toList

def nameChars : List Char :=
  nameStarts ++ digits

theorem toNat_lt_of_isNameChar {char : Char} (name : isNameChar char) :
    char.toNat < 128 := by
  have within (last : Char) (ascii : last.toNat < 128)
      (below : char.val ≤ last.val) : char.toNat < 128 :=
    Nat.lt_of_le_of_lt (UInt32.le_iff_toNat_le.mp below) ascii
  rcases Bool.or_eq_true_iff.mp name with alphanumeric | underscore
  · rcases Bool.or_eq_true_iff.mp alphanumeric with letter | digit
    · rcases Bool.or_eq_true_iff.mp letter with upper | lower
      · exact within 'Z' (by decide) (of_decide_eq_true upper).2
      · exact within 'z' (by decide)
          (of_decide_eq_true (Bool.and_eq_true_iff.mp lower).2)
    · exact within '9' (by decide)
        (of_decide_eq_true (Bool.and_eq_true_iff.mp digit).2)
  · rw [beq_iff_eq.mp underscore]
    decide

/-- A class of ASCII characters is known from the ASCII characters in it. -/
theorem iff_mem_of_ascii {holds : Char → Bool} {chars : List Char}
    (names : ∀ char, holds char → isNameChar char)
    (ascii : chars.all fun char => char.toNat < 128)
    (agree : ∀ code < 128,
      holds (.ofNat code) = (chars.map Char.toNat).contains code)
    (char : Char) : holds char ↔ char ∈ chars := by
  by_cases low : char.toNat < 128
  · have same := agree char.toNat low
    rw [Char.ofNat_toNat] at same
    rw [same, List.contains_iff_mem,
      List.mem_map_of_injective fun _ _ => Char.toNat_inj.mp]
  · refine iff_of_false (fun class_holds => ?_) fun member => ?_
    · exact low (toNat_lt_of_isNameChar (names char class_holds))
    · exact low (of_decide_eq_true (List.all_eq_true.mp ascii char member))

theorem isDigit_iff (char : Char) : char.isDigit ↔ char ∈ digits :=
  iff_mem_of_ascii (fun _ => isNameChar_of_isDigit) (by decide +kernel)
    (by decide +kernel) char

theorem isHexDigit_iff (char : Char) : isHexDigit char ↔ char ∈ hexDigits :=
  iff_mem_of_ascii (fun _ => isNameChar_of_isHexDigit) (by decide +kernel)
    (by decide +kernel) char

theorem isNameChar_iff (char : Char) : isNameChar char ↔ char ∈ nameChars :=
  iff_mem_of_ascii (fun _ => id) (by decide +kernel) (by decide +kernel) char

theorem isNameChar_of_isNameStart {char : Char} (start : isNameStart char) :
    isNameChar char := by
  refine Bool.or_eq_true_iff.mpr ((Bool.or_eq_true_iff.mp start).imp_left ?_)
  exact fun letter => Bool.or_eq_true_iff.mpr (.inl letter)

theorem isNameStart_iff (char : Char) :
    isNameStart char ↔ char ∈ nameStarts :=
  iff_mem_of_ascii (fun _ => isNameChar_of_isNameStart) (by decide +kernel)
    (by decide +kernel) char

/-- Hexadecimal digits behind their mark, decimal digits, or two runs of these
around a point, of which one may be empty. -/
def unsigned : RegularExpression Char :=
  oneOf ['0'] * (oneOf ['x', 'X'] * repeated (oneOf hexDigits)) +
    repeated (oneOf digits) +
    (repeated (oneOf digits) * (oneOf ['.'] * (oneOf digits).star) +
      oneOf ['.'] * repeated (oneOf digits))

def number : RegularExpression Char :=
  (1 + oneOf ['-']) * unsigned

def plainName : RegularExpression Char :=
  oneOf nameStarts * (oneOf nameChars).star

def escapedName : RegularExpression Char :=
  oneOf ['$'] * plainName

theorem decimal_iff {chars : List Char} :
    Decimal chars ↔
      chars ∈ (repeated (oneOf digits)).matches' ∨
        chars ∈ (repeated (oneOf digits) *
            (oneOf ['.'] * (oneOf digits).star)).matches' ∨
          chars ∈ (oneOf ['.'] * repeated (oneOf digits)).matches' := by
  simp only [RegularExpression.matches'_mul (repeated _), Language.mem_mul,
    mem_oneOf_mul, mem_repeated_oneOf, mem_star_oneOf, List.mem_singleton,
    ← isDigit_iff]
  constructor
  · rintro (⟨nonempty, decimal⟩ | ⟨nonempty, front, back⟩)
    · exact .inl ⟨nonempty, decimal⟩
    · next whole fraction =>
        by_cases empty : whole = []
        · subst empty
          exact .inr (.inr ⟨'.', rfl, fraction,
            ⟨nonempty.resolve_left fun some_whole => some_whole rfl, back⟩,
            rfl⟩)
        · exact .inr (.inl ⟨whole, ⟨empty, front⟩, '.' :: fraction,
            ⟨'.', rfl, fraction, back, rfl⟩, rfl⟩)
  · rintro (⟨nonempty, decimal⟩ | ⟨whole, ⟨nonempty, front⟩, _, ⟨_, rfl, fraction,
      back, rfl⟩, rfl⟩ | ⟨_, rfl, fraction, ⟨nonempty, back⟩, rfl⟩)
    · exact .whole nonempty decimal
    · exact .pointed (.inl nonempty) front back
    · exact .pointed (.inr nonempty) (List.forall_mem_nil _) back

theorem unsigned_iff {chars : List Char} :
    Unsigned chars ↔ chars ∈ unsigned.matches' := by
  have parts : chars ∈ unsigned.matches' ↔
      chars ∈ (oneOf ['0'] *
          (oneOf ['x', 'X'] * repeated (oneOf hexDigits))).matches' ∨
        Decimal chars := by
    rw [decimal_iff]
    simp only [unsigned, RegularExpression.matches'_add, Language.mem_add,
      or_assoc]
  rw [parts]
  simp only [mem_oneOf_mul, mem_repeated_oneOf, ← isHexDigit_iff,
    List.mem_cons, List.not_mem_nil, or_false]
  constructor
  · rintro (⟨marked, nonempty, hexadecimal⟩ | ⟨decimal⟩)
    · exact .inl ⟨'0', rfl, _, ⟨_, marked, _, ⟨nonempty, hexadecimal⟩, rfl⟩, rfl⟩
    · exact .inr decimal
  · rintro (⟨_, rfl, _, ⟨_, marked, _, ⟨nonempty, hexadecimal⟩, rfl⟩, rfl⟩ |
      decimal)
    · exact .hexadecimal marked nonempty hexadecimal
    · exact .decimal decimal

theorem mem_number {chars : List Char} :
    chars ∈ number.matches' ↔
      Unsigned chars ∨ ∃ rest, chars = '-' :: rest ∧ Unsigned rest := by
  have forms : number.matches' =
      unsigned.matches' + (oneOf ['-'] * unsigned).matches' := by
    rw [number, RegularExpression.matches'_mul, RegularExpression.matches'_add,
      RegularExpression.matches'_epsilon, add_mul, one_mul]
    rfl
  rw [forms, Language.mem_add, ← unsigned_iff, mem_oneOf_mul]
  refine or_congr_right ⟨?_, ?_⟩
  · rintro ⟨_, minus, rest, later, rfl⟩
    rw [List.mem_singleton.mp minus]
    exact ⟨rest, rfl, unsigned_iff.mpr later⟩
  · rintro ⟨rest, rfl, later⟩
    exact ⟨'-', List.mem_singleton_self _, rest, unsigned_iff.mp later, rfl⟩

theorem isNumber_iff (text : String) :
    isNumber text ↔ text.toList ∈ number.matches' := by
  rw [mem_number]
  unfold isNumber
  split
  · next rest text_eq =>
      have signed : ¬Unsigned ('-' :: rest) := fun form =>
        absurd (form.isNameChar_or_point '-' List.mem_cons_self) (by decide)
      rw [text_eq, isUnsigned_iff, or_iff_right signed]
      simp
  · next signless =>
      rw [isUnsigned_iff, or_iff_left]
      rintro ⟨rest, text_eq, -⟩
      exact signless rest text_eq

theorem isPlainName_iff {chars : List Char} :
    isPlainName chars ↔ chars ∈ plainName.matches' := by
  simp only [plainName, mem_oneOf_mul, mem_star_oneOf, ← isNameStart_iff,
    ← isNameChar_iff]
  cases chars with
  | nil => simp [isPlainName]
  | cons first rest => simp [isPlainName]

theorem isReserved_eq_false_iff {text : String} :
    isReserved text = false ↔
      (∀ type : BuiltinType, text ≠ type.spelling) ∧
        ∀ word : Keyword, text = word.spelling → word.isContextual := by
  rw [isReserved, Bool.or_eq_false_iff, and_comm]
  refine and_congr ?types ?words
  case types =>
    constructor
    · rintro none_found type rfl
      rw [BuiltinType.ofSpelling?_spelling] at none_found
      cases none_found
    · intro other
      cases found : BuiltinType.ofSpelling? text with
      | none => rfl
      | some type =>
          exact absurd (BuiltinType.ofSpelling?_eq_some_iff.mp found).symm
            (other type)
  case words =>
    constructor
    · rintro none_found word rfl
      rw [Keyword.ofSpelling?_spelling] at none_found
      simpa using none_found
    · intro contextual
      cases found : Keyword.ofSpelling? text with
      | none => rfl
      | some word =>
          have spelled := (Keyword.ofSpelling?_eq_some_iff.mp found).symm
          simp [contextual word spelled]

theorem isIdentifier_iff (text : String) :
    isIdentifier text ↔
      (text.toList ∈ plainName.matches' ∧
          (∀ type : BuiltinType, text ≠ type.spelling) ∧
          ∀ word : Keyword, text = word.spelling → word.isContextual) ∨
        text.toList ∈ escapedName.matches' := by
  rw [← isReserved_eq_false_iff, ← isPlainName_iff, escapedName, mem_oneOf_mul]
  simp only [List.mem_singleton, exists_eq_left, ← isPlainName_iff]
  unfold isIdentifier
  split
  · next escaped text_eq =>
      have unplain : isPlainName ('$' :: escaped) = false := rfl
      rw [text_eq, unplain, or_iff_right (fun plain => by cases plain.1)]
      simp
  · next unescaped =>
      rw [Bool.and_eq_true, Bool.not_eq_true', and_comm, or_iff_left]
      rintro ⟨rest, -, text_eq⟩
      exact unescaped rest text_eq

end Literal

open Literal

/-! The kinds that a spelling has. -/

def Scan.isSpelledAs (text : String) : TokenKind → Bool
  | .type => (BuiltinType.ofSpelling? text).isSome
  | .keyword => (Keyword.ofSpelling? text).isSome
  | .operator => (Operator.ofSpelling? text).isSome
  | .number => isNumber text
  | _ => false

theorem Scan.lexicalKind_of_isSpelledAs {text : String} {kind : TokenKind}
    (spelled : isSpelledAs text kind) : lexicalKind text = kind := by
  cases kind with
  | type => exact if_pos spelled
  | keyword =>
      obtain ⟨word, found⟩ := Option.isSome_iff_exists.mp spelled
      rw [← Keyword.ofSpelling?_eq_some_iff.mp found]
      exact lexicalKind_keyword word
  | operator =>
      obtain ⟨sign, found⟩ := Option.isSome_iff_exists.mp spelled
      rw [← Operator.ofSpelling?_eq_some_iff.mp found]
      exact lexicalKind_operator sign
  | number => exact lexicalKind_of_isNumber spelled
  | _ => exact absurd spelled Bool.false_ne_true

/-- The kind of a text when it is asked for the kinds in some order. -/
def Scan.firstKind (order : List TokenKind) (text : String) : TokenKind :=
  (order.find? (isSpelledAs text)).getD .nil

/-- Of the spellings that are looked up none is looked up for two kinds. -/
theorem Scan.firstKind_eq_lexicalKind {order : List TokenKind}
    (all_kinds : order.Perm [.type, .keyword, .operator, .number])
    (text : String) : firstKind order text = lexicalKind text := by
  unfold firstKind
  cases found : order.find? (isSpelledAs text) with
  | some kind =>
      exact (lexicalKind_of_isSpelledAs (List.find?_some found)).symm
  | none =>
      have unspelled {kind : TokenKind}
          (member : kind ∈ [.type, .keyword, .operator, .number]) :
          ¬isSpelledAs text kind :=
        List.find?_eq_none.mp found kind (all_kinds.mem_iff.mpr member)
      have no_type : ¬(BuiltinType.ofSpelling? text).isSome :=
        @unspelled .type (by simp)
      have no_word : ¬(Keyword.ofSpelling? text).isSome :=
        @unspelled .keyword (by simp)
      have no_sign : ¬(Operator.ofSpelling? text).isSome :=
        @unspelled .operator (by simp)
      have no_number : ¬isNumber text := @unspelled .number (by simp)
      rw [lexicalKind, if_neg no_type, if_neg no_word, if_neg no_sign,
        if_neg no_number]
      rfl

/-- The literals are those of the grammars, and a text is of one kind only. -/
theorem literals_regular (text : String) :
    (isNumber text ↔ text.toList ∈ number.matches') ∧
    (isIdentifier text ↔
      (text.toList ∈ plainName.matches' ∧
          (∀ type : BuiltinType, text ≠ type.spelling) ∧
          ∀ word : Keyword, text = word.spelling → word.isContextual) ∨
        text.toList ∈ escapedName.matches') ∧
    (∀ first second, Scan.isSpelledAs text first →
      Scan.isSpelledAs text second → first = second) ∧
    (∀ order, order.Perm [.type, .keyword, .operator, .number] →
      Scan.firstKind order text = Scan.lexicalKind text) ∧
    ¬(isNumber text ∧ isIdentifier text) := by
  refine ⟨isNumber_iff text, isIdentifier_iff text, ?kinds, ?order, ?apart⟩
  case kinds =>
    intro first second here there
    rw [← Scan.lexicalKind_of_isSpelledAs here,
      ← Scan.lexicalKind_of_isSpelledAs there]
  case order => exact fun order perm => Scan.firstKind_eq_lexicalKind perm text
  case apart =>
    rintro ⟨number, identifier⟩
    rw [isNumber_eq_false identifier] at number
    cases number

/-- A number that begins like an operator and has letters in it. -/
theorem literals_regular_signedHexadecimal :
    Scan.isSpelledAs "-0XaF" .number ∧
      [TokenKind.number, .operator, .keyword, .type].Perm
        [.type, .keyword, .operator, .number] ∧
      "-0XaF".toList ∈ number.matches' ∧
      Scan.firstKind [.number, .operator, .keyword, .type] "-0XaF" =
        Scan.lexicalKind "-0XaF" := by
  have spelled : Scan.isSpelledAs "-0XaF" .number := by decide +kernel
  have perm : [TokenKind.number, .operator, .keyword, .type].Perm
      [.type, .keyword, .operator, .number] :=
    List.reverse_perm [TokenKind.type, .keyword, .operator, .number]
  have literal := literals_regular "-0XaF"
  exact ⟨spelled, perm, literal.1.mp spelled, literal.2.2.2.1 _ perm⟩

end ComponentLang
