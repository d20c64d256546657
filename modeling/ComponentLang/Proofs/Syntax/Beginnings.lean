import ComponentLang.Proofs.Syntax.Item

namespace ComponentLang

namespace Terminal

def isReserved : Terminal → Bool
  | .keyword word => !word.isContextual
  | .operator _ => true

theorem ofSpelling?_spelling (terminal : Terminal) :
    ofSpelling? terminal.spelling = some terminal := by
  cases terminal with
  | keyword word =>
      simp [ofSpelling?, spelling, Keyword.ofSpelling?_spelling]
  | operator sign =>
      have no_word : Keyword.ofSpelling? sign.spelling = none := by
        cases sign <;> decide
      simp [ofSpelling?, spelling, no_word, Operator.ofSpelling?_spelling]

theorem spelling_injective {left right : Terminal}
    (same : left.spelling = right.spelling) : left = right := by
  have found := ofSpelling?_spelling left
  rw [same, ofSpelling?_spelling right] at found
  exact (Option.some.inj found).symm

theorem head?_spelling (terminal : Terminal) :
    terminal.spelling.toList.head? ≠ some '$' ∧
      terminal.spelling.toList.head? ≠ some '"' := by
  cases terminal with
  | keyword word => cases word <;> decide +kernel
  | operator sign => cases sign <;> decide +kernel

theorem find?_spelling_eq_none {terminals : List Terminal} {terminal : Terminal}
    (other : terminal ∉ terminals) :
    find? terminals terminal.spelling = none := by
  rw [find?, List.find?_eq_none]
  intro candidate member same
  obtain rfl := spelling_injective (beq_iff_eq.mp same)
  exact other member

theorem find?_spelling_isSome {terminals : List Terminal} {terminal : Terminal}
    (member : terminal ∈ terminals) :
    (find? terminals terminal.spelling).isSome := by
  rw [find?, List.find?_isSome]
  exact ⟨terminal, member, beq_self_eq_true _⟩

theorem find?_eq_some_iff {candidates : List Terminal} {terminal : Terminal}
    (member : terminal ∈ candidates) (text : String) :
    find? candidates text = some terminal ↔ text = terminal.spelling := by
  constructor
  · exact fun found => (spelling_of_find?_eq_some found).symm
  · rintro rfl
    obtain ⟨other, found⟩ := Option.isSome_iff_exists.mp (find?_spelling_isSome member)
    rw [found, spelling_injective (spelling_of_find?_eq_some found)]

end Terminal

open Terminal

namespace Scan

theorem lexicalKind_mem (text : String) :
    lexicalKind text ∈ [.type, .keyword, .operator, .number, .nil] := by
  unfold lexicalKind
  repeat' split
  all_goals decide

theorem lexicalKind_ne_string (text : String) :
    lexicalKind text ≠ .string := by
  intro string
  have member := lexicalKind_mem text
  rw [string] at member
  revert member
  decide

theorem lexicalKind_keyword (word : Keyword) :
    lexicalKind word.spelling = .keyword := by
  have no_type : BuiltinType.ofSpelling? word.spelling = none := by
    cases word <;> decide
  simp [lexicalKind, no_type, Keyword.ofSpelling?_spelling]

theorem lexicalKind_operator (sign : Operator) :
    lexicalKind sign.spelling = .operator := by
  cases sign <;> decide

theorem lexicalKind_terminal (terminal : Terminal) :
    lexicalKind terminal.spelling = .keyword ∨
      lexicalKind terminal.spelling = .operator := by
  cases terminal with
  | keyword word => exact .inl (lexicalKind_keyword word)
  | operator sign => exact .inr (lexicalKind_operator sign)

end Scan

theorem Terminal.find?_eq_none_of_kind {terminals : List Terminal}
    {text : String} (word : Scan.lexicalKind text ≠ .keyword)
    (sign : Scan.lexicalKind text ≠ .operator) :
    find? terminals text = none := by
  rw [find?, List.find?_eq_none]
  rintro candidate - same
  obtain rfl := beq_iff_eq.mp same
  rcases Scan.lexicalKind_terminal candidate with found | found
  · exact word found
  · exact sign found

theorem Literal.isIdentifier_of_isReserved {text : String}
    (reserved : isReserved text) (unescaped : text.toList.head? ≠ some '$') :
    isIdentifier text = false := by
  unfold isIdentifier
  split
  · next text_eq =>
      rw [text_eq] at unescaped
      contradiction
  · rw [reserved]
    rfl

theorem Literal.exists_front_of_isIdentifier {text : String}
    (identifier : isIdentifier text) :
    ∃ char rest, text.toList = char :: rest ∧
      (char = '$' ∨ isNameStart char) := by
  unfold isIdentifier at identifier
  split at identifier
  · next escaped text_eq => exact ⟨_, _, text_eq, .inl rfl⟩
  · obtain ⟨-, plain⟩ := Bool.and_eq_true_iff.mp identifier
    cases text_eq : text.toList with
    | nil =>
        rw [text_eq] at plain
        nomatch plain
    | cons char rest =>
        rw [text_eq] at plain
        exact ⟨char, rest, rfl, .inr (Bool.and_eq_true_iff.mp plain).1⟩

theorem Terminal.isIdentifier_spelling {terminal : Terminal}
    (reserved : terminal.isReserved) :
    Literal.isIdentifier terminal.spelling = false := by
  cases terminal with
  | keyword word =>
      apply Literal.isIdentifier_of_isReserved _ (head?_spelling word).1
      rw [Literal.isReserved, spelling, Keyword.ofSpelling?_spelling,
        Option.any_some, Bool.or_eq_true_iff]
      exact .inl reserved
  | operator sign =>
      rw [Bool.eq_false_iff]
      intro identifier
      obtain ⟨char, rest, text_eq, front⟩ :=
        Literal.exists_front_of_isIdentifier identifier
      have no_letter :
          sign.spelling.toList.head?.any Literal.isNameStart = false := by
        cases sign <;> decide +kernel
      have first : sign.spelling.toList.head? = some char :=
        congrArg List.head? text_eq
      rcases front with rfl | start
      · exact (head?_spelling sign).1 first
      · rw [first] at no_letter
        exact Bool.eq_false_iff.mp no_letter start

theorem Terminal.find?_eq_none_of_isIdentifier {terminals : List Terminal}
    {text : String} (reserved : terminals.all isReserved)
    (identifier : Literal.isIdentifier text) : find? terminals text = none := by
  rw [find?, List.find?_eq_none]
  intro candidate member same
  obtain rfl := beq_iff_eq.mp same
  rw [isIdentifier_spelling (List.all_eq_true.mp reserved candidate member)]
    at identifier
  cases identifier

namespace Literal

theorem isDigit_eq_false_of_isNameStart {char : Char}
    (start : isNameStart char) : char.isDigit = false := by
  rw [Bool.eq_false_iff]
  intro digit
  have last : char.val ≤ '9'.val :=
    of_decide_eq_true (Bool.and_eq_true_iff.mp digit).2
  have below : char.val.toNat ≤ 57 := UInt32.le_iff_toNat_le.mp last
  rcases Bool.or_eq_true_iff.mp start with letter | underscore
  · rcases Bool.or_eq_true_iff.mp letter with upper | lower
    · have first : 'A'.val ≤ char.val := (of_decide_eq_true upper).1
      have above : 65 ≤ char.val.toNat := UInt32.le_iff_toNat_le.mp first
      omega
    · have first : 'a'.val ≤ char.val :=
        of_decide_eq_true (Bool.and_eq_true_iff.mp lower).1
      have above : 97 ≤ char.val.toNat := UInt32.le_iff_toNat_le.mp first
      omega
  · rw [beq_iff_eq.mp underscore] at last
    exact absurd last (by decide)

theorem builtinType_eq_none {text : String} (identifier : isIdentifier text) :
    BuiltinType.ofSpelling? text = none := by
  cases found : BuiltinType.ofSpelling? text with
  | none => rfl
  | some type =>
      have reserved : isReserved text := by
        rw [isReserved, found, Bool.or_eq_true_iff]
        exact .inr rfl
      have unescaped : text.toList.head? ≠ some '$' := by
        rw [← BuiltinType.ofSpelling?_eq_some_iff.mp found]
        cases type <;> decide +kernel
      rw [isIdentifier_of_isReserved reserved unescaped] at identifier
      nomatch identifier

theorem isDecimal_eq_false {char : Char} {rest : List Char}
    (no_digit : char.isDigit = false) (no_point : char ≠ '.') :
    isDecimal (char :: rest) = false := by
  have whole : (char :: rest).takeWhile (· != '.') =
      char :: rest.takeWhile (· != '.') :=
    List.takeWhile_cons_of_pos (bne_iff_ne.mpr no_point)
  rw [isDecimal, whole]
  simp only [List.all_cons, no_digit, List.isEmpty_cons, Bool.false_and,
    Bool.and_false]
  split <;> rfl

theorem isNumber_eq_false {text : String} (identifier : isIdentifier text) :
    isNumber text = false := by
  obtain ⟨char, rest, text_eq, front⟩ := exists_front_of_isIdentifier identifier
  have no_digit : char.isDigit = false := by
    rcases front with rfl | start
    · rfl
    · exact isDigit_eq_false_of_isNameStart start
  have no_sign : char ≠ '-' ∧ char ≠ '0' ∧ char ≠ '.' := by
    refine ⟨?_, ?_, ?_⟩ <;>
    · rintro rfl
      rcases front with escape | start
      · nomatch escape
      · nomatch start
  obtain ⟨no_minus, no_zero, no_point⟩ := no_sign
  simp [isNumber, text_eq, isUnsigned, no_minus, no_zero,
    isDecimal_eq_false no_digit no_point]

end Literal

namespace Syntax

def Apart (terminals : List Terminal) (items : List Item) : Prop :=
  ∀ item ∈ items.head?, find? terminals item.text = none

/-- The items do not go on with what stands before them, which only strings and
the terminals could do. -/
structure Ends (terminals : List Terminal) (items : List Item) : Prop where
  apart : Apart terminals items
  unquoted : ∀ item ∈ items.head?, item.kind ≠ .string

section Beginnings

variable {terminals others : List Terminal} {items rest : List Item}
  {item : Item} {terminal : Terminal}

theorem apart_cons (other : find? terminals item.text = none) :
    Apart terminals (item :: rest) := by
  rintro _ ⟨⟩
  exact other

theorem apart_terminal (other : terminal ∉ terminals) :
    Apart terminals (.terminal terminal :: rest) :=
  apart_cons (find?_spelling_eq_none other)

theorem Apart.mono (apart : Apart terminals items) (fewer : others ⊆ terminals) :
    Apart others items := by
  intro item first
  have none_found := apart item first
  rw [find?, List.find?_eq_none] at none_found ⊢
  exact fun candidate member => none_found candidate (fewer member)

theorem Ends.mono (ends : Ends terminals items) (fewer : others ⊆ terminals) :
    Ends others items :=
  ⟨ends.apart.mono fewer, ends.unquoted⟩

theorem Ends.of_cons (ends : Ends (terminal :: terminals) items) :
    Apart [terminal] items ∧ Ends terminals items := by
  constructor
  · exact ends.apart.mono fun _ member =>
      List.mem_singleton.mp member ▸ List.mem_cons_self
  · exact ends.mono (List.subset_cons_self _ _)

theorem ends_nil : Ends terminals [] := by
  constructor <;> exact fun _ first => nomatch first

theorem ends_terminal (other : terminal ∉ terminals) :
    Ends terminals (.terminal terminal :: rest) := by
  refine ⟨apart_terminal other, ?_⟩
  rintro _ ⟨⟩
  exact Scan.lexicalKind_ne_string _

theorem Ends.clause {part : Option (List Item)} (ends : Ends terminals rest)
    (other : terminal ∉ terminals) :
    Ends terminals (clause terminal part ++ rest) := by
  cases part with
  | none => exact ends
  | some items => exact ends_terminal other

end Beginnings

/-! Names, numbers and strings are spelled like no terminal. -/

theorem Name.find?_eq_none (name : Name) {terminals : List Terminal}
    (reserved : terminals.all isReserved) : find? terminals name.text = none :=
  find?_eq_none_of_isIdentifier reserved name.valid

theorem Name.lexicalKind_text_ne_number (name : Name) :
    Scan.lexicalKind name.text ≠ .number := by
  unfold Scan.lexicalKind
  rw [Literal.isNumber_eq_false name.valid, if_neg Bool.false_ne_true]
  repeat' split
  all_goals nofun

theorem Number.lexicalKind_text (number : Number) :
    Scan.lexicalKind number.text = .number :=
  beq_iff_eq.mp (Bool.and_eq_true_iff.mp number.valid).2

theorem Number.find?_eq_none (number : Number) (terminals : List Terminal) :
    find? terminals number.text = none := by
  apply find?_eq_none_of_kind <;> rw [number.lexicalKind_text] <;> nofun

theorem Quotation.head?_text (string : Quotation) :
    string.text.toList.head? = some '"' := by
  rcases Bool.or_eq_true_iff.mp string.valid with quoted | block
  · exact Scan.head?_of_isOnly (.inl rfl) quoted
  · exact Scan.head?_of_isOnly (.inr rfl) block

theorem Quotation.find?_eq_none (string : Quotation)
    (terminals : List Terminal) : find? terminals string.text = none := by
  rw [find?, List.find?_eq_none]
  rintro candidate - same
  have quote := string.head?_text
  rw [beq_iff_eq.mp same] at quote
  exact candidate.head?_spelling.2 quote

end Syntax

end ComponentLang
