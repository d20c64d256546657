import ComponentLang.Proofs.Scan.Lossless
import ComponentLang.Proofs.Scan.Quotes
import ComponentLang.Vocabulary.Terminal

namespace ComponentLang.Scan

def isOnly (shape : Shape) (text : String) : Bool :=
  match text.toList with
  | [] => false
  | char :: rest =>
      !isGap char && (char :: rest).all (fun other => !isTerminator other) &&
        splitPiece char rest == (⟨shape, char :: rest⟩, [])

theorem exists_of_isOnly {shape : Shape} {text : String}
    (only : isOnly shape text) :
    ∃ char rest, text.toList = char :: rest ∧ isGap char = false ∧
      (∀ other ∈ char :: rest, isTerminator other = false) ∧
      splitPiece char rest = (⟨shape, char :: rest⟩, []) := by
  unfold isOnly at only
  split at only
  · cases only
  · next char rest text_eq =>
      simp only [Bool.and_eq_true, Bool.not_eq_true', List.all_eq_true,
        beq_iff_eq] at only
      obtain ⟨⟨solid, goes⟩, piece_eq⟩ := only
      exact ⟨char, rest, text_eq, solid, goes, piece_eq⟩

theorem head?_of_isOnly {shape : Shape} {text : String}
    (string : shape = .quoted true ∨ shape = .block true)
    (only : isOnly shape text) : text.toList.head? = some '"' := by
  obtain ⟨char, rest, text_eq, -, -, piece_eq⟩ := exists_of_isOnly only
  rw [text_eq]
  revert piece_eq
  fun_cases splitPiece char rest with
  | case3 | case5 => exact fun _ => rfl
  | _ =>
      rintro ⟨⟩
      rcases string with string | string <;> cases string

/-- The text is a word of the kind, or a string that is closed on its line. -/
def IsWhole (text : String) (kind : TokenKind) : Prop :=
  isOnly .word text ∧ kind = lexicalKind text ∨
    (isOnly (.quoted true) text ∨ isOnly (.block true) text) ∧ kind = .string

/-- The line is blank where it begins, or empty. -/
def IsSpaced (line : List Char) : Prop :=
  ∀ char ∈ line.head?, isGap char

section Spaced

variable {line : List Char} (spaced : IsSpaced line)
include spaced

theorem ne_cons_of_isSpaced {char : Char} {further : List Char}
    (solid : isGap char = false) : line ≠ char :: further := by
  rintro rfl
  rw [spaced char rfl] at solid
  nomatch solid

theorem endsWord_of_isSpaced {char : Char} (breaks : Literal.isBreakpoint char) :
    endsWord char line := by
  cases line with
  | nil => simp [endsWord, breaks]
  | cons first rest =>
      have gap := spaced first rfl
      simp only [isGap, Bool.or_eq_true, beq_iff_eq] at gap
      have no_digit : first.isDigit = false := by
        rcases gap with rfl | rfl <;> rfl
      simp [endsWord, breaks, no_digit]

theorem splitWord_of_isSpaced : splitWord line = ([], line) := by
  cases line with
  | nil => rfl
  | cons first rest =>
      have gap := spaced first rfl
      simp only [isGap, Bool.or_eq_true, beq_iff_eq] at gap
      rcases gap with rfl | rfl <;> rfl

omit spaced in
theorem endsWord_append_line {char : Char} {rest : List Char}
    (goes : endsWord char rest = false) (line : List Char) :
    endsWord char (rest ++ line) = false := by
  cases rest with
  | nil =>
      have plain : Literal.isBreakpoint char = false := by
        simpa [endsWord] using goes
      simp [endsWord, plain]
  | cons => exact goes

theorem splitWord_append_line {word : List Char}
    (whole : splitWord word = (word, [])) :
    splitWord (word ++ line) = (word, line) := by
  induction word with
  | nil => exact splitWord_of_isSpaced spaced
  | cons char rest induction =>
      rw [splitWord] at whole
      split at whole
      · nomatch whole
      · next goes =>
          have rest_eq : splitWord rest = (rest, []) := by
            simpa [Prod.ext_iff] using whole
          rw [List.cons_append, splitWord,
            endsWord_append_line (by simpa using goes),
            induction rest_eq]
          rfl

theorem splitPiece_append_line {shape : Shape} {char : Char} {rest : List Char}
    (ends : shape = .word ∨ shape = .quoted true ∨ shape = .block true)
    (whole : splitPiece char rest = (⟨shape, char :: rest⟩, [])) :
    splitPiece char (rest ++ line) = (⟨shape, char :: rest⟩, line) := by
  revert whole
  fun_cases splitPiece char rest with
  | case1 | case2 | case4 | case6 =>
      intro whole
      cases whole
      simp at ends
  | case3 rest front left found =>
      intro whole
      cases whole
      rw [List.cons_append, List.cons_append, splitPiece,
        splitTripleQuote_front found]
  | case5 rest notTriple front left found =>
      intro whole
      cases whole
      rw [splitPiece.eq_4, splitQuote_front found]
      intro further quotes
      match rest with
      | [] => nomatch found
      | [first] =>
          obtain ⟨-, quote⟩ := List.cons.inj quotes
          exact ne_cons_of_isSpaced spaced rfl quote
      | first :: second :: rest =>
          cases quotes
          exact notTriple rest rfl
  | case7 rest =>
      intro whole
      cases whole
      rfl
  | case8 char rest noComment noRemark _ noQuote _ breaks =>
      intro whole
      cases whole
      rw [List.nil_append, splitPiece.eq_6 char line noComment noRemark noQuote
        (fun _ quote _ => noQuote quote) fun _ _ arrow =>
          ne_cons_of_isSpaced spaced rfl arrow]
      rw [if_pos (endsWord_of_isSpaced spaced (Bool.and_eq_true_iff.mp breaks).1)]
  | case9 char rest noComment noRemark _ noQuote noArrow goes word left
      split_eq =>
      intro whole
      cases whole
      have arrowless : ∀ further, char = '-' →
          rest ++ line = '>' :: further → False := by
        intro further minus arrow
        cases rest with
        | nil => exact ne_cons_of_isSpaced spaced rfl arrow
        | cons first rest =>
            cases arrow
            exact noArrow rest minus rfl
      rw [splitPiece.eq_6 char (rest ++ line) noComment noRemark noQuote
        (fun _ quote _ => noQuote quote) arrowless,
        endsWord_append_line (by simpa using goes),
        splitWord_append_line spaced split_eq]
      rfl

end Spaced

/-! Words that are single pieces. -/

theorem isOnly_terminal (terminal : Terminal) :
    isOnly .word terminal.spelling := by
  cases terminal with
  | keyword word => cases word <;> decide +kernel
  | operator sign => cases sign <;> decide +kernel

theorem isOnly_builtinType (type : BuiltinType) :
    isOnly .word type.spelling := by
  cases type <;> decide +kernel

def IsSolid (char : Char) : Prop :=
  Literal.isBreakpoint char = false ∧ isTerminator char = false

theorem isSolid_of_isNameChar {char : Char} (name : Literal.isNameChar char) :
    IsSolid char := by
  constructor
  · unfold Literal.isBreakpoint
    split
    all_goals first | rfl | exact absurd name (by decide)
  · rw [Bool.eq_false_iff]
    intro terminator
    simp only [isTerminator, Bool.or_eq_true, beq_iff_eq] at terminator
    rcases terminator with rfl | rfl <;> exact absurd name (by decide)

theorem splitWord_append_of_isSolid {front : List Char}
    (solid : ∀ char ∈ front, IsSolid char) (back : List Char) :
    splitWord (front ++ back) =
      (front ++ (splitWord back).1, (splitWord back).2) := by
  induction front with
  | nil => rfl
  | cons char rest induction =>
      obtain ⟨here, later⟩ := List.forall_mem_cons.mp solid
      rw [List.cons_append, splitWord, induction later]
      simp [endsWord, here.1]

theorem splitWord_of_isSolid {word : List Char}
    (solid : ∀ char ∈ word, IsSolid char) : splitWord word = (word, []) := by
  simpa [splitWord] using splitWord_append_of_isSolid solid []

theorem splitPiece_of_splitWord {char : Char} {rest word left : List Char}
    (split_eq : splitWord (char :: rest) = (char :: word, left)) :
    isGap char = false ∧ splitPiece char rest = (⟨.word, char :: word⟩, left) := by
  rw [splitWord] at split_eq
  split at split_eq
  · nomatch split_eq
  · next goes =>
      have other (sign : Char) (breaks : Literal.isBreakpoint sign)
          (no_point : sign ≠ '.') : char ≠ sign := by
        rintro rfl
        exact goes (by simp [endsWord, breaks, no_point])
      have space := other ' ' rfl (by decide)
      have tab := other '\t' rfl (by decide)
      have minus := other '-' rfl (by decide)
      have quote := other '"' rfl (by decide)
      have rest_eq : splitWord rest = (word, left) := by
        simpa [Prod.ext_iff] using split_eq
      refine ⟨by simp [isGap, space, tab], ?_⟩
      rw [splitPiece.eq_6 char rest (other '#' rfl (by decide))
        (other '@' rfl (by decide)) quote (fun _ same => absurd same quote)
        (fun _ same => absurd same minus), if_neg goes, rest_eq]

theorem isOnly_of_splitWord {text : String} (nonempty : text.toList ≠ [])
    (whole : splitWord text.toList = (text.toList, []))
    (goes : ∀ char ∈ text.toList, isTerminator char = false) :
    isOnly .word text := by
  unfold isOnly
  cases text_eq : text.toList with
  | nil => exact absurd text_eq nonempty
  | cons char rest =>
      rw [text_eq] at whole goes
      obtain ⟨solid, piece_eq⟩ := splitPiece_of_splitWord whole
      simp only [solid, piece_eq, Bool.not_false, Bool.true_and,
        beq_self_eq_true, Bool.and_true, List.all_eq_true, Bool.not_eq_true']
      exact goes

theorem isOnly_of_isSolid {text : String} (nonempty : text.toList ≠ [])
    (solid : ∀ char ∈ text.toList, IsSolid char) : isOnly .word text :=
  isOnly_of_splitWord nonempty (splitWord_of_isSolid solid)
    fun char member => (solid char member).2

theorem isSolid_of_isPlainName {chars : List Char}
    (plain : Literal.isPlainName chars) :
    chars ≠ [] ∧ ∀ char ∈ chars, IsSolid char := by
  cases chars with
  | nil => nomatch plain
  | cons char rest =>
      obtain ⟨start, others⟩ := Bool.and_eq_true_iff.mp plain
      refine ⟨List.cons_ne_nil _ _, List.forall_mem_cons.mpr ⟨?_, ?_⟩⟩
      · apply isSolid_of_isNameChar
        rcases Bool.or_eq_true_iff.mp start with letter | underscore
        · simp [Literal.isNameChar, Char.isAlphanum, letter]
        · simp [Literal.isNameChar, underscore]
      · exact fun other member =>
          isSolid_of_isNameChar (List.all_eq_true.mp others other member)

theorem isOnly_of_isIdentifier {text : String}
    (identifier : Literal.isIdentifier text) : isOnly .word text := by
  unfold Literal.isIdentifier at identifier
  split at identifier
  · next escaped text_eq =>
      have solid := (isSolid_of_isPlainName identifier).2
      apply isOnly_of_isSolid
      · rw [text_eq]
        exact List.cons_ne_nil _ _
      · rw [text_eq]
        exact List.forall_mem_cons.mpr ⟨⟨rfl, rfl⟩, solid⟩
  · obtain ⟨-, plain⟩ := Bool.and_eq_true_iff.mp identifier
    obtain ⟨nonempty, solid⟩ := isSolid_of_isPlainName plain
    exact isOnly_of_isSolid nonempty solid

end ComponentLang.Scan
