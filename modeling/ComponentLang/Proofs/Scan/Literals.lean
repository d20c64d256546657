import ComponentLang.Proofs.Scan.Printing
import ComponentLang.Proofs.Scan.Words
import ComponentLang.Proofs.Vocabulary.Numbers

namespace ComponentLang.Scan

theorem scan_of_isWhole {text : String} {kind : TokenKind}
    (whole : IsWhole text kind) :
    scan text = ⟨[{ line := 0, column := 0, text, kind }], []⟩ := by
  have spaced : Spaced [] := fun _ first => nomatch first
  have only := scanFrom_of_isWhole whole spaced 0 0
  rwa [List.append_nil, scanFrom_nil, scanFrom_eq_scanLines, ← scan] at only

theorem scan_of_goes {text : String}
    (goes : ∀ char ∈ text.toList, isTerminator char = false) :
    scan text =
      ⟨(scanPart 0 0 text.toList).tokens,
        (scanPart 0 0 text.toList).errors ++
          (scanPart 0 0 text.toList).opening.toList.map
            fun token => ⟨true, token⟩⟩ := by
  obtain ⟨first, others, empty_eq, lines_eq⟩ := Text.exists_lines goes []
  cases empty_eq
  rw [List.append_nil, List.reverse_nil, List.append_nil] at lines_eq
  rw [scan, lines_eq, scanLines_cons, scanLines_nil]
  simp only [scanLine, List.append_nil]

section Numbers

open Literal

theorem isSolid_of_isDigit {digits : List Char}
    (decimal : ∀ char ∈ digits, char.isDigit) :
    ∀ char ∈ digits, IsSolid char :=
  fun char member =>
    isSolid_of_isNameChar (isNameChar_of_isDigit (decimal char member))

theorem isTerminator_of_unsigned {chars : List Char} (number : Unsigned chars) :
    ∀ char ∈ chars, isTerminator char = false := by
  intro char member
  rcases number.isNameChar_or_point char member with name | rfl
  · exact (isSolid_of_isNameChar name).2
  · rfl

/-- No point of a number ends the word, unless it comes last. -/
theorem splitWord_of_unsigned {chars : List Char} (number : Unsigned chars)
    (pointless : chars.getLast? ≠ some '.') : splitWord chars = (chars, []) := by
  cases number with
  | hexadecimal marked _ hexadecimal =>
      refine splitWord_of_isSolid (List.forall_mem_cons.mpr ⟨⟨rfl, rfl⟩,
        List.forall_mem_cons.mpr ⟨?_, ?_⟩⟩)
      · rcases marked with rfl | rfl <;> exact ⟨rfl, rfl⟩
      · intro char member
        exact isSolid_of_isNameChar
          (isNameChar_of_isHexDigit (hexadecimal char member))
  | decimal decimal =>
      cases decimal with
      | whole _ decimal => exact splitWord_of_isSolid (isSolid_of_isDigit decimal)
      | @pointed whole fraction _ front back =>
          cases fraction with
          | nil => exact absurd List.getLast?_concat pointless
          | cons digit rest =>
              have goes : endsWord '.' (digit :: rest) = false := by
                simp [endsWord, back digit List.mem_cons_self]
              rw [splitWord_append_of_isSolid (isSolid_of_isDigit front),
                splitWord, goes, splitWord_of_isSolid (isSolid_of_isDigit back)]
              rfl

theorem scan_of_unsigned {text : String} (number : Unsigned text.toList)
    (kind : lexicalKind text = .number)
    (pointless : text.toList.getLast? ≠ some '.') :
    scan text = ⟨[{ line := 0, column := 0, text, kind := .number }], []⟩ := by
  have word : isOnly .word text := isOnly_of_splitWord number.ne_nil
    (splitWord_of_unsigned number pointless) (isTerminator_of_unsigned number)
  exact scan_of_isWhole (.inl ⟨word, kind.symm⟩)

theorem lexicalKind_of_isDigit {digits : String} (nonempty : digits.toList ≠ [])
    (decimal : ∀ char ∈ digits.toList, char.isDigit) :
    lexicalKind digits = .number := by
  have unsigned : digits.toList.head? ≠ some '-' := by
    intro minus
    exact absurd (decimal '-' (List.mem_of_head? minus)) (by decide)
  exact lexicalKind_of_isNumber ((isNumber_iff_of_head? unsigned).mpr
    (.decimal (.whole nonempty decimal)))

theorem scan_of_point {digits : String} (nonempty : digits.toList ≠ [])
    (decimal : ∀ char ∈ digits.toList, char.isDigit) :
    scan (digits ++ ".") =
      ⟨[{ line := 0, column := 0, text := digits, kind := .number },
        { line := 0, column := Text.units digits.toList, text := ".",
          kind := .operator }], []⟩ := by
  have solid := isSolid_of_isDigit decimal
  obtain ⟨char, rest, digits_eq⟩ := List.exists_cons_of_ne_nil nonempty
  have text_eq : (digits ++ ".").toList = char :: (rest ++ ['.']) := by
    rw [String.toList_append, digits_eq]
    rfl
  have goes : ∀ other ∈ (digits ++ ".").toList, isTerminator other = false := by
    rw [String.toList_append]
    exact List.forall_mem_append.mpr ⟨fun other member => (solid other member).2,
      List.forall_mem_singleton.mpr rfl⟩
  have split_eq : splitWord (char :: (rest ++ ['.'])) =
      (char :: rest, ['.']) := by
    have parts := splitWord_append_of_isSolid solid ['.']
    rw [digits_eq] at parts
    exact parts.trans (by simp [splitWord, endsWord, isBreakpoint])
  obtain ⟨no_gap, piece_eq⟩ := splitPiece_of_splitWord split_eq
  have point (column : Nat) : scanPart 0 column ['.'] =
      ⟨[{ line := 0, column, text := ".", kind := .operator }], [], none⟩ := by
    have part : scanPart 0 column ('.' :: ([] ++ [])) = _ :=
      scanPart_of_splitPiece 0 column (.inl rfl) rfl rfl
    rw [List.append_nil, scanPart_nil] at part
    exact part
  have first : Placed.token 0 ⟨0, ⟨.word, char :: rest⟩⟩ =
      { line := 0, column := 0, text := digits, kind := .number } := by
    have text_eq : String.ofList (char :: rest) = digits := by
      rw [← digits_eq, String.ofList_toList]
    rw [Placed.token, Piece.text, Piece.kind, Piece.text, text_eq,
      lexicalKind_of_isDigit nonempty decimal]
  rw [scan_of_goes goes, text_eq,
    scanPart_of_splitPiece 0 0 (.inl rfl) no_gap piece_eq, point]
  simp only [first, digits_eq, Nat.zero_add]
  rfl

/-- A literal alone in a text is a token of its own: a name, which is a keyword
where it is reserved in some places, and a number without a sign, but for the
point that it may end in. -/
theorem scan_literal (text : String) :
    (isIdentifier text →
      scan text = ⟨[{ line := 0, column := 0, text, kind :=
        if (Keyword.ofSpelling? text).any Keyword.isContextual then .keyword
        else .nil }], []⟩) ∧
    (isNumber text → text.toList.head? ≠ some '-' →
      (text.toList.getLast? ≠ some '.' →
        scan text =
          ⟨[{ line := 0, column := 0, text, kind := .number }], []⟩) ∧
      ∀ digits, text = digits ++ "." →
        scan text =
          ⟨[{ line := 0, column := 0, text := digits, kind := .number },
            { line := 0, column := Text.units digits.toList, text := ".",
              kind := .operator }], []⟩) := by
  refine ⟨?name, ?number⟩
  case name =>
    intro identifier
    have word := isOnly_of_isIdentifier identifier
    have contextual : (Keyword.ofSpelling? text).any Keyword.isContextual =
        (Keyword.ofSpelling? text).isSome := by
      cases found : Keyword.ofSpelling? text with
      | none => rfl
      | some keyword =>
          obtain rfl := Keyword.ofSpelling?_eq_some_iff.mp found
          exact Keyword.isContextual_of_isIdentifier identifier
    rw [contextual, ← lexicalKind_of_isIdentifier identifier]
    exact scan_of_isWhole (.inl ⟨word, rfl⟩)
  case number =>
    intro number unsigned
    have form := (isNumber_iff_of_head? unsigned).mp number
    refine ⟨scan_of_unsigned form (lexicalKind_of_isNumber number), ?_⟩
    rintro digits rfl
    rw [String.toList_append] at form
    obtain ⟨nonempty, decimal⟩ := form.of_point
    exact scan_of_point nonempty decimal

theorem scan_literal_each :
    (isIdentifier "$active" ∧ scan "$active" =
      ⟨[{ line := 0, column := 0, text := "$active", kind := .nil }], []⟩) ∧
    (isIdentifier "red" ∧ scan "red" =
      ⟨[{ line := 0, column := 0, text := "red", kind := .keyword }], []⟩) ∧
    (isNumber ".5" ∧ ".5".toList.head? ≠ some '-' ∧
      ".5".toList.getLast? ≠ some '.' ∧ scan ".5" =
        ⟨[{ line := 0, column := 0, text := ".5", kind := .number }], []⟩) ∧
    isNumber "12." ∧ "12.".toList.head? ≠ some '-' ∧ "12." = "12" ++ "." ∧
      scan "12." =
        ⟨[{ line := 0, column := 0, text := "12", kind := .number },
          { line := 0, column := 2, text := ".", kind := .operator }], []⟩ := by
  have escaped : isIdentifier "$active" := by decide +kernel
  have contextual : isIdentifier "red" := by decide +kernel
  have pointed : isNumber ".5" ∧ ".5".toList.head? ≠ some '-' ∧
      ".5".toList.getLast? ≠ some '.' := by
    decide +kernel
  have pointLast : isNumber "12." ∧ "12.".toList.head? ≠ some '-' := by
    decide +kernel
  refine ⟨⟨escaped, ?_⟩, ⟨contextual, ?_⟩, ⟨pointed.1, pointed.2.1,
    pointed.2.2, ?_⟩, pointLast.1, pointLast.2, rfl, ?_⟩
  · exact ((scan_literal "$active").1 escaped).trans (by decide +kernel)
  · exact ((scan_literal "red").1 contextual).trans (by decide +kernel)
  · exact ((scan_literal ".5").2 pointed.1 pointed.2.1).1 pointed.2.2
  · exact ((scan_literal "12.").2 pointLast.1 pointLast.2).2 "12" rfl

/-- A number that ends in a point is not one token. -/
theorem numbers_not_whole :
    ¬∀ text, isNumber text → text.toList.head? ≠ some '-' →
      (scan text).tokens =
        [{ line := 0, column := 0, text, kind := .number }] := by
  intro whole
  exact absurd (whole "1." (by decide +kernel) (by decide +kernel))
    (by decide +kernel)

end Numbers

end ComponentLang.Scan
