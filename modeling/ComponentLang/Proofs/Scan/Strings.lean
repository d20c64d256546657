import ComponentLang.Proofs.Scan.Quotes
import ComponentLang.Proofs.Scan.Shift

namespace ComponentLang.Scan

def stringAt (row column : Nat) (chars : List Char) : Token where
  line := row
  column
  text := String.ofList chars
  kind := .string

def wholeLines (row : Nat) (lines : List (List Char)) : List Token :=
  lines.mapIdx fun index line => stringAt (row + index) 0 line

/-- What a text is from `column` of line `row` on, where the first of `lines` is
what is left of that line: its tokens, and its errors with their messages. -/
inductive Tokenizes : Nat → Nat → List (List Char) →
    List Token → List (String × Token) → Prop
  | done {row column : Nat} : Tokenizes row column [] [] []
  | turn {row column : Nat} {lines : List (List Char)} {tokens : List Token}
      {errors : List (String × Token)}
      (below : Tokenizes (row + 1) 0 lines tokens errors) :
      Tokenizes row column ([] :: lines) tokens errors
  | gap {row column : Nat} {char : Char} {rest : List Char}
      {lines : List (List Char)} {tokens : List Token}
      {errors : List (String × Token)} (blank : isGap char)
      (later : Tokenizes row (column + 1) (rest :: lines) tokens errors) :
      Tokenizes row column ((char :: rest) :: lines) tokens errors
  /-- What is no string has no error. -/
  | plain {row column : Nat} {char : Char} {rest left : List Char}
      {piece : Piece} {lines : List (List Char)} {tokens : List Token}
      {errors : List (String × Token)} (solid : isGap char = false)
      (unquoted : char ≠ '"') (split_eq : splitPiece char rest = (piece, left))
      (later : Tokenizes row (column + Text.units piece.chars) (left :: lines)
        tokens errors) :
      Tokenizes row column ((char :: rest) :: lines)
        (Placed.token row ⟨column, piece⟩ :: tokens) errors
  /-- A string of one line goes up to the quote that ends it. -/
  | quoted {row column : Nat} {rest front left : List Char}
      {lines : List (List Char)} {tokens : List Token}
      {errors : List (String × Token)} (single : ¬['"', '"'] <+: rest)
      (cuts : Cuts EndsQuote rest (some (front, left)))
      (later : Tokenizes row (column + Text.units ('"' :: front))
        (left :: lines) tokens errors) :
      Tokenizes row column (('"' :: rest) :: lines)
        (stringAt row column ('"' :: front) :: tokens) errors
  /-- Without such a quote it takes the rest of the line and is an error. -/
  | unquoted {row column : Nat} {rest : List Char} {lines : List (List Char)}
      {tokens : List Token} {errors : List (String × Token)}
      (single : ¬['"', '"'] <+: rest) (cuts : Cuts EndsQuote rest none)
      (below : Tokenizes (row + 1) 0 lines tokens errors) :
      Tokenizes row column (('"' :: rest) :: lines)
        (stringAt row column ('"' :: rest) :: tokens)
        (("unterminated string literal", stringAt row column ('"' :: rest)) ::
          errors)
  /-- A string of three quotes that ends on its line. -/
  | block {row column : Nat} {rest front left : List Char}
      {lines : List (List Char)} {tokens : List Token}
      {errors : List (String × Token)}
      (cuts : Cuts EndsBlock rest (some (front, left)))
      (later : Tokenizes row (column + Text.units ('"' :: '"' :: '"' :: front))
        (left :: lines) tokens errors) :
      Tokenizes row column (('"' :: '"' :: '"' :: rest) :: lines)
        (stringAt row column ('"' :: '"' :: '"' :: front) :: tokens) errors
  /-- One that ends further down takes the lines in between, and the first part
  of the first line that has three quotes. -/
  | blockBelow {row column : Nat} {rest last front left : List Char}
      {between lines : List (List Char)} {tokens : List Token}
      {errors : List (String × Token)} (open_rest : ¬tripleQuote <:+: rest)
      (open_between : ∀ line ∈ between, ¬tripleQuote <:+: line)
      (cuts : Cuts EndsBlock last (some (front, left)))
      (later : Tokenizes (row + 1 + between.length) (Text.units front)
        (left :: lines) tokens errors) :
      Tokenizes row column
        (('"' :: '"' :: '"' :: rest) :: between ++ last :: lines)
        (stringAt row column ('"' :: '"' :: '"' :: rest) ::
          wholeLines (row + 1) between ++
            stringAt (row + 1 + between.length) 0 front :: tokens)
        errors
  /-- One that does not end takes the rest of the text and is an error. -/
  | blockOpen {row column : Nat} {rest : List Char} {below : List (List Char)}
      (open_rest : ¬tripleQuote <:+: rest)
      (open_below : ∀ line ∈ below, ¬tripleQuote <:+: line) :
      Tokenizes row column (('"' :: '"' :: '"' :: rest) :: below)
        (stringAt row column ('"' :: '"' :: '"' :: rest) ::
          wholeLines (row + 1) below)
        [("unterminated triple-quoted string literal",
          stringAt row column ('"' :: '"' :: '"' :: rest))]

/-! How a piece that begins with a quote is found. -/

theorem splitPiece_of_single {rest : List Char} (single : ¬['"', '"'] <+: rest) :
    splitPiece '"' rest =
      match splitQuote rest with
      | some (front, left) => (⟨.quoted true, '"' :: front⟩, left)
      | none => (⟨.quoted false, '"' :: rest⟩, []) := by
  refine splitPiece.eq_4 rest ?_
  rintro further rfl
  exact single (List.prefix_append ['"', '"'] further)

/-! The rest of a text. -/

def scanRest (row column : Nat) : List (List Char) → Scan
  | [] => ⟨[], []⟩
  | line :: lines =>
      let part := scanPart row column line
      let below := scanLines (row + 1) part.opening lines
      ⟨part.tokens ++ below.tokens, part.errors ++ below.errors⟩

theorem scanRest_eq_scanLines (row : Nat) (lines : List (List Char)) :
    scanRest row 0 lines = scanLines row none lines := by
  cases lines with
  | nil => exact (scanLines_nil row none).symm
  | cons line lines => exact (scanLines_cons row none line lines).symm

theorem scanRest_turn (row column : Nat) (lines : List (List Char)) :
    scanRest row column ([] :: lines) = scanRest (row + 1) 0 lines := by
  rw [scanRest_eq_scanLines, scanRest, scanPart_nil]
  rfl

theorem scanRest_gap {char : Char} (blank : isGap char) (row column : Nat)
    (rest : List Char) (lines : List (List Char)) :
    scanRest row column ((char :: rest) :: lines) =
      scanRest row (column + 1) (rest :: lines) := by
  rw [scanRest, scanRest, scanPart_cons_of_isGap blank]

theorem scanRest_piece {char : Char} {rest left : List Char} {piece : Piece}
    (solid : isGap char = false) (split_eq : splitPiece char rest = (piece, left))
    (closed : piece.shape ≠ .block false) (row column : Nat)
    (lines : List (List Char)) :
    scanRest row column ((char :: rest) :: lines) =
      let first : Placed := ⟨column, piece⟩
      let later := scanRest row (column + Text.units piece.chars) (left :: lines)
      ⟨first.token row :: later.tokens,
        (first.error? row).toList ++ later.errors⟩ := by
  have no_gap : ¬isGap char := by simp [solid]
  have unopened : Placed.opening? row ⟨column, piece⟩ = none :=
    Placed.opening?_eq_none closed row
  simp only [scanRest, scanPart_cons_of_not_isGap no_gap, split_eq, unopened,
    Option.none_or, List.cons_append, List.append_assoc]

theorem scanRest_open_block {rest : List Char}
    (open_rest : ¬tripleQuote <:+: rest) (row column : Nat)
    (lines : List (List Char)) :
    scanRest row column (('"' :: '"' :: '"' :: rest) :: lines) =
      let opening := stringAt row column ('"' :: '"' :: '"' :: rest)
      let below := scanLines (row + 1) (some opening) lines
      ⟨opening :: below.tokens, below.errors⟩ := by
  have split_eq : splitPiece '"' ('"' :: '"' :: rest) =
      (⟨.block false, '"' :: '"' :: '"' :: rest⟩, []) := by
    rw [splitPiece, (splitTripleQuote_cuts rest).unique
      (cuts_endsBlock_none_iff.mpr open_rest)]
  have no_gap : ¬isGap '"' := by decide
  simp only [scanRest, scanPart_cons_of_not_isGap no_gap, split_eq, scanPart_nil]
  rfl

/-! Lines inside of a string. -/

section Lines

variable (row : Nat) (opening : Token)

theorem wholeLines_cons (line : List Char) (lines : List (List Char)) :
    wholeLines row (line :: lines) =
      stringAt row 0 line :: wholeLines (row + 1) lines := by
  simp [wholeLines, List.mapIdx_cons, Nat.add_comm, Nat.add_left_comm]

theorem scanLines_between {between : List (List Char)}
    (unclosed : ∀ line ∈ between, ¬tripleQuote <:+: line)
    (lines : List (List Char)) :
    scanLines row (some opening) (between ++ lines) =
      ⟨wholeLines row between ++
          (scanLines (row + between.length) (some opening) lines).tokens,
        (scanLines (row + between.length) (some opening) lines).errors⟩ := by
  induction between generalizing row with
  | nil => rfl
  | cons line between induction =>
      obtain ⟨here, later⟩ := List.forall_mem_cons.mp unclosed
      have missing : splitTripleQuote line = none :=
        (splitTripleQuote_cuts line).unique (cuts_endsBlock_none_iff.mpr here)
      rw [List.cons_append, scanLines_cons, scanLine, missing, wholeLines_cons,
        List.length_cons, Nat.add_comm between.length, ← Nat.add_assoc]
      simp only [induction (row + 1) later]
      rfl

theorem scanLines_closing {line front left : List Char}
    (cuts : Cuts EndsBlock line (some (front, left)))
    (lines : List (List Char)) :
    scanLines row (some opening) (line :: lines) =
      ⟨stringAt row 0 front ::
          (scanRest row (Text.units front) (left :: lines)).tokens,
        (scanRest row (Text.units front) (left :: lines)).errors⟩ := by
  have found : splitTripleQuote line = some (front, left) :=
    (splitTripleQuote_cuts line).unique cuts
  rw [scanLines_cons, scanLine, found]
  rfl

end Lines

/-! The scan and what a text is. -/

theorem Tokenizes.scanRest_eq {row column : Nat} {lines : List (List Char)}
    {tokens : List Token} {errors : List (String × Token)}
    (tokenizes : Tokenizes row column lines tokens errors) :
    (scanRest row column lines).tokens = tokens ∧
      (scanRest row column lines).errors.map
        (fun error => (error.message, error.token)) = errors := by
  induction tokenizes with
  | done => exact ⟨rfl, rfl⟩
  | turn _ induction =>
      rw [scanRest_turn]
      exact induction
  | gap blank _ induction =>
      rw [scanRest_gap blank]
      exact induction
  | @plain row column char rest left piece _ _ _ solid unquoted split_eq _
      induction =>
      have other (shape : Shape) (string : shape.isString) :
          piece.shape ≠ shape := by
        rintro rfl
        have plain := isString_splitPiece unquoted rest
        rw [split_eq, string] at plain
        cases plain
      have no_error : Placed.error? row ⟨column, piece⟩ = none :=
        Placed.error?_eq_none (other (.quoted false) rfl) row
      rw [scanRest_piece solid split_eq (other (.block false) rfl)]
      simp only [no_error]
      exact ⟨congrArg (List.cons _) induction.1, induction.2⟩
  | @quoted row column rest front left _ _ _ single cuts _ induction =>
      have split_eq : splitPiece '"' rest =
          (⟨.quoted true, '"' :: front⟩, left) := by
        rw [splitPiece_of_single single, (splitQuote_cuts rest).unique cuts]
      rw [scanRest_piece rfl split_eq (by simp)]
      exact ⟨congrArg (List.cons _) induction.1, induction.2⟩
  | @unquoted row column rest _ _ _ single cuts _ induction =>
      have split_eq : splitPiece '"' rest = (⟨.quoted false, '"' :: rest⟩, []) := by
        rw [splitPiece_of_single single, (splitQuote_cuts rest).unique cuts]
      rw [scanRest_piece rfl split_eq (by simp), scanRest_turn]
      exact ⟨congrArg (List.cons _) induction.1,
        congrArg (List.cons _) induction.2⟩
  | @block row column rest front left _ _ _ cuts _ induction =>
      have split_eq : splitPiece '"' ('"' :: '"' :: rest) =
          (⟨.block true, '"' :: '"' :: '"' :: front⟩, left) := by
        rw [splitPiece, (splitTripleQuote_cuts rest).unique cuts]
      rw [scanRest_piece rfl split_eq (by simp)]
      exact ⟨congrArg (List.cons _) induction.1, induction.2⟩
  | blockBelow open_rest open_between cuts _ induction =>
      rw [List.cons_append, scanRest_open_block open_rest]
      simp only [scanLines_between _ _ open_between, scanLines_closing _ _ cuts]
      refine ⟨?_, induction.2⟩
      rw [induction.1, List.cons_append]
  | @blockOpen row column rest below open_rest open_below =>
      have whole := scanLines_between (row + 1)
        (stringAt row column ('"' :: '"' :: '"' :: rest)) open_below []
      rw [List.append_nil, scanLines_nil, List.append_nil] at whole
      rw [scanRest_open_block open_rest]
      simp only [whole]
      exact ⟨trivial, rfl⟩

/-- Behind the lines without three quotes comes the first one that has them, or
nothing. -/
theorem exists_closing (lines : List (List Char)) :
    (∀ line ∈ lines, ¬tripleQuote <:+: line) ∨
      ∃ between last front left below, lines = between ++ last :: below ∧
        (∀ line ∈ between, ¬tripleQuote <:+: line) ∧
        Cuts EndsBlock last (some (front, left)) := by
  induction lines with
  | nil => exact .inl (List.forall_mem_nil _)
  | cons line lines induction =>
      match splitTripleQuote line, splitTripleQuote_cuts line with
      | some (front, left), cuts =>
          exact .inr ⟨[], line, front, left, lines, rfl,
            List.forall_mem_nil _, cuts⟩
      | none, cuts =>
          have unclosed := cuts_endsBlock_none_iff.mp cuts
          rcases induction with
            later | ⟨between, last, front, left, below, rfl, later, closing⟩
          · exact .inl (List.forall_mem_cons.mpr ⟨unclosed, later⟩)
          · exact .inr ⟨line :: between, last, front, left, below, rfl,
              List.forall_mem_cons.mpr ⟨unclosed, later⟩, closing⟩

def remaining (lines : List (List Char)) : Nat :=
  lines.length + lines.flatten.length

theorem remaining_cons (line : List Char) (lines : List (List Char)) :
    remaining (line :: lines) = line.length + 1 + remaining lines := by
  rw [remaining, remaining, List.length_cons, List.flatten_cons,
    List.length_append]
  omega

theorem remaining_append (front back : List (List Char)) :
    remaining (front ++ back) = remaining front + remaining back := by
  rw [remaining, remaining, remaining, List.length_append, List.flatten_append,
    List.length_append]
  omega

theorem exists_tokenizes_single {rest : List Char} {lines : List (List Char)}
    (single : ¬['"', '"'] <+: rest) (row column : Nat)
    (shorter : ∀ row column others,
      remaining others < remaining (('"' :: rest) :: lines) →
        ∃ tokens errors, Tokenizes row column others tokens errors) :
    ∃ tokens errors,
      Tokenizes row column (('"' :: rest) :: lines) tokens errors := by
  simp only [remaining_cons, List.length_cons] at shorter
  match splitQuote rest, splitQuote_cuts rest with
  | some (front, left), cuts =>
      have fewer := cuts.length_le
      obtain ⟨tokens, errors, later⟩ := shorter row
        (column + Text.units ('"' :: front)) (left :: lines)
        (by rw [remaining_cons]; omega)
      exact ⟨_, errors, .quoted single cuts later⟩
  | none, cuts =>
      obtain ⟨tokens, errors, below⟩ := shorter (row + 1) 0 lines (by omega)
      exact ⟨_, _, .unquoted single cuts below⟩

theorem exists_tokenizes_block {rest : List Char} {lines : List (List Char)}
    (row column : Nat)
    (shorter : ∀ row column others,
      remaining others < remaining (('"' :: '"' :: '"' :: rest) :: lines) →
        ∃ tokens errors, Tokenizes row column others tokens errors) :
    ∃ tokens errors, Tokenizes row column (('"' :: '"' :: '"' :: rest) :: lines)
      tokens errors := by
  simp only [remaining_cons, List.length_cons] at shorter
  match splitTripleQuote rest, splitTripleQuote_cuts rest with
  | some (front, left), cuts =>
      have fewer := cuts.length_le
      obtain ⟨tokens, errors, later⟩ := shorter row
        (column + Text.units ('"' :: '"' :: '"' :: front)) (left :: lines)
        (by rw [remaining_cons]; omega)
      exact ⟨_, errors, .block cuts later⟩
  | none, cuts =>
      have open_rest := cuts_endsBlock_none_iff.mp cuts
      rcases exists_closing lines with open_below |
        ⟨between, last, front, left, below, rfl, open_between, closing⟩
      · exact ⟨_, _, .blockOpen open_rest open_below⟩
      · have fewer := closing.length_le
        obtain ⟨tokens, errors, later⟩ := shorter (row + 1 + between.length)
          (Text.units front) (left :: below)
          (by rw [remaining_append, remaining_cons, remaining_cons]; omega)
        exact ⟨_, errors, .blockBelow open_rest open_between closing later⟩

theorem exists_tokenizes (row column : Nat) (lines : List (List Char)) :
    ∃ tokens errors, Tokenizes row column lines tokens errors := by
  -- A string may take many lines at once, so what goes down is the whole rest.
  induction size : remaining lines using Nat.strongRecOn
    generalizing row column lines with
  | _ total induction =>
      subst size
      have shorter := fun row column others less =>
        induction (remaining others) less row column others rfl
      match lines with
      | [] => exact ⟨[], [], .done⟩
      | [] :: lines =>
          obtain ⟨tokens, errors, below⟩ := shorter (row + 1) 0 lines
            (by rw [remaining_cons]; omega)
          exact ⟨tokens, errors, .turn below⟩
      | (char :: rest) :: lines =>
          cases gap : isGap char with
          | true =>
              obtain ⟨tokens, errors, later⟩ := shorter row (column + 1)
                (rest :: lines) (by simp [remaining_cons])
              exact ⟨tokens, errors, .gap gap later⟩
          | false =>
              by_cases quote : char = '"'
              · subst quote
                by_cases triple : ['"', '"'] <+: rest
                · obtain ⟨rest, rfl⟩ := triple
                  exact exists_tokenizes_block row column shorter
                · exact exists_tokenizes_single triple row column shorter
              · have less := length_splitPiece char rest
                obtain ⟨tokens, errors, later⟩ := shorter row
                  (column + Text.units (splitPiece char rest).1.chars)
                  ((splitPiece char rest).2 :: lines)
                  (by simpa [remaining_cons] using less)
                exact ⟨_, errors, .plain gap quote rfl later⟩

/-- What the scan of a text gives is what the text is, string by string, and
nothing else is. -/
theorem scan_iff_tokenizes (text : String) (tokens : List Token)
    (errors : List (String × Token)) :
    ((scan text).tokens = tokens ∧
        (scan text).errors.map (fun error => (error.message, error.token)) =
          errors) ↔
      Tokenizes 0 0 (Text.lines text.toList) tokens errors := by
  have scan_eq : scan text = scanRest 0 0 (Text.lines text.toList) :=
    (scanRest_eq_scanLines 0 _).symm
  rw [scan_eq]
  constructor
  · rintro ⟨rfl, rfl⟩
    obtain ⟨tokens, errors, tokenizes⟩ :=
      exists_tokenizes 0 0 (Text.lines text.toList)
    obtain ⟨rfl, rfl⟩ := tokenizes.scanRest_eq
    exact tokenizes
  · exact Tokenizes.scanRest_eq

end ComponentLang.Scan
