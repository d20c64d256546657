import ComponentLang.Scan.Document

namespace ComponentLang.Scan

theorem unitWidth_of_isGap {char : Char} (gap : isGap char) :
    Text.unitWidth char = 1 := by
  simp only [isGap, Bool.or_eq_true, beq_iff_eq] at gap
  rcases gap with rfl | rfl <;> decide

/-- Whether the token covers exactly the characters `front`, starting at
`column` in line `row`. -/
structure Covers (row column : Nat) (front : List Char) (token : Token) :
    Prop where
  line : token.line = row
  column : token.column = column
  text : token.text.toList = front

theorem Covers.length {row column : Nat} {front : List Char} {token : Token}
    (covers : Covers row column front token) :
    token.length = Text.units front := by
  rw [Token.length, covers.text]

/-- The part of line `row` from `column` on as gaps and tokens. An empty token
stands for an empty line of a string, and has the line for itself. -/
inductive Laid (row : Nat) : Nat → List Char → List Token → Prop where
  | done : Laid row column [] []
  | hollow {token : Token} (covers : Covers row column [] token) :
      Laid row column [] [token]
  | gap {tokens : List Token} (blank : isGap char)
      (rest : Laid row (column + 1) line tokens) :
      Laid row column (char :: line) tokens
  | token {token : Token} {tokens : List Token}
      (covers : Covers row column front token) (nonempty : front ≠ [])
      (rest : Laid row (column + Text.units front) line tokens) :
      Laid row column (front ++ line) (token :: tokens)

namespace Laid

variable {row column : Nat} {line : List Char} {tokens : List Token}

theorem piece (laid : Laid row column line tokens) :
    ∀ token ∈ tokens, ∃ front back,
      line = front ++ token.text.toList ++ back ∧ token.line = row ∧
        token.column = column + Text.units front := by
  induction laid with
  | done => nofun
  | hollow covers =>
      intro token member
      rw [List.mem_singleton] at member
      subst member
      exact ⟨[], [], by simp [covers.text], covers.line, by simp [covers.column]⟩
  | @gap char column line tokens gap rest induction =>
      intro token member
      obtain ⟨front, back, line_eq, row_eq, column_eq⟩ := induction token member
      refine ⟨char :: front, back, by simp [line_eq], row_eq, ?_⟩
      rw [column_eq, Text.units_cons, unitWidth_of_isGap gap]
      omega
  | @token column front line first tokens covers nonempty rest induction =>
      intro token member
      rcases List.mem_cons.mp member with rfl | member
      · exact ⟨[], line, by simp [covers.text], covers.line,
          by simp [covers.column]⟩
      · obtain ⟨inner, back, line_eq, row_eq, column_eq⟩ :=
          induction token member
        refine ⟨front ++ inner, back, by simp [line_eq], row_eq, ?_⟩
        rw [column_eq, Text.units_append]
        omega

theorem column_le (laid : Laid row column line tokens) :
    ∀ token ∈ tokens, column ≤ token.column := by
  intro token member
  obtain ⟨front, back, -, -, column_eq⟩ := laid.piece token member
  omega

theorem line_eq (laid : Laid row column line tokens) :
    ∀ token ∈ tokens, token.line = row := by
  intro token member
  obtain ⟨front, back, -, row_eq, -⟩ := laid.piece token member
  exact row_eq

theorem apart (laid : Laid row column line tokens) :
    tokens.Pairwise fun first second =>
      first.column < second.column ∧
        first.column + first.length ≤ second.column := by
  induction laid with
  | done => exact .nil
  | hollow => exact List.pairwise_singleton _ _
  | gap _ _ induction => exact induction
  | @token column front line first tokens covers nonempty rest induction =>
      refine List.pairwise_cons.mpr ⟨?_, induction⟩
      intro second member
      have behind := rest.column_le second member
      have wide : 0 < Text.units front := by
        cases front with
        | nil => exact absurd rfl nonempty
        | cons char front =>
            have := Text.unitWidth_pos char
            rw [Text.units_cons]
            omega
      rw [covers.length, covers.column]
      omega

theorem covered (laid : Laid row column line tokens) :
    ∀ front char back, line = front ++ char :: back →
      isGap char ∨ ∃ token ∈ tokens,
        token.column ≤ column + Text.units front ∧
          column + Text.units (front ++ [char]) ≤
            token.column + token.length := by
  induction laid with
  | done =>
      intro front char back line_eq
      exact absurd line_eq.symm (by simp)
  | hollow =>
      intro front char back line_eq
      exact absurd line_eq.symm (by simp)
  | @gap gapChar column line tokens gap rest induction =>
      intro front char back line_eq
      cases front with
      | nil =>
          obtain ⟨rfl, -⟩ := List.cons.inj line_eq
          exact .inl gap
      | cons head front =>
          obtain ⟨rfl, tail_eq⟩ := List.cons.inj line_eq
          have width := unitWidth_of_isGap gap
          rcases induction front char back tail_eq with
            isGap | ⟨token, member, before, behind⟩
          · exact .inl isGap
          · refine .inr ⟨token, member, ?_, ?_⟩
            · rw [Text.units_cons]
              omega
            · rw [List.cons_append, Text.units_cons]
              omega
  | @token column piece line token tokens covers nonempty rest induction =>
      intro front char back line_eq
      -- The character stands in the first token, or in the line behind it.
      rcases List.append_eq_append_iff.mp line_eq with
        ⟨inner, rfl, tail_eq⟩ | ⟨inner, rfl, tail_eq⟩
      · rcases induction inner char back tail_eq with
          isGap | ⟨other, member, before, behind⟩
        · exact .inl isGap
        · refine .inr ⟨other, List.mem_cons_of_mem token member, ?_, ?_⟩
          · rw [Text.units_append]
            omega
          · rw [List.append_assoc, Text.units_append]
            omega
      · cases inner with
        | nil =>
            rcases induction [] char back tail_eq.symm with
              isGap | ⟨other, member, before, behind⟩
            · exact .inl isGap
            · refine .inr ⟨other, List.mem_cons_of_mem token member, ?_, ?_⟩
              · simp only [List.append_nil, Text.units_nil] at before ⊢
                omega
              · simp only [List.append_nil, List.nil_append, Text.units_append]
                  at behind ⊢
                omega
        | cons head inner =>
            obtain ⟨rfl, -⟩ := List.cons.inj tail_eq
            refine .inr ⟨token, List.mem_cons_self, ?_, ?_⟩
            · rw [covers.column]
              omega
            · rw [covers.column, covers.length]
              simp only [Text.units_append, Text.units_cons, Text.units_nil]
              omega

end Laid

/-! The tokens of a scan lie so. -/

theorem laid_cut (row column : Nat) (line : List Char) :
    Laid row column line ((cut column line).map (Placed.token row)) := by
  match line with
  | [] =>
      rw [cut_nil]
      exact .done
  | char :: rest =>
      by_cases gap : isGap char
      · rw [cut_cons_of_isGap column rest gap]
        exact .gap gap (laid_cut row (column + 1) rest)
      · have shorter := length_splitPiece char rest
        have back := laid_cut row
          (column + Text.units (splitPiece char rest).1.chars)
          (splitPiece char rest).2
        rw [cut_cons_of_not_isGap column rest gap, List.map_cons,
          ← splitPiece_append char rest]
        refine .token ⟨rfl, rfl, ?_⟩ (splitPiece_ne_nil char rest) ?_
        · simp [Placed.token, Piece.text]
        · exact back
termination_by line.length
decreasing_by
  · exact Nat.lt_succ_self _
  · exact length_splitPiece char rest

theorem ne_nil_of_splitTripleQuote {line front left : List Char}
    (found : splitTripleQuote line = some (front, left)) : front ≠ [] := by
  fun_cases splitTripleQuote line with
  | case1 => simp [splitTripleQuote] at found
  | case2 rest =>
      obtain ⟨rfl, -⟩ := by simpa [splitTripleQuote] using found
      exact List.cons_ne_nil _ _
  | case3 char rest notTriple =>
      rw [splitTripleQuote.eq_3 char rest notTriple] at found
      obtain ⟨inner, -, rfl⟩ := by simpa using found
      exact List.cons_ne_nil _ _

theorem laid_scanLine (row : Nat) (opening : Option Token) (line : List Char) :
    Laid row 0 line (scanLine row opening line).tokens := by
  cases opening with
  | none => exact laid_cut row 0 line
  | some token =>
      unfold scanLine
      split
      · contradiction
      · cases split_eq : splitTripleQuote line with
        | none =>
            have covers : Covers row 0 line (stringToken row line) :=
              ⟨rfl, rfl, by simp [stringToken]⟩
            cases line with
            | nil => exact .hollow covers
            | cons char rest =>
                have laid := Laid.token covers (List.cons_ne_nil _ _) .done
                rwa [List.append_nil] at laid
        | some parts =>
            obtain ⟨front, left⟩ := parts
            have covers : Covers row 0 front (stringToken row front) :=
              ⟨rfl, rfl, by simp [stringToken]⟩
            have back := laid_cut row (0 + Text.units front) left
            rw [← splitTripleQuote_append split_eq]
            rw [Nat.zero_add] at back
            refine .token covers (ne_nil_of_splitTripleQuote split_eq) ?_
            simpa [scanPart] using back

/-- The lines from `row` on and the tokens on them, line by line. -/
inductive LaidLines : Nat → List (List Char) → List Token → Prop where
  | nil : LaidLines row [] []
  | cons {front back : List Token} (first : Laid row 0 line front)
      (rest : LaidLines (row + 1) lines back) :
      LaidLines row (line :: lines) (front ++ back)

theorem laidLines_scanLines (row : Nat) (opening : Option Token)
    (lines : List (List Char)) :
    LaidLines row lines (scanLines row opening lines).tokens := by
  induction lines generalizing row opening with
  | nil =>
      rw [scanLines_nil]
      exact .nil
  | cons line rest induction =>
      rw [scanLines_cons]
      exact .cons (laid_scanLine row opening line) (induction _ _)

namespace LaidLines

variable {row : Nat} {lines : List (List Char)} {tokens : List Token}

theorem row_le (laid : LaidLines row lines tokens) :
    ∀ token ∈ tokens, row ≤ token.line := by
  induction laid with
  | nil => nofun
  | cons first rest induction =>
      intro token member
      rcases List.mem_append.mp member with member | member
      · exact Nat.le_of_eq (first.line_eq token member).symm
      · exact Nat.le_of_succ_le (induction token member)

theorem laid_filter (laid : LaidLines row lines tokens) :
    ∀ index line, lines[index]? = some line →
      Laid (row + index) 0 line
        (tokens.filter fun token => token.line == row + index) := by
  induction laid with
  | nil => simp
  | @cons row line lines front back first rest induction =>
      intro index found line_eq
      rw [List.filter_append]
      cases index with
      | zero =>
          obtain rfl : line = found := by simpa using line_eq
          have front_eq : front.filter (fun token => token.line == row + 0) =
              front := by
            rw [List.filter_eq_self]
            intro token member
            simpa using first.line_eq token member
          have back_eq : back.filter (fun token => token.line == row + 0) =
              [] := by
            rw [List.filter_eq_nil_iff]
            intro token member
            have := rest.row_le token member
            simp only [beq_iff_eq]
            omega
          rw [front_eq, back_eq, List.append_nil]
          exact first
      | succ index =>
          have front_eq :
              front.filter (fun token => token.line == row + (index + 1)) =
                [] := by
            rw [List.filter_eq_nil_iff]
            intro token member
            have := first.line_eq token member
            simp only [beq_iff_eq]
            omega
          rw [front_eq, List.nil_append, ← Nat.add_assoc,
            Nat.add_right_comm row index 1]
          exact induction index found (by simpa using line_eq)

theorem getElem?_line (laid : LaidLines row lines tokens) :
    ∀ token ∈ tokens, ∃ index line,
      token.line = row + index ∧ lines[index]? = some line := by
  induction laid with
  | nil => nofun
  | @cons row line lines front back first rest induction =>
      intro token member
      rcases List.mem_append.mp member with member | member
      · exact ⟨0, line, by simp [first.line_eq token member], rfl⟩
      · obtain ⟨index, found, row_eq, line_eq⟩ := induction token member
        exact ⟨index + 1, found, by omega, by simpa using line_eq⟩

theorem ordered (laid : LaidLines row lines tokens) :
    tokens.Pairwise fun first second =>
      first.line < second.line ∨
        first.line = second.line ∧ first.column < second.column ∧
          first.column + first.length ≤ second.column := by
  induction laid with
  | nil => exact .nil
  | cons first rest induction =>
      refine List.pairwise_append.mpr ⟨?_, induction, ?_⟩
      · refine first.apart.imp_of_mem ?_
        intro left right leftMember rightMember apart
        refine .inr ⟨?_, apart⟩
        rw [first.line_eq left leftMember, first.line_eq right rightMember]
      · intro left leftMember right rightMember
        have := rest.row_le right rightMember
        rw [first.line_eq left leftMember]
        exact .inl this

end LaidLines

theorem laidLines_scan (text : String) :
    LaidLines 0 (Text.lines text.toList) (scan text).tokens :=
  laidLines_scanLines 0 none (Text.lines text.toList)

theorem ordered_scan (text : String) :
    (scan text).tokens.Pairwise fun first second =>
      first.line < second.line ∨
        first.line = second.line ∧ first.column < second.column := by
  refine (laidLines_scan text).ordered.imp ?_
  rintro first second (above | ⟨same, before, -⟩)
  · exact .inl above
  · exact .inr ⟨same, before⟩

end ComponentLang.Scan
