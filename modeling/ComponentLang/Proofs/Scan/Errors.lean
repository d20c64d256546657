import ComponentLang.Scan.Document

namespace ComponentLang.Scan

def Shape.takesLine : Shape → Bool
  | .comment | .remark | .quoted false | .block false => true
  | .word | .quoted true | .block true => false

theorem splitPiece_of_takesLine {char : Char} {rest : List Char}
    (takes : (splitPiece char rest).1.shape.takesLine) :
    (splitPiece char rest).2 = [] := by
  revert takes
  fun_cases splitPiece char rest with
  | case1 | case2 | case4 | case6 => exact fun _ => rfl
  | _ => exact fun takes => absurd takes Bool.false_ne_true

theorem errors_sublist_cut (row column : Nat) (line : List Char) :
    ((scanPart row column line).errors.map LexicalError.token ++
      (scanPart row column line).opening.toList).Sublist
        (scanPart row column line).tokens := by
  match line with
  | [] => simp [scanPart_nil]
  | char :: rest =>
      by_cases gap : isGap char
      · rw [scanPart_cons_of_isGap gap]
        exact errors_sublist_cut row (column + 1) rest
      · have shorter := length_splitPiece char rest
        have back := errors_sublist_cut row
          (column + Text.units (splitPiece char rest).1.chars)
          (splitPiece char rest).2
        rw [scanPart_cons_of_not_isGap gap]
        simp only [Placed.error?, Placed.opening?]
        cases shape_eq : (splitPiece char rest).1.shape with
        | quoted closed =>
            cases closed with
            | true => exact back.cons _
            | false => exact back.cons_cons _
        | block closed =>
            cases closed with
            | true => exact back.cons _
            | false =>
                rw [splitPiece_of_takesLine (by rw [shape_eq]; rfl)]
                simp [scanPart_nil]
        | _ => exact back.cons _
termination_by line.length
decreasing_by
  · exact Nat.lt_succ_self _
  · exact length_splitPiece char rest

theorem errors_sublist_scanLine (row : Nat) (opening : Option Token)
    (line : List Char) :
    ((scanLine row opening line).errors.map LexicalError.token ++
      (scanLine row opening line).opening.toList).Sublist
        (opening.toList ++ (scanLine row opening line).tokens) := by
  cases opening with
  | none => exact errors_sublist_cut row 0 line
  | some token =>
      unfold scanLine
      split
      · contradiction
      · next first first_eq =>
          cases first_eq
          split
          · simp
          · next front left _ =>
              have part := errors_sublist_cut row (Text.units front) left
              exact (part.cons _).cons _

theorem errors_sublist_scanLines (row : Nat) (opening : Option Token)
    (lines : List (List Char)) :
    ((scanLines row opening lines).errors.map LexicalError.token).Sublist
      (opening.toList ++ (scanLines row opening lines).tokens) := by
  induction lines generalizing row opening with
  | nil => cases opening <;> simp
  | cons line rest induction =>
      rw [scanLines_cons]
      simp only [List.map_append]
      have here := errors_sublist_scanLine row opening line
      have later := induction (row + 1) (scanLine row opening line).opening
      rw [← List.append_assoc]
      refine List.Sublist.trans ?_ (here.append_right _)
      rw [List.append_assoc]
      exact later.append_left _

theorem errors_sublist_tokens (text : String) :
    ((scan text).errors.map LexicalError.token).Sublist (scan text).tokens :=
  errors_sublist_scanLines 0 none (Text.lines text.toList)

end ComponentLang.Scan
