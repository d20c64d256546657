import ComponentLang.Proofs.Scan.Layout

namespace ComponentLang.Scan

/-- What the lines from `row` on give, given the string open before them. A
string that they leave open is no error yet. -/
def scanRows (row : Nat) (opening : Option Token) :
    List (List Char) → LineScan
  | [] => ⟨[], [], opening⟩
  | line :: rest =>
      let part := scanLine row opening line
      let others := scanRows (row + 1) part.opening rest
      ⟨part.tokens ++ others.tokens, part.errors ++ others.errors,
        others.opening⟩

theorem scanLines_append (row : Nat) (opening : Option Token)
    (front back : List (List Char)) :
    scanLines row opening (front ++ back) =
      ⟨(scanRows row opening front).tokens ++
          (scanLines (row + front.length)
            (scanRows row opening front).opening back).tokens,
        (scanRows row opening front).errors ++
          (scanLines (row + front.length)
            (scanRows row opening front).opening back).errors⟩ := by
  induction front generalizing row opening with
  | nil => rfl
  | cons line rest induction =>
      rw [List.cons_append, scanLines_cons, induction, List.length_cons,
        Nat.add_comm rest.length 1, ← Nat.add_assoc]
      simp only [scanRows, List.append_assoc]

/-- With nothing behind, a string that is still open is an error. -/
theorem scanLines_eq_scanRows (row : Nat) (opening : Option Token)
    (lines : List (List Char)) :
    scanLines row opening lines =
      ⟨(scanRows row opening lines).tokens,
        (scanRows row opening lines).errors ++
          (scanRows row opening lines).opening.toList.map
            fun token => ⟨true, token⟩⟩ := by
  have whole := scanLines_append row opening lines []
  simpa using whole

theorem line_of_mem_scanRows {row : Nat} {opening : Option Token}
    {lines : List (List Char)} {token : Token}
    (member : token ∈ (scanRows row opening lines).tokens) :
    row ≤ token.line ∧ token.line < row + lines.length := by
  have laid := laidLines_scanLines row opening lines
  rw [scanLines_eq_scanRows] at laid
  obtain ⟨index, line, line_eq, found⟩ := laid.getElem?_line token member
  obtain ⟨bound, -⟩ := List.getElem?_eq_some_iff.mp found
  omega

theorem line_of_mem_scan {text : String} {token : Token}
    (member : token ∈ (scan text).tokens) :
    token.line < (Text.lines text.toList).length := by
  rw [scan, scanLines_eq_scanRows] at member
  have within := (line_of_mem_scanRows member).2
  rwa [Nat.zero_add] at within

theorem row_le_of_mem_scanLines {row : Nat} {opening : Option Token}
    {lines : List (List Char)} {token : Token}
    (member : token ∈ (scanLines row opening lines).tokens) :
    row ≤ token.line :=
  (laidLines_scanLines row opening lines).row_le token member

theorem count_le_of_mem_scanLines_drop {count : Nat} {opening : Option Token}
    {lines : List (List Char)} {token : Token}
    (member : token ∈ (scanLines (0 + (lines.take count).length) opening
      (lines.drop count)).tokens) : count ≤ token.line := by
  have least := row_le_of_mem_scanLines member
  rw [List.length_take] at least
  by_cases all : lines.length ≤ count
  · rw [List.drop_eq_nil_of_le all, scanLines_nil] at member
    nomatch member
  · omega

theorem exists_scan_of_take_eq {first second : String} {count : Nat}
    (same : (Text.lines first.toList).take count =
      (Text.lines second.toList).take count) :
    ∃ front left right,
      (scan first).tokens = front ++ left ∧
      (scan second).tokens = front ++ right ∧
      (∀ token ∈ front, token.line < count) ∧
      (∀ token ∈ left, count ≤ token.line) ∧
      ∀ token ∈ right, count ≤ token.line := by
  have cut (text : String) : (scan text).tokens =
      (scanRows 0 none ((Text.lines text.toList).take count)).tokens ++
        (scanLines (0 + ((Text.lines text.toList).take count).length)
          (scanRows 0 none ((Text.lines text.toList).take count)).opening
          ((Text.lines text.toList).drop count)).tokens := by
    have whole := scanLines_append 0 none ((Text.lines text.toList).take count)
      ((Text.lines text.toList).drop count)
    rw [List.take_append_drop] at whole
    exact congrArg Scan.tokens whole
  have front := cut second
  rw [← same] at front
  refine ⟨_, _, _, cut first, front, ?_,
    fun token member => count_le_of_mem_scanLines_drop member,
    fun token member => count_le_of_mem_scanLines_drop (same ▸ member)⟩
  intro token member
  have bound := (line_of_mem_scanRows member).2
  have fits := List.length_take_le count (Text.lines first.toList)
  omega

end ComponentLang.Scan
