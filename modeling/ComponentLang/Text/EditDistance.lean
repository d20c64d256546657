namespace ComponentLang.Text

/-- The row of the empty run: every leading part has to be inserted. -/
def firstRow (target : List Char) : List Nat :=
  List.range (target.length + 1)

/-- The entries of the next row behind `left`, its entry for the part of the
target passed so far. `corner` is the entry of the row above for that part and
`above` holds the entries behind it. -/
def nextEntries (char : Char) (left corner : Nat) :
    List Char → List Nat → List Nat
  | goal :: target, up :: above =>
      let entry :=
        min (min (left + 1) (up + 1)) (if char = goal then corner else corner + 1)
      entry :: nextEntries char entry up target above
  | _, _ => []

/-- A row holds the distances of one run to the leading parts of `target`. -/
def nextRow (target : List Char) (row : List Nat) (char : Char) : List Nat :=
  match row with
  | [] => []
  | corner :: above =>
      (corner + 1) :: nextEntries char (corner + 1) corner target above

def editDistance (source target : List Char) : Nat :=
  (source.foldl (nextRow target) (firstRow target)).getLastD 0

example : editDistance "kitten".toList "sitting".toList = 3 := by decide
example : editDistance "".toList "abc".toList = 3 := by decide
example : editDistance "abc".toList "".toList = 3 := by decide
example : editDistance "ab".toList "ba".toList = 2 := by decide

end ComponentLang.Text
