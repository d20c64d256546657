import ComponentLang.StableSort
import ComponentLang.Text.Blank
import ComponentLang.Text.EditDistance

namespace ComponentLang.Suggestion

def bound (length : Nat) : Nat :=
  if length ≤ 3 then 1
  else if length ≤ 6 then 2
  else if length ≤ 10 then 3
  else 4

structure Match where
  distance : Nat
  text : String
  deriving DecidableEq, Repr

/-- Nearer matches come first, then those with fewer bytes, then those earlier
in the order of their characters. -/
def Match.le (first second : Match) : Bool :=
  if first.distance ≠ second.distance then first.distance < second.distance
  else if first.text.utf8ByteSize ≠ second.text.utf8ByteSize then
    first.text.utf8ByteSize < second.text.utf8ByteSize
  else !(second.text < first.text)

def nearby (word : List Char) (candidates : List String) : List Match :=
  candidates.filterMap fun candidate =>
    if candidate.isEmpty || candidate.toList == word then none
    else
      let distance := Text.editDistance word candidate.toList
      if distance ≤ bound word.length then some ⟨distance, candidate⟩ else none

/-- The best three candidates for a word, whose outer blanks do not count. -/
def suggest (needle : String) (candidates : List String) : List String :=
  let word := Text.trimBlanks needle.toList
  if word.isEmpty then []
  else
    ((StableSort.sort Match.le (nearby word candidates).eraseDups).take 3).map
      (·.text)

def didYouMean (needle : String) (candidates : List String) : Option String :=
  match suggest needle candidates with
  | [] => none
  | [only] => some ("did you mean `" ++ only ++ "`?")
  | several =>
      some ("did you mean one of: " ++
        ", ".intercalate (several.map fun text => "`" ++ text ++ "`") ++ "?")

end ComponentLang.Suggestion
