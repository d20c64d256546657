import ComponentLang.Vocabulary.Keyword
import ComponentLang.Vocabulary.Operator

namespace ComponentLang

inductive Terminal where
  | keyword (word : Keyword)
  | operator (sign : Operator)
  deriving DecidableEq, Repr

namespace Terminal

instance : Coe Keyword Terminal := ⟨.keyword⟩

instance : Coe Operator Terminal := ⟨.operator⟩

def spelling : Terminal → String
  | .keyword word => word.spelling
  | .operator sign => sign.spelling

def ofSpelling? (text : String) : Option Terminal :=
  (Keyword.ofSpelling? text).map .keyword <|>
    (Operator.ofSpelling? text).map .operator

def find? (candidates : List Terminal) (text : String) : Option Terminal :=
  candidates.find? fun candidate => text == candidate.spelling

theorem spelling_of_find?_eq_some {candidates : List Terminal} {text : String}
    {terminal : Terminal} (found : find? candidates text = some terminal) :
    terminal.spelling = text := by
  have same := List.find?_some found
  simpa using (beq_iff_eq.mp same).symm

end Terminal

end ComponentLang
