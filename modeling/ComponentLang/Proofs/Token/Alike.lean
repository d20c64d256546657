import ComponentLang.Proofs.Grammar.Terminals
import ComponentLang.Proofs.Token.Pairing

namespace ComponentLang

/-- Whether the grammar can read anything into a spelling. -/
def isWord (text : String) : Bool :=
  (Terminal.find? Terminal.lookedFor text).isSome ||
    (BuiltinType.ofSpelling? text).isSome || Literal.isIdentifier text

theorem isWord_eq_false_iff {text : String} :
    isWord text = false ↔
      Terminal.find? Terminal.lookedFor text = none ∧
        BuiltinType.ofSpelling? text = none ∧
        Literal.isIdentifier text = false := by
  simp [isWord, and_assoc]

namespace Token

structure SameButText (first second : Token) : Prop where
  line : first.line = second.line
  column : first.column = second.column
  length : first.length = second.length
  kind : first.kind = second.kind
  modifiers : first.modifiers = second.modifiers

/-- Equal but for the texts of strings, and those are no words. -/
structure Alike (first second : Token) : Prop extends
    SameButText first second where
  text : first.text = second.text ∨
    first.kind = .string ∧ isWord first.text = false ∧
      isWord second.text = false

theorem Alike.refl (token : Token) : Alike token token :=
  ⟨⟨rfl, rfl, rfl, rfl, rfl⟩, .inl rfl⟩

namespace Alike

variable {first second : Token}

theorem eq_of_text (alike : Alike first second)
    (same : first.text = second.text) : first = second := by
  cases first
  cases second
  cases alike.line
  cases alike.column
  cases alike.kind
  cases alike.modifiers
  cases same
  rfl

theorem text_of_kind (alike : Alike first second)
    (other : first.kind ≠ .string) : first.text = second.text := by
  rcases alike.text with same | ⟨string, -, -⟩
  · exact same
  · exact absurd string other

theorem find?_eq (alike : Alike first second) {candidates : List Terminal}
    (listed : Terminal.areLookedFor candidates) :
    Terminal.find? candidates first.text =
      Terminal.find? candidates second.text := by
  rcases alike.text with same | ⟨-, left, right⟩
  · rw [same]
  · rw [isWord_eq_false_iff] at left right
    rw [Terminal.find?_eq_none_of_areLookedFor listed left.1,
      Terminal.find?_eq_none_of_areLookedFor listed right.1]

theorem builtinType_eq (alike : Alike first second) :
    BuiltinType.ofSpelling? first.text = BuiltinType.ofSpelling? second.text := by
  rcases alike.text with same | ⟨-, left, right⟩
  · rw [same]
  · rw [isWord_eq_false_iff] at left right
    rw [left.2.1, right.2.1]

theorem isIdentifier_eq (alike : Alike first second) :
    Literal.isIdentifier first.text = Literal.isIdentifier second.text := by
  rcases alike.text with same | ⟨-, left, right⟩
  · rw [same]
  · rw [isWord_eq_false_iff] at left right
    rw [left.2.2, right.2.2]

theorem eq_of_isIdentifier (alike : Alike first second)
    (identifier : Literal.isIdentifier first.text) : first = second := by
  rcases alike.text with same | ⟨-, left, -⟩
  · exact alike.eq_of_text same
  · rw [isWord_eq_false_iff] at left
    rw [left.2.2] at identifier
    contradiction

theorem isTrivia_eq (alike : Alike first second) :
    first.isTrivia = second.isTrivia := by
  unfold isTrivia
  rw [← alike.kind]
  by_cases string : first.kind = .string
  · rw [string]
    rfl
  · rw [alike.text_of_kind string]

theorem startsExpression_eq (alike : Alike first second) :
    Expected.startsExpression first = Expected.startsExpression second := by
  by_cases string : first.kind = .string
  · have string' : second.kind = .string := alike.kind ▸ string
    simp [Expected.startsExpression, string, string']
  · rw [alike.eq_of_text (alike.text_of_kind string)]

theorem start_eq (alike : Alike first second) : first.start = second.start := by
  simp only [start, alike.line, alike.column]

theorem stop_eq (alike : Alike first second) : first.stop = second.stop := by
  simp only [stop, alike.line, alike.column, alike.length]

theorem reclassify (alike : Alike first second)
    (same : first.text = second.text) (kind : TokenKind)
    (modifiers : Modifiers) :
    Alike (first.reclassify kind modifiers)
      (second.reclassify kind modifiers) :=
  ⟨⟨alike.line, alike.column, alike.length, rfl, rfl⟩, .inl same⟩

end Alike

end Token

namespace TokenCursor

structure Alike (first second : TokenCursor) : Prop where
  passed : List.Forall₂ Token.Alike first.passed second.passed
  ahead : List.Forall₂ Token.Alike first.ahead second.ahead

namespace Alike

variable {first second : TokenCursor}

theorem paired (alike : Alike first second) :
    Paired Token.Alike first second :=
  ⟨alike.passed, alike.ahead⟩

theorem of_paired (paired : Paired Token.Alike first second) :
    Alike first second :=
  ⟨paired.passed, paired.ahead⟩

theorem current?_rel (alike : Alike first second) :
    Option.Rel Token.Alike first.current? second.current? :=
  alike.paired.current?_rel

theorem next?_rel (alike : Alike first second) :
    Option.Rel (FoundPair Token.Alike) first.next? second.next? :=
  alike.paired.next?_rel fun _ _ => Token.Alike.isTrivia_eq

theorem reclassify (alike : Alike first second)
    (same : first.current? = second.current?) (kind : TokenKind)
    (modifiers : Modifiers) :
    Alike (first.reclassify kind modifiers)
      (second.reclassify kind modifiers) := by
  refine .of_paired (alike.paired.reclassify kind modifiers ?_)
  intro left right left_eq right_eq token
  rw [left_eq, right_eq] at same
  exact token.reclassify (congrArg Token.text (Option.some.inj same)) kind
    modifiers

theorem toList (alike : Alike first second) :
    List.Forall₂ Token.Alike first.toList second.toList :=
  alike.paired.toList

end Alike

end TokenCursor

end ComponentLang
