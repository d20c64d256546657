import ComponentLang.Proofs.Token.Passing
import Mathlib.Data.List.Forall2

namespace ComponentLang

theorem none_or_some_of_rel {α β : Type} {related : α → β → Prop}
    {left : Option α} {right : Option β} (rel : Option.Rel related left right) :
    (left = none ∧ right = none) ∨
      ∃ first second, left = some first ∧ right = some second ∧
        related first second := by
  cases rel with
  | none => exact .inl ⟨rfl, rfl⟩
  | some pair => exact .inr ⟨_, _, rfl, rfl, pair⟩

namespace TokenCursor

variable {related : Token → Token → Prop}

structure Paired (related : Token → Token → Prop)
    (first second : TokenCursor) : Prop where
  passed : List.Forall₂ related first.passed second.passed
  ahead : List.Forall₂ related first.ahead second.ahead

def FoundPair (related : Token → Token → Prop)
    (first second : Token × TokenCursor) : Prop :=
  related first.1 second.1 ∧ Paired related first.2 second.2

theorem paired_ofList {tokens others : List Token}
    (pairs : List.Forall₂ related tokens others) :
    Paired related (ofList tokens) (ofList others) :=
  ⟨.nil, pairs⟩

theorem foundPair_seek {within withinOther wanted wantedOther : Token → Bool}
    (within_eq : ∀ left right, related left right →
      within left = withinOther right)
    (wanted_eq : ∀ left right, related left right →
      wanted left = wantedOther right)
    {passed otherPassed tokens others : List Token}
    (front : List.Forall₂ related passed otherPassed)
    (back : List.Forall₂ related tokens others) :
    Option.Rel (FoundPair related) (seek within wanted passed tokens)
      (seek withinOther wantedOther otherPassed others) := by
  induction back generalizing passed otherPassed with
  | nil => exact .none
  | @cons token other tokens others pair rest induction =>
      unfold seek
      rw [within_eq token other pair, wanted_eq token other pair]
      split
      · exact .none
      · split
        · exact .some ⟨pair, front, .cons pair rest⟩
        · exact induction (.cons pair front)

namespace Paired

variable {first second : TokenCursor} {candidates : List Terminal}

theorem current?_rel (paired : Paired related first second) :
    Option.Rel related first.current? second.current? := by
  obtain ⟨passed, ahead⟩ := first
  obtain ⟨otherPassed, otherAhead⟩ := second
  cases paired.ahead with
  | nil => exact .none
  | cons pair rest => exact .some pair

theorem toList (paired : Paired related first second) :
    List.Forall₂ related first.toList second.toList :=
  List.rel_append (List.rel_reverse paired.passed) paired.ahead

section Spelling

variable (spelled_eq : ∀ left right, related left right →
  Terminal.find? candidates left.text = Terminal.find? candidates right.text)

include spelled_eq in
theorem rescue?_rel (paired : Paired related first second)
    (line_eq : ∀ left right, related left right → left.line = right.line) :
    Option.Rel (Paired related) (first.rescue? candidates)
      (second.rescue? candidates) := by
  obtain ⟨passed, ahead⟩ := first
  obtain ⟨otherPassed, otherAhead⟩ := second
  unfold rescue?
  cases paired.ahead with
  | nil => exact .none
  | @cons current other tokens others pair rest =>
      have found : Option.Rel (FoundPair related)
          (seek (fun token => token.line == current.line)
            (fun token => (Terminal.find? candidates token.text).isSome)
            (current :: passed) tokens)
          (seek (fun token => token.line == other.line)
            (fun token => (Terminal.find? candidates token.text).isSome)
            (other :: otherPassed) others) := by
        apply foundPair_seek
        · intro left right same
          rw [line_eq left right same, line_eq current other pair]
        · exact fun left right same =>
            congrArg Option.isSome (spelled_eq left right same)
        · exact .cons pair paired.passed
        · exact rest
      dsimp only
      generalize seek _ _ _ tokens = left, seek _ _ _ others = right at found ⊢
      cases found with
      | none => exact .none
      | some found => exact .some found.2

variable (trivia_eq : ∀ left right, related left right →
  left.isTrivia = right.isTrivia)

include trivia_eq

theorem next?_rel (paired : Paired related first second) :
    Option.Rel (FoundPair related) first.next? second.next? := by
  obtain ⟨passed, ahead⟩ := first
  obtain ⟨otherPassed, otherAhead⟩ := second
  cases paired.ahead with
  | nil => exact .none
  | cons pair rest =>
      apply foundPair_seek
      · exact fun _ _ _ => rfl
      · exact fun left right pair => congrArg Bool.not (trivia_eq left right pair)
      · exact .cons pair paired.passed
      · exact rest

theorem peek?_rel (paired : Paired related first second) :
    Option.Rel related first.peek? second.peek? := by
  have found := paired.next?_rel trivia_eq
  unfold peek?
  generalize first.next? = left, second.next? = right at found ⊢
  cases found with
  | none => exact .none
  | some found => exact .some found.1

include spelled_eq

theorem peekIs_eq (paired : Paired related first second) :
    first.peekIs candidates = second.peekIs candidates := by
  have found := paired.peek?_rel trivia_eq
  unfold peekIs
  generalize first.peek? = left, second.peek? = right at found ⊢
  cases found with
  | none => rfl
  | some pair => simp only [Option.any_some, spelled_eq _ _ pair]

theorem take?_rel (paired : Paired related first second) :
    Option.Rel (fun left right => left.1 = right.1 ∧ Paired related left.2 right.2)
      (first.take? candidates) (second.take? candidates) := by
  have found := paired.next?_rel trivia_eq
  unfold take?
  generalize first.next? = left, second.next? = right at found ⊢
  cases found with
  | none => exact .none
  | @some left right found =>
      simp only [spelled_eq _ _ found.1]
      cases Terminal.find? candidates right.1.text with
      | none => exact .none
      | some terminal => exact .some ⟨rfl, found.2⟩

end Spelling

section Strings

variable (trivia_eq : ∀ left right, related left right →
    left.isTrivia = right.isTrivia)
  (string_eq : ∀ left right, related left right →
    (left.kind == .string) = (right.kind == .string))

include trivia_eq string_eq

theorem passStringsFrom {last otherLast : TokenCursor}
    {passed otherPassed tokens others : List Token}
    (lasts : Paired related last otherLast)
    (front : List.Forall₂ related passed otherPassed)
    (back : List.Forall₂ related tokens others) :
    Paired related (passStringsFrom last passed tokens)
      (passStringsFrom otherLast otherPassed others) := by
  induction back generalizing last otherLast passed otherPassed with
  | nil => exact lasts
  | @cons token other tokens others pair rest induction =>
      unfold TokenCursor.passStringsFrom
      rw [trivia_eq token other pair, string_eq token other pair]
      split
      · exact induction lasts (.cons pair front)
      · split
        · exact induction ⟨front, .cons pair rest⟩ (.cons pair front)
        · exact lasts

theorem passStrings (paired : Paired related first second) :
    Paired related first.passStrings second.passStrings := by
  obtain ⟨passed, ahead⟩ := first
  obtain ⟨otherPassed, otherAhead⟩ := second
  cases paired.ahead with
  | nil => exact paired
  | cons pair rest =>
      exact passStringsFrom trivia_eq string_eq paired
        (.cons pair paired.passed) rest

end Strings

theorem reclassify (paired : Paired related first second) (kind : TokenKind)
    (modifiers : Modifiers)
    (kept : ∀ left right, first.current? = some left →
      second.current? = some right → related left right →
      related (left.reclassify kind modifiers)
        (right.reclassify kind modifiers)) :
    Paired related (first.reclassify kind modifiers)
      (second.reclassify kind modifiers) := by
  obtain ⟨passed, ahead⟩ := first
  obtain ⟨otherPassed, otherAhead⟩ := second
  cases paired.ahead with
  | nil => exact paired
  | cons pair rest =>
      exact ⟨paired.passed, .cons (kept _ _ rfl rfl pair) rest⟩

end Paired

end TokenCursor

end ComponentLang
