import ComponentLang.Proofs.Scan.Words
import ComponentLang.Proofs.Token.Pairing
import ComponentLang.Proofs.Token.Sites

namespace ComponentLang

namespace TokenCursor

variable {cursor reached : TokenCursor} {token : Token} {skipped : List Token}

/-- The tokens up to the current one. A fresh token is not visited yet. -/
def visited (fresh : Bool) (cursor : TokenCursor) : List Token :=
  if fresh then cursor.passed.reverse
  else cursor.passed.reverse ++ cursor.current?.toList

def unvisited (fresh : Bool) (cursor : TokenCursor) : List Token :=
  if fresh then cursor.ahead else cursor.behind

theorem visited_append_unvisited (fresh : Bool) (cursor : TokenCursor) :
    cursor.visited fresh ++ cursor.unvisited fresh = cursor.toList := by
  obtain ⟨passed, _ | ⟨current, rest⟩⟩ := cursor <;> cases fresh <;>
    simp [visited, unvisited, toList, behind, current?]

theorem visited_false (cursor : TokenCursor) :
    cursor.visited false = cursor.visited true ++ cursor.current?.toList := rfl

theorem unvisited_true (cursor : TokenCursor) :
    cursor.unvisited true = cursor.current?.toList ++ cursor.unvisited false := by
  obtain ⟨passed, _ | ⟨current, rest⟩⟩ := cursor <;> rfl

/-- The cursor moves on, over the tokens that are skipped, to a token that is
fresh then. -/
structure Passes (cursor : TokenCursor) (skipped : List Token)
    (reached : TokenCursor) : Prop where
  visited : reached.visited true = cursor.visited false ++ skipped
  unvisited : cursor.unvisited false = skipped ++ reached.unvisited true

theorem Passes.of_behind (kept : reached.toList = cursor.toList)
    (behind_eq : cursor.behind = skipped ++ token :: reached.behind)
    (arrived : reached.current? = some token) :
    cursor.Passes skipped reached := by
  cases there : cursor.current? with
  | none =>
      obtain ⟨passed, _ | ⟨current, rest⟩⟩ := cursor
      · simp [behind] at behind_eq
      · cases there
  | some current =>
      have passed_eq := passed_of_move there kept behind_eq arrived
      constructor
      · simp [TokenCursor.visited, passed_eq, there]
      · simp [TokenCursor.unvisited, behind_eq, ahead_of_current? arrived]

theorem passes_of_next? (found : cursor.next? = some (token, reached)) :
    ∃ skipped, cursor.Passes skipped reached := by
  obtain ⟨skipped, behind_eq, -⟩ := behind_of_next? found
  exact ⟨skipped, .of_behind (toList_of_next? found) behind_eq
    (current?_of_next? found).1⟩

theorem passes_of_rescue? {candidates : List Terminal}
    (found : cursor.rescue? candidates = some reached) :
    ∃ skipped, cursor.Passes skipped reached := by
  obtain ⟨skipped, token, behind_eq, there, -⟩ := behind_of_rescue? found
  exact ⟨skipped, .of_behind (toList_of_rescue? found) behind_eq there⟩

theorem passes_passStrings (cursor : TokenCursor) :
    cursor.passStrings = cursor ∨
      ∃ skipped, cursor.Passes skipped cursor.passStrings := by
  rcases behind_passStrings cursor with same |
    ⟨skipped, token, behind_eq, there, -⟩
  · exact .inl same
  · exact .inr ⟨skipped,
      .of_behind (toList_passStrings cursor) behind_eq there⟩

theorem Passes.grows (passes : cursor.Passes skipped reached) :
    cursor.visited false <+: reached.visited true :=
  ⟨skipped, passes.visited.symm⟩

/-! Classifying the current token. -/

section Reclassify

variable (kind : TokenKind) (modifiers : Modifiers)

@[simp] theorem visited_true_reclassify (cursor : TokenCursor) :
    (cursor.reclassify kind modifiers).visited true = cursor.visited true := by
  obtain ⟨passed, _ | ⟨current, rest⟩⟩ := cursor <;> rfl

@[simp] theorem unvisited_false_reclassify (cursor : TokenCursor) :
    (cursor.reclassify kind modifiers).unvisited false =
      cursor.unvisited false :=
  behind_reclassify cursor kind modifiers

theorem visited_false_reclassify (there : cursor.current? = some token) :
    (cursor.reclassify kind modifiers).visited false =
      cursor.visited true ++ [token.reclassify kind modifiers] := by
  rw [visited_false, visited_true_reclassify, current?_reclassify, there]
  rfl

end Reclassify

end TokenCursor

/-- What a walk makes of a token: it leaves the token as it is, or it gives an
identifier a semantic kind. -/
inductive Token.Becomes (original : Token) : Token → Prop where
  | same : Becomes original original
  | classified {kind : TokenKind} {modifiers : Modifiers}
      (lexical : Scan.IsLexical original)
      (identifier : Literal.isIdentifier original.text)
      (semantic : kind.isSemantic) :
      Becomes original (original.reclassify kind modifiers)

namespace Token.Becomes

variable {original token : Token} {originals tokens : List Token}

theorem site (becomes : original.Becomes token) : token.site = original.site := by
  cases becomes <;> rfl

theorem forall₂_refl (tokens : List Token) :
    List.Forall₂ Token.Becomes tokens tokens :=
  List.forall₂_same.mpr fun _ _ => .same

theorem map_site (became : List.Forall₂ Token.Becomes originals tokens) :
    tokens.map Token.site = originals.map Token.site := by
  induction became with
  | nil => rfl
  | cons becomes _ induction => rw [List.map_cons, becomes.site, induction]; rfl

end Token.Becomes

end ComponentLang
