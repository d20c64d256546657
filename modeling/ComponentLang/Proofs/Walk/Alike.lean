import ComponentLang.Walk.Reports
import ComponentLang.Proofs.Token.Alike
import ComponentLang.Proofs.Walk.Likeness

namespace ComponentLang

structure Finding.Alike (first second : Finding) : Prop where
  code : first.cause.code = second.cause.code
  anchor : first.anchor.Alike second.anchor

namespace Walk

structure Alike (first second : Walk) : Prop where
  cursor : first.cursor.Alike second.cursor
  scopes : first.scopes = second.scopes
  symbols : first.symbols = second.symbols
  classified : first.classified = second.classified
  findings : List.Forall₂ Finding.Alike first.findings second.findings
  resets : first.resets = second.resets

namespace Alike

variable {first second : Walk}

theorem moveTo (alike : Alike first second) {left right : TokenCursor}
    (cursors : TokenCursor.Paired Token.Alike left right) :
    Alike (first.moveTo left) (second.moveTo right) :=
  ⟨.of_paired cursors, alike.scopes, alike.symbols, alike.classified, alike.findings,
    alike.resets⟩

theorem report (alike : Alike first second) {cause otherCause : Cause}
    {anchor other : Token} (code : cause.code = otherCause.code)
    (anchors : anchor.Alike other) :
    Alike (first.report cause anchor) (second.report otherCause other) :=
  ⟨alike.cursor, alike.scopes, alike.symbols, alike.classified,
    .cons ⟨code, anchors⟩ alike.findings, alike.resets⟩

theorem reachesString {token : Token} {cursor : TokenCursor}
    (next : first.cursor.next? = some (token, cursor))
    (string : token.kind = .string) (free : isWord token.text = false) :
    first.ReachesString token cursor := by
  refine ⟨next, string, beq_eq_false_iff_ne.mpr fun brace => ?_⟩
  rw [brace] at free
  revert free
  decide +kernel

/-- Only a string can be taken as a word about a full queue in one of the walks
and not in the other. -/
theorem queue (alike : Alike first second) :
    UpToString Alike first.passQueueWord second.passQueueWord := by
  unfold passQueueWord TokenCursor.take?
  rcases none_or_some_of_rel alike.cursor.next?_rel with
    ⟨left, right⟩ | ⟨⟨token, cursor⟩, ⟨other, place⟩, left, right, tokens, cursors⟩
  · rw [left, right]
    exact .level alike
  · have taken := alike.moveTo cursors
    rw [left, right]
    simp only
    rcases tokens.text with same | ⟨string, unread, free⟩
    · rw [← same]
      cases Terminal.find? _ token.text with
      | none => exact .level alike
      | some terminal => exact .level taken
    · have here := reachesString left string unread
      have there := reachesString right (tokens.kind.symm.trans string) free
      cases Terminal.find? _ token.text with
      | none =>
          cases Terminal.find? _ other.text with
          | none => exact .level alike
          | some terminal => exact .first token cursor here taken
      | some terminal =>
          cases Terminal.find? _ other.text with
          | none => exact .second other place there taken
          | some terminal => exact .level taken

theorem classify (alike : Alike first second)
    (same : first.cursor.current? = second.cursor.current?) (kind : TokenKind)
    (modifiers : Modifiers) :
    Alike (first.classify kind modifiers) (second.classify kind modifiers) := by
  refine ⟨alike.cursor.reclassify same kind modifiers, alike.scopes,
    alike.symbols, ?_, alike.findings, alike.resets⟩
  simp only [Walk.classify, TokenCursor.current?_reclassify, same,
    alike.classified]

theorem resolve (alike : Alike first second) :
    Alike first.resolve second.resolve := by
  rcases none_or_some_of_rel alike.cursor.current?_rel with
    ⟨left, right⟩ | ⟨token, other, left, right, tokens⟩
  · simpa only [Walk.resolve, left, right] using alike
  · simp only [Walk.resolve, left, right]
    rw [← tokens.isIdentifier_eq, ← alike.symbols]
    split
    · next identifier =>
        obtain rfl := tokens.eq_of_isIdentifier identifier
        split
        · exact alike.classify (left.trans right.symm) _ _
        · exact alike.report rfl tokens
    · exact alike.report rfl tokens

theorem remember (alike : Alike first second) (symbols : SymbolTable) :
    Alike { first with symbols } { second with symbols } :=
  { alike with symbols := rfl }

theorem reportDuplicate (alike : Alike first second)
    (registration : Registration) (kind : TokenKind) (token : Token) :
    Alike (first.reportDuplicate registration kind token)
      (second.reportDuplicate registration kind token) := by
  unfold Walk.reportDuplicate
  split
  · split
    · exact alike
    · exact alike.report rfl (.refl token)
  · exact alike

theorem declare (alike : Alike first second) (kind : TokenKind)
    (modifiers : Modifiers) :
    (first.declare kind modifiers).1 = (second.declare kind modifiers).1 ∧
      Alike (first.declare kind modifiers).2
        (second.declare kind modifiers).2 := by
  rcases none_or_some_of_rel alike.cursor.current?_rel with
    ⟨left, right⟩ | ⟨token, other, left, right, tokens⟩
  · simpa only [Walk.declare, left, right, true_and] using alike
  · simp only [Walk.declare, left, right]
    rw [← tokens.isIdentifier_eq]
    split
    · next identifier =>
        obtain rfl := tokens.eq_of_isIdentifier identifier
        have path_eq := congrArg ScopeStack.path alike.scopes
        simp only [← alike.symbols, ← path_eq]
        refine ⟨trivial, classify
          ((alike.remember _).reportDuplicate _ _ _) ?_ _ _⟩
        simp only [cursor_reportDuplicate, left, right]
    · exact ⟨rfl, alike.report rfl tokens⟩

theorem openScope (alike : Alike first second) (name : String)
    (kind : TokenKind) :
    Alike (first.openScope name kind) (second.openScope name kind) := by
  refine { alike with scopes := ?_ }
  simp only [Walk.openScope, alike.scopes]

theorem closeScope (alike : Alike first second) :
    Alike first.closeScope second.closeScope := by
  refine { alike with scopes := ?_ }
  simp only [Walk.closeScope, alike.scopes]

theorem settle (alike : Alike first second) :
    Alike first.settle second.settle := by
  unfold Walk.settle
  rw [alike.scopes]
  split
  · exact alike
  · refine { alike with scopes := ?_, resets := ?_ }
    · simp only
    · simp only [alike.resets]

end Alike

theorem keepsNames_alike : KeepsNames Alike Eq where
  queue alike := alike.queue
  resolve alike := alike.resolve
  declare := by
    intro first second kind modifiers alike
    obtain ⟨names, walks⟩ := alike.declare kind modifiers
    refine ⟨?_, walks⟩
    rw [names]
    cases (second.declare kind modifiers).1 with
    | none => exact .none
    | some name => exact .some rfl
  anonymous := rfl
  openScope kind same alike := same ▸ alike.openScope _ kind
  closeScope alike := alike.closeScope
  settle alike := alike.settle

theorem likeness_alike : Likeness Token.Alike Token.Alike where
  line alike := alike.line
  kind alike := alike.kind
  trivia alike := alike.isTrivia_eq
  spelled listed alike := alike.find?_eq listed
  keyword alike keyword := by
    rw [alike.text_of_kind (by rw [keyword]; nofun)]
  builtinType alike := alike.builtinType_eq
  identifier alike := alike.isIdentifier_eq
  expression alike := alike.startsExpression_eq
  anchor := id
  behind alike := by
    rw [alike.stop_eq]
    exact .refl _
  origin := .refl _

theorem likewise_alike :
    Likewise Token.Alike Token.Alike Eq = Alike := by
  funext first second
  apply propext
  constructor
  · intro same
    obtain ⟨scopes, symbols, classified, resets⟩ := Memory.mk.inj same.memory
    exact ⟨.of_paired same.cursor, scopes, symbols, classified,
      same.findings.imp fun _ _ found => ⟨found.code, found.anchor⟩, resets⟩
  · intro alike
    refine ⟨alike.cursor.paired,
      alike.findings.imp fun _ _ found => ⟨found.code, found.anchor⟩, ?_⟩
    simp only [memory, alike.scopes, alike.symbols, alike.classified,
      alike.resets]

theorem simulation_alike : Simulation Alike Eq := by
  have names : KeepsNames (Likewise Token.Alike Token.Alike Eq) Eq :=
    likewise_alike ▸ keepsNames_alike
  exact likewise_alike ▸ likeness_alike.simulation names

end Walk

end ComponentLang
