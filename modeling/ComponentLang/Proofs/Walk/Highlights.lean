import ComponentLang.Proofs.Symbol.Tables
import ComponentLang.Proofs.Token.Visited
import ComponentLang.Proofs.Walk.Invariants

namespace ComponentLang.Walk

variable {tokens : List Token} {walk : Walk} {fresh : Bool}

/-- Of tokens that were given, the visited ones became what the walk made of
them, and those with a semantic kind are listed. The others are unchanged. -/
structure Highlights (tokens : List Token) (fresh : Bool) (walk : Walk) :
    Prop where
  parted : ∃ front, tokens = front ++ walk.cursor.unvisited fresh ∧
    List.Forall₂ Token.Becomes front (walk.cursor.visited fresh)
  listed : walk.classified.reverse =
    (walk.cursor.visited fresh).filter fun token => token.kind.isSemantic
  semantic : ∀ symbol ∈ walk.symbols.toList, symbol.kind.isSemantic

namespace Highlights

/-- No token has a semantic kind before it is visited. -/
def Lexical (tokens : List Token) : Prop :=
  ∀ token ∈ tokens, Scan.IsLexical token

theorem Lexical.filter_eq_nil (lexical : Lexical tokens) {part : List Token}
    (among : ∀ token ∈ part, token ∈ tokens) :
    part.filter (fun token => token.kind.isSemantic) = [] := by
  rw [List.filter_eq_nil_iff]
  intro token member
  rw [(lexical token (among token member)).kind]
  exact Bool.false_ne_true

theorem start (tokens : List Token) : Highlights tokens true (start tokens) :=
  ⟨⟨[], rfl, .nil⟩, rfl, List.forall_mem_nil _⟩

theorem visit (highlights : Highlights tokens fresh walk)
    (lexical : Lexical tokens) {cursor : TokenCursor} {now : Bool}
    {skipped : List Token}
    (visited : cursor.visited now = walk.cursor.visited fresh ++ skipped)
    (unvisited : walk.cursor.unvisited fresh =
      skipped ++ cursor.unvisited now) :
    Highlights tokens now (walk.moveTo cursor) := by
  obtain ⟨front, tokens_eq, became⟩ := highlights.parted
  refine ⟨⟨front ++ skipped, ?_, ?_⟩, ?_, highlights.semantic⟩
  · rw [tokens_eq, unvisited, List.append_assoc]
    rfl
  · change List.Forall₂ _ _ (cursor.visited now)
    rw [visited]
    exact List.rel_append became (Token.Becomes.forall₂_refl skipped)
  · have among : ∀ token ∈ skipped, token ∈ tokens := by
      simp +contextual [tokens_eq, unvisited]
    change walk.classified.reverse = (cursor.visited now).filter _
    rw [visited, List.filter_append, lexical.filter_eq_nil among,
      List.append_nil, highlights.listed]

theorem weaken (highlights : Highlights tokens true walk)
    (lexical : Lexical tokens) : Highlights tokens false walk :=
  highlights.visit lexical walk.cursor.visited_false
    walk.cursor.unvisited_true

theorem move (highlights : Highlights tokens false walk)
    (lexical : Lexical tokens) {skipped : List Token} {reached : TokenCursor}
    (passes : walk.cursor.Passes skipped reached) :
    Highlights tokens true (walk.moveTo reached) :=
  highlights.visit lexical passes.visited passes.unvisited

theorem report (highlights : Highlights tokens fresh walk) (cause : Cause)
    (anchor : Token) : Highlights tokens fresh (walk.report cause anchor) :=
  ⟨highlights.parted, highlights.listed, highlights.semantic⟩

theorem classify (highlights : Highlights tokens true walk)
    (lexical : Lexical tokens) {token : Token}
    (there : walk.cursor.current? = some token)
    (identifier : Literal.isIdentifier token.text) {kind : TokenKind}
    (semantic : kind.isSemantic) (modifiers : Modifiers) :
    Highlights tokens false (walk.classify kind modifiers) := by
  obtain ⟨front, tokens_eq, became⟩ := highlights.parted
  have visited := walk.cursor.visited_false_reclassify kind modifiers there
  have among : token ∈ tokens := by
    simp [tokens_eq, TokenCursor.unvisited_true, there]
  refine ⟨⟨front ++ [token], ?_, ?_⟩, ?_, highlights.semantic⟩
  · change _ = _ ++ (walk.cursor.reclassify kind modifiers).unvisited false
    rw [TokenCursor.unvisited_false_reclassify, tokens_eq,
      TokenCursor.unvisited_true, there, List.append_assoc]
    rfl
  · change List.Forall₂ _ _ ((walk.cursor.reclassify kind modifiers).visited false)
    rw [visited]
    exact List.rel_append became
      (.cons (.classified (lexical token among) identifier semantic) .nil)
  · change (((walk.cursor.reclassify kind modifiers).current?.toList ++
        walk.classified).reverse : List Token) =
      ((walk.cursor.reclassify kind modifiers).visited false).filter _
    rw [visited, List.filter_append, ← highlights.listed,
      TokenCursor.current?_reclassify, there,
      List.filter_cons_of_pos (by exact semantic), List.reverse_append]
    rfl

theorem resolve (highlights : Highlights tokens true walk)
    (lexical : Lexical tokens) : Highlights tokens false walk.resolve := by
  unfold Walk.resolve
  split
  · exact highlights.weaken lexical
  · next token there =>
      split
      · next identifier =>
          split
          · next symbol found =>
              have known := (SymbolTable.mem_of_lookup? found).1
              exact highlights.classify lexical there identifier
                (highlights.semantic symbol known) symbol.modifiers
          · exact (highlights.report _ _).weaken lexical
      · exact (highlights.report _ _).weaken lexical

theorem reportDuplicate (highlights : Highlights tokens fresh walk)
    (registration : Registration) (kind : TokenKind) (token : Token) :
    Highlights tokens fresh (walk.reportDuplicate registration kind token) := by
  obtain ⟨findings, same⟩ := walk.exists_reportDuplicate registration kind token
  rw [same]
  exact ⟨highlights.parted, highlights.listed, highlights.semantic⟩

theorem register (highlights : Highlights tokens fresh walk) (symbol : Symbol)
    (semantic : symbol.kind.isSemantic) :
    Highlights tokens fresh
      { walk with symbols := (walk.symbols.declare symbol).2 } := by
  refine ⟨highlights.parted, highlights.listed, fun listed member => ?_⟩
  rcases SymbolTable.mem_toList_declare member with known | rfl
  · exact highlights.semantic listed known
  · exact semantic

theorem declare (highlights : Highlights tokens true walk)
    (lexical : Lexical tokens) {kind : TokenKind} (semantic : kind.isSemantic)
    (modifiers : Modifiers) :
    Highlights tokens false (walk.declare kind modifiers).2 := by
  unfold Walk.declare
  split
  · exact highlights.weaken lexical
  · next token there =>
      split
      · next identifier =>
          have registered := highlights.register ⟨Literal.nameOf token.text,
            walk.scopes.path, kind, modifiers.withDeclaration, token.line,
            token.column⟩ semantic
          refine (registered.reportDuplicate _ kind token).classify lexical ?_
            identifier semantic _
          rw [cursor_reportDuplicate]
          exact there
      · exact (highlights.report _ _).weaken lexical

end Highlights

theorem invariant_highlights (lexical : Highlights.Lexical tokens) :
    Invariant (Highlights tokens) where
  weaken here := here.weaken lexical
  scopes here := ⟨here.parted, here.listed, here.semantic⟩
  next here found := by
    obtain ⟨skipped, passes⟩ := TokenCursor.passes_of_next? found
    exact here.move lexical passes
  ended here _ := here.report _ _
  abandoned here _ := here.report _ _
  report here _ _ := here.report _ _
  rescue here found := by
    obtain ⟨skipped, passes⟩ := TokenCursor.passes_of_rescue? found
    exact ((here.weaken lexical).move lexical passes).weaken lexical
  strings := fun {walk} here => by
    rcases walk.cursor.passes_passStrings with same | ⟨skipped, passes⟩
    · rw [Walk.strings, same]
      exact here.weaken lexical
    · exact ((here.weaken lexical).move lexical passes).weaken lexical
  resolve here := here.resolve lexical
  declare semantic here := here.declare lexical semantic _

/-- At the end of a document, its tokens became what the walk made of them, and
those with a semantic kind are listed. -/
theorem highlights_document (stop : Walk → Bool)
    (lexical : Highlights.Lexical tokens) :
    List.Forall₂ Token.Becomes tokens (document stop tokens).2.cursor.toList ∧
      (document stop tokens).2.classified.reverse =
        (document stop tokens).2.cursor.toList.filter fun token =>
          token.kind.isSemantic := by
  have ended := (invariant_highlights lexical).document stop (.start tokens)
  generalize (document stop tokens).2 = walk at ended
  obtain ⟨front, tokens_eq, became⟩ := ended.parted
  have among : ∀ token ∈ walk.cursor.unvisited false, token ∈ tokens := by
    simp +contextual [tokens_eq]
  rw [← walk.cursor.visited_append_unvisited false, List.filter_append,
    lexical.filter_eq_nil among, List.append_nil]
  refine ⟨?_, ended.listed⟩
  rw [tokens_eq]
  exact List.rel_append became (Token.Becomes.forall₂_refl _)

end ComponentLang.Walk
