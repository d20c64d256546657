import ComponentLang.Proofs.Scan.Words
import ComponentLang.Proofs.Symbol.Renaming
import ComponentLang.Proofs.Walk.Likeness

namespace ComponentLang

def Scan.isName (text : String) : Bool :=
  Literal.isIdentifier text && lexicalKind text == .nil

namespace Scan

variable {text : String}

theorem isIdentifier_of_isName (name : isName text) :
    Literal.isIdentifier text :=
  (Bool.and_eq_true_iff.mp name).1

theorem lexicalKind_of_isName (name : isName text) : lexicalKind text = .nil :=
  beq_iff_eq.mp (Bool.and_eq_true_iff.mp name).2

theorem keyword_eq_none_of_isName (name : isName text) :
    Keyword.ofSpelling? text = none := by
  have lexical := lexicalKind_of_isName name
  rw [lexicalKind_of_isIdentifier (isIdentifier_of_isName name)] at lexical
  cases found : Keyword.ofSpelling? text with
  | none => rfl
  | some word =>
      rw [found] at lexical
      cases lexical

theorem find?_eq_none_of_isName (name : isName text)
    (candidates : List Terminal) : Terminal.find? candidates text = none := by
  have lexical := lexicalKind_of_isName name
  apply Terminal.find?_eq_none_of_kind <;> rw [lexical] <;> decide

theorem ne_backslash_of_isName (name : isName text) : (text == "\\") = false := by
  rw [beq_eq_false_iff_ne]
  rintro rfl
  revert name
  decide +kernel

end Scan

namespace Token

structure SameRole (first second : Token) : Prop where
  line : first.line = second.line
  column : first.column = second.column
  kind : first.kind = second.kind
  modifiers : first.modifiers = second.modifiers

/-- The second token has the text of the first one, or both are names. What the
first one names is known, and the second one names it anew. -/
structure Renames (known : String → Prop) (rename : String → String)
    (first second : Token) : Prop extends SameRole first second where
  text : first.text = second.text ∨
    Scan.isName first.text ∧ Scan.isName second.text
  known : Literal.isIdentifier first.text → known (Literal.nameOf first.text)
  name : Literal.isIdentifier first.text →
    Literal.nameOf second.text = rename (Literal.nameOf first.text)

namespace Renames

variable {known : String → Prop} {rename : String → String}
  {first second : Token}

theorem reclassify (renames : Renames known rename first second)
    (kind : TokenKind) (modifiers : Modifiers) :
    Renames known rename (first.reclassify kind modifiers)
      (second.reclassify kind modifiers) :=
  ⟨⟨renames.line, renames.column, rfl, rfl⟩, renames.text, renames.known,
    renames.name⟩

theorem text_congr (renames : Renames known rename first second) {α : Sort*}
    {reading : String → α} {unread : α}
    (names : ∀ text, Scan.isName text → reading text = unread) :
    reading first.text = reading second.text := by
  rcases renames.text with same | ⟨left, right⟩
  · rw [same]
  · rw [names _ left, names _ right]

theorem isIdentifier_eq (renames : Renames known rename first second) :
    Literal.isIdentifier first.text = Literal.isIdentifier second.text :=
  renames.text_congr fun _ => Scan.isIdentifier_of_isName

theorem isTrivia_eq (renames : Renames known rename first second) :
    first.isTrivia = second.isTrivia := by
  have sign := renames.text_congr fun _ => Scan.ne_backslash_of_isName
  rw [isTrivia, isTrivia, renames.kind, sign]

theorem keyword_eq (renames : Renames known rename first second) :
    Keyword.ofSpelling? first.text = Keyword.ofSpelling? second.text :=
  renames.text_congr fun _ => Scan.keyword_eq_none_of_isName

theorem startsExpression_eq (renames : Renames known rename first second) :
    Expected.startsExpression first = Expected.startsExpression second := by
  have sign : Operator.ofSpelling? first.text = Operator.ofSpelling? second.text :=
    renames.text_congr fun _ name =>
      Operator.ofSpelling?_eq_none (Scan.isIdentifier_of_isName name)
  simp only [Expected.startsExpression, Expected.isTruthWord, renames.kind, sign,
    renames.keyword_eq, renames.isIdentifier_eq]

end Renames

def SameLine (first second : Token) : Prop :=
  first.line = second.line

end Token

namespace Walk

/-- The renaming keeps apart what walks can know, and leaves alone the names that
stand for no token. -/
structure RenamesScopes (known : String → Prop) (rename : String → String) :
    Prop extends KeepsApart known rename where
  global : known Scope.global.name
  anonymous : known (parameterScope none)
  global_eq : rename Scope.global.name = Scope.global.name
  anonymous_eq : rename (parameterScope none) = parameterScope none

/-- Only what is known is remembered, and the second walk remembers it
renamed. -/
structure Memory.Renames (known : String → Prop) (rename : String → String)
    (first second : Memory) : Prop where
  scopes : second.scopes = first.scopes.renamed rename
  symbols : second.symbols = first.symbols.renamed rename
  scopes_known : first.scopes.IsKnown known
  symbols_known : first.symbols.IsKnown known
  classified : List.Forall₂ Token.SameRole first.classified second.classified
  resets : first.resets = second.resets

/-- The second walk does under other names what the first one does. -/
abbrev Renames (known : String → Prop) (rename : String → String) :
    Walk → Walk → Prop :=
  Likewise (Token.Renames known rename) Token.SameLine
    (Memory.Renames known rename)

/-- What the first walk calls by a known name, the second one calls by the new
name. -/
def NamedAnew (known : String → Prop) (rename : String → String)
    (name anew : String) : Prop :=
  known name ∧ anew = rename name

variable {known : String → Prop} {rename : String → String}

theorem likeness_renames :
    Likeness (Token.Renames known rename) Token.SameLine where
  line renames := renames.line
  kind renames := renames.kind
  trivia renames := renames.isTrivia_eq
  spelled _ renames := renames.text_congr fun _ name =>
    Scan.find?_eq_none_of_isName name _
  keyword renames _ := renames.keyword_eq
  builtinType renames := renames.text_congr fun _ name =>
    Literal.builtinType_eq_none (Scan.isIdentifier_of_isName name)
  identifier renames := renames.isIdentifier_eq
  expression renames := renames.startsExpression_eq
  anchor renames := renames.line
  behind renames := renames.line
  origin := rfl

namespace Renames

variable {first second : Walk}

theorem scopes_eq (renames : Renames known rename first second) :
    second.scopes = first.scopes.renamed rename :=
  renames.memory.scopes

theorem path_eq (renames : Renames known rename first second)
    (names : RenamesScopes known rename) :
    second.scopes.path = renamedPath rename first.scopes.path := by
  rw [renames.scopes_eq]
  exact ScopeStack.path_renamed names.global names.global_eq
    renames.memory.scopes_known names.toKeepsApart

theorem symbols_eq (renames : Renames known rename first second) :
    second.symbols = first.symbols.renamed rename :=
  renames.memory.symbols

theorem queue (renames : Renames known rename first second) :
    UpToString (Renames known rename) first.passQueueWord
      second.passQueueWord := by
  have taken := renames.cursor.take?_rel
    (fun _ _ pair => pair.text_congr fun _ name =>
      Scan.find?_eq_none_of_isName name
        [Keyword.assert, Keyword.block, Keyword.drop])
    fun _ _ pair => pair.isTrivia_eq
  unfold passQueueWord
  rcases none_or_some_of_rel taken with
    ⟨left, right⟩ | ⟨found, other, left, right, -, cursors⟩
  · rw [left, right]
    exact .level renames
  · rw [left, right]
    exact .level (renames.moveTo cursors)

theorem classify (renames : Renames known rename first second)
    (kind : TokenKind) (modifiers : Modifiers) :
    Renames known rename (first.classify kind modifiers)
      (second.classify kind modifiers) := by
  have cursors := renames.cursor.reclassify kind modifiers
    fun _ _ _ _ pair => pair.reclassify kind modifiers
  refine ⟨cursors, renames.findings, { renames.memory with classified := ?_ }⟩
  simp only [memory, Walk.classify]
  rcases none_or_some_of_rel cursors.current?_rel with
    ⟨left, right⟩ | ⟨token, other, left, right, pair⟩
  · rw [left, right]
    exact renames.memory.classified
  · rw [left, right]
    exact .cons pair.toSameRole renames.memory.classified

theorem resolve (renames : Renames known rename first second)
    (apart : KeepsApart known rename) :
    Renames known rename first.resolve second.resolve := by
  rcases none_or_some_of_rel renames.cursor.current?_rel with
    ⟨left, right⟩ | ⟨token, other, left, right, pair⟩
  · simpa only [Walk.resolve, left, right] using renames
  · simp only [Walk.resolve, left, right]
    rw [← pair.isIdentifier_eq]
    split
    · next identifier =>
        have found := SymbolTable.lookup?_renamed apart
          renames.memory.symbols_known (pair.known identifier)
        simp only [memory] at found
        rw [renames.symbols_eq, pair.name identifier, found]
        cases first.symbols.lookup? (Literal.nameOf token.text) with
        | none => exact renames.report rfl pair.line
        | some symbol => exact renames.classify symbol.kind symbol.modifiers
    · exact renames.report rfl pair.line

theorem remember (renames : Renames known rename first second)
    {table : SymbolTable} (table_known : table.IsKnown known) :
    Renames known rename { first with symbols := table }
      { second with symbols := table.renamed rename } :=
  ⟨renames.cursor, renames.findings,
    { renames.memory with symbols := rfl, symbols_known := table_known }⟩

theorem reportDuplicate (renames : Renames known rename first second)
    (registration : Registration) (kind : TokenKind) {token other : Token}
    (line : token.line = other.line) :
    Renames known rename (first.reportDuplicate registration kind token)
      (second.reportDuplicate (registration.renamed rename) kind other) := by
  cases registration with
  | added => exact renames
  | elsewhere => exact renames
  | duplicate earlier =>
      simp only [Walk.reportDuplicate, Registration.renamed, Symbol.renamed]
      split
      · exact renames
      · exact renames.report rfl line

theorem declare (renames : Renames known rename first second)
    (names : RenamesScopes known rename) (kind : TokenKind)
    (modifiers : Modifiers) :
    Option.Rel (NamedAnew known rename) (first.declare kind modifiers).1
        (second.declare kind modifiers).1 ∧
      Renames known rename (first.declare kind modifiers).2
        (second.declare kind modifiers).2 := by
  rcases none_or_some_of_rel renames.cursor.current?_rel with
    ⟨left, right⟩ | ⟨token, other, left, right, pair⟩
  · simpa only [Walk.declare, left, right] using ⟨.none, renames⟩
  · simp only [Walk.declare, left, right]
    rw [← pair.isIdentifier_eq]
    split
    · next identifier =>
        have symbol_known : Symbol.IsKnown known
            { name := Literal.nameOf token.text
              scope := first.scopes.path
              kind
              modifiers := modifiers.withDeclaration
              line := token.line
              column := token.column } :=
          ⟨pair.known identifier, ScopeStack.isKnownPath_path names.global
            names.global_eq renames.memory.scopes_known names.toKeepsApart⟩
        have table_known := SymbolTable.IsKnown.declare
          renames.memory.symbols_known symbol_known
        have declared := SymbolTable.declare_renamed names.toKeepsApart
          renames.memory.symbols_known symbol_known
        simp only [memory, ← renames.symbols_eq, Symbol.renamed] at declared
        simp only [renames.path_eq names, pair.name identifier, ← pair.line,
          ← pair.column, declared]
        exact ⟨.some ⟨pair.known identifier, rfl⟩,
          ((renames.remember table_known).reportDuplicate _ _ pair.line).classify
            _ _⟩
    · exact ⟨.none, renames.report rfl pair.line⟩

theorem openScope (renames : Renames known rename first second)
    {name anew : String} (named : NamedAnew known rename name anew)
    (kind : TokenKind) :
    Renames known rename (first.openScope name kind)
      (second.openScope anew kind) := by
  obtain ⟨name_known, rfl⟩ := named
  refine ⟨renames.cursor, renames.findings, { renames.memory with
    scopes := ?_
    scopes_known := renames.memory.scopes_known.push name_known }⟩
  simp only [memory, Walk.openScope, renames.scopes_eq]
  exact (ScopeStack.push_renamed ⟨name, kind⟩).symm

theorem closeScope (renames : Renames known rename first second) :
    Renames known rename first.closeScope second.closeScope := by
  refine ⟨renames.cursor, renames.findings, { renames.memory with
    scopes := ?_
    scopes_known := renames.memory.scopes_known.pop }⟩
  simp only [memory, Walk.closeScope, renames.scopes_eq]
  exact ScopeStack.pop_renamed.symm

theorem settle (renames : Renames known rename first second) :
    Renames known rename first.settle second.settle := by
  unfold Walk.settle
  rw [renames.scopes_eq, ScopeStack.depth_renamed]
  split
  · exact renames
  · exact ⟨renames.cursor, renames.findings, { renames.memory with
      scopes := rfl
      scopes_known := List.forall_mem_nil _
      resets := congrArg (· + 1) renames.memory.resets }⟩

end Renames

theorem keepsNames_renames (names : RenamesScopes known rename) :
    KeepsNames (Renames known rename) (NamedAnew known rename) where
  queue renames := renames.queue
  resolve renames := renames.resolve names.toKeepsApart
  declare kind modifiers renames := renames.declare names kind modifiers
  anonymous := ⟨names.anonymous, names.anonymous_eq.symm⟩
  openScope kind named renames := renames.openScope named kind
  closeScope renames := renames.closeScope
  settle renames := renames.settle

theorem renames_document (names : RenamesScopes known rename)
    {tokens others : List Token}
    (pairs : List.Forall₂ (Token.Renames known rename) tokens others) :
    Renames known rename (document (fun _ => false) tokens).2
      (document (fun _ => false) others).2 := by
  have started : Renames known rename (start tokens) (start others) :=
    ⟨TokenCursor.paired_ofList pairs, .nil,
      ⟨rfl, rfl, List.forall_mem_nil _, List.forall_mem_nil _, .nil, rfl⟩⟩
  exact (likeness_renames.simulation (keepsNames_renames names)).document
    pairs.length_eq started

end Walk

end ComponentLang
