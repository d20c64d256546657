import ComponentLang.Proofs.Analysis.SameReading
import ComponentLang.Proofs.Walk.Renaming

namespace ComponentLang

namespace Token

/-- An identifier that scanning gave no kind. -/
def isRenamable (token : Token) : Bool :=
  token.kind == .nil && Literal.isIdentifier token.text

def renamed (anew : Token → String) (token : Token) : Token :=
  if token.isRenamable then { token with text := anew token } else token

def hasName (name : String) (token : Token) : Bool :=
  Literal.isIdentifier token.text && Literal.nameOf token.text == name

end Token

/-- The new texts are identifiers and no words of the language, and two tokens
have one name after the renaming if and only if they had one before. -/
structure IsRenaming (anew : Token → String) (tokens : List Token) : Prop where
  identifier : ∀ token ∈ tokens, token.isRenamable →
    Literal.isIdentifier (anew token)
  lexical : ∀ token ∈ tokens, token.isRenamable →
    Scan.lexicalKind (anew token) = .nil
  names : ∀ first ∈ tokens, ∀ second ∈ tokens,
    Literal.isIdentifier first.text → Literal.isIdentifier second.text →
    (Literal.nameOf (first.renamed anew).text =
        Literal.nameOf (second.renamed anew).text ↔
      Literal.nameOf first.text = Literal.nameOf second.text)

instance (anew : Token → String) (tokens : List Token) :
    Decidable (IsRenaming anew tokens) :=
  decidable_of_iff
    ((∀ token ∈ tokens, token.isRenamable →
        Literal.isIdentifier (anew token)) ∧
      (∀ token ∈ tokens, token.isRenamable →
        Scan.lexicalKind (anew token) = .nil) ∧
      ∀ first ∈ tokens, ∀ second ∈ tokens,
        Literal.isIdentifier first.text → Literal.isIdentifier second.text →
        (Literal.nameOf (first.renamed anew).text =
            Literal.nameOf (second.renamed anew).text ↔
          Literal.nameOf first.text = Literal.nameOf second.text))
    ⟨fun ⟨identifier, lexical, names⟩ => ⟨identifier, lexical, names⟩,
      fun ⟨identifier, lexical, names⟩ => ⟨identifier, lexical, names⟩⟩

/-- What a name becomes, read off the first token that has it. -/
def newName (anew : Token → String) (tokens : List Token) (name : String) :
    String :=
  match tokens.find? (Token.hasName name) with
  | some token => Literal.nameOf (token.renamed anew).text
  | none => name

/-- The same name behind a `$`. -/
def Literal.escaped (identifier : String) : String :=
  "$" ++ nameOf identifier

/-- The text with the name escaped, if the token is chosen. -/
def Token.escapedText (chosen : Token → Bool) (token : Token) : String :=
  if chosen token then Literal.escaped token.text else token.text

def Token.escape (chosen : Token → Bool) : Token → Token :=
  Token.renamed (Token.escapedText chosen)

structure Diagnostic.SameNotice (first second : Diagnostic) : Prop where
  severity : first.severity = second.severity
  code : first.code = second.code
  line : first.position.line = second.position.line

/-- The second analysis says of the new names what the first one says of the
old ones. -/
structure Analysis.Renames (rename : String → String)
    (first second : Analysis) : Prop where
  tokens : List.Forall₂ Token.SameRole first.tokens second.tokens
  classified : List.Forall₂ Token.SameRole first.classified second.classified
  symbols : second.symbols = first.symbols.map (Symbol.renamed rename)
  peakScopeDepth : second.peakScopeDepth = first.peakScopeDepth
  scopeResets : second.scopeResets = first.scopeResets
  diagnostics :
    List.Forall₂ Diagnostic.SameNotice first.diagnostics second.diagnostics

section Names

variable {anew : Token → String} {tokens : List Token} {token : Token}

theorem Token.isIdentifier_renamed (renames : IsRenaming anew tokens)
    (member : token ∈ tokens) (identifier : Literal.isIdentifier token.text) :
    Literal.isIdentifier (token.renamed anew).text := by
  unfold renamed
  split
  · next renamable => exact renames.identifier token member renamable
  · exact identifier

theorem newName_nameOf (renames : IsRenaming anew tokens)
    (member : token ∈ tokens) (identifier : Literal.isIdentifier token.text) :
    newName anew tokens (Literal.nameOf token.text) =
      Literal.nameOf (token.renamed anew).text := by
  unfold newName
  split
  · next first found =>
      have has_name := List.find?_some found
      obtain ⟨first_identifier, same⟩ := Bool.and_eq_true_iff.mp has_name
      exact (renames.names first (List.mem_of_find?_eq_some found) token member
        first_identifier identifier).mpr (beq_iff_eq.mp same)
  · next none =>
      have has_name := List.find?_eq_none.mp none token member
      simp [Token.hasName, identifier] at has_name

/-- The names of scopes that no token names. -/
def impliedNames : List String :=
  [Scope.global.name, Walk.parameterScope none]

theorem isPlainName_of_mem_impliedNames {name : String}
    (implied : name ∈ impliedNames) :
    Literal.isPlainName name.toList = false := by
  revert name
  decide +kernel

/-- The names that a walk over the tokens can come upon. -/
def IsKnownName (tokens : List Token) (name : String) : Prop :=
  name ∈ impliedNames ∨
    ∃ token ∈ tokens, Literal.isIdentifier token.text ∧
      Literal.nameOf token.text = name

theorem newName_of_mem_impliedNames {name : String}
    (implied : name ∈ impliedNames) : newName anew tokens name = name := by
  unfold newName
  split
  · next first found =>
      have has_name := List.find?_some found
      obtain ⟨identifier, same⟩ := Bool.and_eq_true_iff.mp has_name
      have plain := Literal.isPlainName_nameOf identifier
      rw [beq_iff_eq.mp same, isPlainName_of_mem_impliedNames implied] at plain
      contradiction
  · rfl

theorem keepsApart_newName (renames : IsRenaming anew tokens) :
    KeepsApart (IsKnownName tokens) (newName anew tokens) where
  pointless := by
    rintro name (implied | ⟨token, member, identifier, rfl⟩)
    · revert name
      decide +kernel
    · exact Literal.not_mem_point_of_isPlainName
        (Literal.isPlainName_nameOf identifier)
  pointless_renamed := by
    rintro name (implied | ⟨token, member, identifier, rfl⟩)
    · rw [newName_of_mem_impliedNames implied]
      revert name
      decide +kernel
    · rw [newName_nameOf renames member identifier]
      exact Literal.not_mem_point_of_isPlainName (Literal.isPlainName_nameOf
        (Token.isIdentifier_renamed renames member identifier))
  injective := by
    have plain {token : Token} (member : token ∈ tokens)
        (identifier : Literal.isIdentifier token.text) {name : String}
        (implied : name ∈ impliedNames)
        (same : name = Literal.nameOf (token.renamed anew).text) : False := by
      have plain := Literal.isPlainName_nameOf
        (Token.isIdentifier_renamed renames member identifier)
      rw [← same, isPlainName_of_mem_impliedNames implied] at plain
      contradiction
    rintro first second (left | ⟨token, member, identifier, rfl⟩)
      (right | ⟨other, other_member, other_identifier, rfl⟩) same
    · rwa [newName_of_mem_impliedNames left,
        newName_of_mem_impliedNames right] at same
    · rw [newName_of_mem_impliedNames left,
        newName_nameOf renames other_member other_identifier] at same
      exact (plain other_member other_identifier left same).elim
    · rw [newName_of_mem_impliedNames right,
        newName_nameOf renames member identifier] at same
      exact (plain member identifier right same.symm).elim
    · rw [newName_nameOf renames member identifier,
        newName_nameOf renames other_member other_identifier] at same
      exact (renames.names token member other other_member identifier
        other_identifier).mp same

theorem renamesScopes_newName (renames : IsRenaming anew tokens) :
    Walk.RenamesScopes (IsKnownName tokens) (newName anew tokens) where
  toKeepsApart := keepsApart_newName renames
  global := .inl List.mem_cons_self
  anonymous := .inl (List.mem_cons_of_mem _ List.mem_cons_self)
  global_eq := newName_of_mem_impliedNames List.mem_cons_self
  anonymous_eq :=
    newName_of_mem_impliedNames (List.mem_cons_of_mem _ List.mem_cons_self)

theorem Token.renames_renamed (renames : IsRenaming anew tokens)
    (lexical : ∀ token ∈ tokens, token.kind = .nil →
      Scan.lexicalKind token.text = .nil) (member : token ∈ tokens) :
    token.Renames (IsKnownName tokens) (newName anew tokens)
      (token.renamed anew) where
  line := by unfold renamed; split <;> rfl
  column := by unfold renamed; split <;> rfl
  kind := by unfold renamed; split <;> rfl
  modifiers := by unfold renamed; split <;> rfl
  text := by
    unfold renamed
    split
    · next renamable =>
        obtain ⟨kind, identifier⟩ := Bool.and_eq_true_iff.mp renamable
        refine .inr ⟨Bool.and_eq_true_iff.mpr ⟨identifier, ?_⟩,
          Bool.and_eq_true_iff.mpr ⟨?_, ?_⟩⟩
        · exact beq_iff_eq.mpr (lexical token member (beq_iff_eq.mp kind))
        · exact renames.identifier token member renamable
        · exact beq_iff_eq.mpr (renames.lexical token member renamable)
    · exact .inl rfl
  known identifier := .inr ⟨token, member, identifier, rfl⟩
  name identifier := (newName_nameOf renames member identifier).symm

end Names

namespace Walk

theorem Renames.analysis {known : String → Prop} {rename : String → String}
    {first second : Walk} (apart : KeepsApart known rename)
    (renames : Renames known rename first second) (options : Options) :
    (Analysis.ofWalk first (options.keep (first.diagnostics options))).Renames
      rename
      (Analysis.ofWalk second (options.keep (second.diagnostics options))) where
  tokens := renames.cursor.toList.imp fun _ _ pair => pair.toSameRole
  classified := List.rel_reverse renames.memory.classified
  symbols := by
    simp only [Analysis.ofWalk, renames.symbols_eq]
    exact SymbolTable.toList_renamed apart renames.memory.symbols_known
  peakScopeDepth := by
    simp only [Analysis.ofWalk, renames.scopes_eq, ScopeStack.renamed]
  scopeResets := renames.memory.resets.symm
  diagnostics := options.keep_rel (diagnostics_rel options
    (renames.findings.imp fun _ _ same =>
      ⟨same.code, fun _ => ⟨rfl, same.code, same.anchor⟩⟩))

end Walk

theorem renames_analyze (options : Options) {text : String}
    {anew : Token → String} (renames : IsRenaming anew (scan text).tokens) :
    (analyze options (scan text).tokens).Renames
      (newName anew (scan text).tokens)
      (analyze options ((scan text).tokens.map (Token.renamed anew))) := by
  have names := renamesScopes_newName renames
  have pairs : List.Forall₂
      (Token.Renames (IsKnownName (scan text).tokens)
        (newName anew (scan text).tokens))
      (scan text).tokens ((scan text).tokens.map (Token.renamed anew)) := by
    rw [List.forall₂_map_right_iff, List.forall₂_same]
    exact fun token member => Token.renames_renamed renames
      (fun _ => Scan.lexicalKind_of_kind_nil) member
  rw [analyze_eq_ofWalk, analyze_eq_ofWalk]
  exact (Walk.renames_document names pairs).analysis names.toKeepsApart options

namespace Literal

variable {text : String}

theorem toList_escaped (text : String) :
    (escaped text).toList = '$' :: (nameOf text).toList := by
  rw [escaped, String.toList_append]
  rfl

theorem nameOf_escaped (text : String) : nameOf (escaped text) = nameOf text := by
  rw [nameOf, toList_escaped]
  exact String.ofList_toList

theorem isIdentifier_escaped (identifier : isIdentifier text) :
    isIdentifier (escaped text) := by
  rw [isIdentifier, toList_escaped]
  exact isPlainName_nameOf identifier

theorem lexicalKind_escaped (identifier : isIdentifier text) :
    Scan.lexicalKind (escaped text) = .nil := by
  rw [Scan.lexicalKind_of_isIdentifier (isIdentifier_escaped identifier)]
  cases found : Keyword.ofSpelling? (escaped text) with
  | none => rfl
  | some word =>
      have unescaped := (Terminal.head?_spelling word).1
      rw [Terminal.spelling, Keyword.ofSpelling?_eq_some_iff.mp found,
        toList_escaped] at unescaped
      exact absurd rfl unescaped

end Literal

section Escapes

variable (chosen : Token → Bool) (tokens : List Token)

theorem nameOf_escape (token : Token) :
    Literal.nameOf (token.escape chosen).text = Literal.nameOf token.text := by
  unfold Token.escape Token.renamed
  split
  · simp only [Token.escapedText]
    split
    · exact Literal.nameOf_escaped token.text
    · rfl
  · rfl

theorem newName_escape :
    newName (Token.escapedText chosen) tokens = id := by
  funext name
  unfold newName
  split
  · next token found =>
      have has_name := List.find?_some found
      have same := (Bool.and_eq_true_iff.mp has_name).2
      exact (nameOf_escape chosen token).trans (beq_iff_eq.mp same)
  · rfl

theorem isRenaming_escape (lexical : ∀ token ∈ tokens, token.kind = .nil →
      Scan.lexicalKind token.text = .nil) :
    IsRenaming (Token.escapedText chosen) tokens where
  identifier token member renamable := by
    have identifier := (Bool.and_eq_true_iff.mp renamable).2
    unfold Token.escapedText
    split
    · exact Literal.isIdentifier_escaped identifier
    · exact identifier
  lexical token member renamable := by
    obtain ⟨kind, identifier⟩ := Bool.and_eq_true_iff.mp renamable
    unfold Token.escapedText
    split
    · exact Literal.lexicalKind_escaped identifier
    · exact lexical token member (beq_iff_eq.mp kind)
  names first _ second _ _ _ := by
    have unchanged := nameOf_escape chosen
    unfold Token.escape at unchanged
    rw [unchanged, unchanged]

end Escapes

/-- A renaming of the identifiers renames what the analysis finds, and escapes
leave it as it is. -/
theorem analyze_renamed (options : Options) (text : String) :
    let tokens := (scan text).tokens
    (∀ anew, IsRenaming anew tokens →
      (∀ token ∈ tokens, Literal.isIdentifier token.text →
        newName anew tokens (Literal.nameOf token.text) =
          Literal.nameOf (token.renamed anew).text) ∧
      (analyze options tokens).Renames (newName anew tokens)
        (analyze options (tokens.map (Token.renamed anew)))) ∧
      ∀ chosen, (analyze options tokens).Renames id
        (analyze options (tokens.map (Token.escape chosen))) := by
  intro tokens
  refine ⟨fun anew renames => ⟨fun token => newName_nameOf renames,
    renames_analyze options renames⟩, fun chosen => ?_⟩
  have escapes := renames_analyze options
    (isRenaming_escape chosen tokens fun _ => Scan.lexicalKind_of_kind_nil)
  rwa [newName_escape] at escapes

def swapNames (token : Token) : String :=
  ([("M", "$module"), ("a", "b"), ("$a", "b"), ("b", "$a")].lookup
    token.text).getD token.text

def nestedModules : String :=
  "module M \x7b\nmodule N \x7b\nconstant a = b\nconstant b = $a\n\x7d\n\x7d"

theorem analyze_renamed_swapNames :
    let tokens := (scan nestedModules).tokens
    let rename := newName swapNames tokens
    let analysis := analyze .strict tokens
    IsRenaming swapNames tokens ∧
      analysis.Renames rename
        (analyze .strict (tokens.map (Token.renamed swapNames))) ∧
      (analysis.symbols.map fun symbol =>
        (rename symbol.name, renamedPath rename symbol.scope)) =
        [("module", "<global>"), ("N", "module"), ("b", "module.N"),
          ("a", "module.N")] := by
  intro tokens rename analysis
  have facts : IsRenaming swapNames tokens ∧
      (analysis.symbols.map fun symbol =>
        (rename symbol.name, renamedPath rename symbol.scope)) =
        [("module", "<global>"), ("N", "module"), ("b", "module.N"),
          ("a", "module.N")] := by
    decide +kernel
  obtain ⟨renames, renamed⟩ := facts
  exact ⟨renames,
    ((analyze_renamed .strict nestedModules).1 swapNames renames).2, renamed⟩

end ComponentLang
