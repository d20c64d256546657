import ComponentLang.Finding
import ComponentLang.Proofs.Symbol.Renaming
import ComponentLang.Proofs.Symbol.Tables
import ComponentLang.Walk.Run
import Mathlib.Data.List.Find

namespace ComponentLang

/-! Scopes by their names. -/

def ScopeStack.names (scopes : ScopeStack) : List String :=
  scopes.inner.reverse.map (·.name)

/-- The path to the innermost of the named scopes, outermost first. -/
def scopePath : List String → String
  | [] => Scope.global.name
  | names@(_ :: _) => ".".intercalate names

theorem ScopeStack.path_eq (scopes : ScopeStack) :
    scopes.path = scopePath scopes.names := by
  obtain ⟨inner, peak⟩ := scopes
  cases inner using List.reverseRecOn with
  | nil => rfl
  | append_singleton inner outermost =>
      have some_scope : inner ++ [outermost] ≠ [] := by simp
      unfold path names
      dsimp only
      split
      · contradiction
      · rw [List.reverse_concat, List.map_cons, scopePath]

structure IsScopeName (name : String) : Prop where
  pointless : '.' ∉ name.toList
  inner : name ≠ Scope.global.name

theorem isScopeName_of_isPlainName {name : String}
    (plain : Literal.isPlainName name.toList) : IsScopeName name := by
  refine ⟨Literal.not_mem_point_of_isPlainName plain, ?_⟩
  rintro rfl
  exact absurd plain (by decide)

theorem isScopeName_parameterScope {owner : Option String}
    (named : ∀ name ∈ owner, IsScopeName name) :
    IsScopeName (Walk.parameterScope owner) := by
  cases owner with
  | none => exact ⟨by decide, by decide⟩
  | some name => exact named name rfl

theorem pathNames_scopePath {names : List String}
    (scopes : ∀ name ∈ names, IsScopeName name) :
    pathNames (scopePath names) =
      if names = [] then [Scope.global.name] else names := by
  cases names with
  | nil => decide +kernel
  | cons first others =>
      exact pathNames_intercalate (List.cons_ne_nil _ _)
        fun name member => (scopes name member).pointless

theorem scopePath_injective {names others : List String}
    (left : ∀ name ∈ names, IsScopeName name)
    (right : ∀ name ∈ others, IsScopeName name)
    (same : scopePath names = scopePath others) : names = others := by
  have global {names : List String} (scopes : ∀ name ∈ names, IsScopeName name) :
      names ≠ [Scope.global.name] := by
    rintro rfl
    exact (scopes _ List.mem_cons_self).inner rfl
  have parts := congrArg pathNames same
  rw [pathNames_scopePath left, pathNames_scopePath right] at parts
  split at parts
  · next none_left =>
      split at parts
      · next none_right => rw [none_left, none_right]
      · exact absurd parts.symm (global right)
  · split at parts
    · exact absurd parts (global left)
    · exact parts

theorem eq_of_split_eq {α β : Type} {place : α → β} {list : List α}
    (distinct : (list.map place).Nodup) {front back left right : List α}
    {first second : α} (split_eq : list = front ++ first :: back)
    (other_eq : list = left ++ second :: right)
    (same : place first = place second) : front = left ∧ first = second := by
  induction front generalizing list left with
  | nil =>
      cases left with
      | nil =>
          obtain ⟨rfl, -⟩ := List.cons.inj (split_eq.symm.trans other_eq)
          exact ⟨rfl, rfl⟩
      | cons head left =>
          subst other_eq
          obtain ⟨rfl, -⟩ := List.cons.inj split_eq
          rw [List.cons_append, List.map_cons, List.nodup_cons] at distinct
          exact absurd (by simp [same]) distinct.1
  | cons head front induction =>
      cases left with
      | nil =>
          subst split_eq
          obtain ⟨rfl, -⟩ := List.cons.inj other_eq
          rw [List.cons_append, List.map_cons, List.nodup_cons] at distinct
          exact absurd (by simp [same]) distinct.1
      | cons other left =>
          subst split_eq
          obtain ⟨rfl, rest_eq⟩ := List.cons.inj other_eq
          rw [List.cons_append, List.map_cons, List.nodup_cons] at distinct
          obtain ⟨rfl, rfl⟩ := induction distinct.2 rfl rest_eq
          exact ⟨rfl, rfl⟩

theorem exists_split_of_mem {α : Type} {list : List α} {first second : α}
    (first_mem : first ∈ list) (second_mem : second ∈ list)
    (different : first ≠ second) :
    (∃ front between back,
        list = front ++ first :: (between ++ second :: back)) ∨
      ∃ front between back,
        list = front ++ second :: (between ++ first :: back) := by
  obtain ⟨front, back, rfl⟩ := List.append_of_mem first_mem
  rcases List.mem_append.mp second_mem with earlier | later
  · obtain ⟨left, right, rfl⟩ := List.append_of_mem earlier
    exact .inr ⟨left, right, back, by simp⟩
  · have behind := (List.mem_cons.mp later).resolve_left different.symm
    obtain ⟨left, right, rfl⟩ := List.append_of_mem behind
    exact .inl ⟨front, left, right, rfl⟩

/-! Defining occurrences. -/

/-- Where a name is defined: the token it stands at, what it is the name of, and
the scopes that are open there, outermost first. -/
structure Occurrence where
  token : Token
  kind : TokenKind
  modifiers : Modifiers
  scopes : List String
  deriving DecidableEq, Repr

namespace Occurrence

def name (occurrence : Occurrence) : String :=
  Literal.nameOf occurrence.token.text

def symbol (occurrence : Occurrence) : Symbol where
  name := occurrence.name
  scope := scopePath occurrence.scopes
  kind := occurrence.kind
  modifiers := occurrence.modifiers.withDeclaration
  line := occurrence.token.line
  column := occurrence.token.column

/-- The two define the same name in the same scopes. -/
def meets (later earlier : Occurrence) : Bool :=
  later.name == earlier.name && later.scopes == earlier.scopes

def reopens (later earlier : Occurrence) : Bool :=
  earlier.kind == .namespace && later.kind == .namespace

/-- What an occurrence duplicates behind the earlier ones: the first of its name
in its scopes, unless it is a module that is opened again. -/
def duplicated? (earlier : List Occurrence) (occurrence : Occurrence) :
    Option Occurrence :=
  (earlier.find? occurrence.meets).filter fun first => !occurrence.reopens first

/-- Each duplicate among the occurrences, which come behind the earlier ones,
together with what it duplicates. -/
def duplicatesBehind (earlier : List Occurrence) :
    List Occurrence → List (Occurrence × Occurrence)
  | [] => []
  | occurrence :: later =>
      ((occurrence.duplicated? earlier).map (occurrence, ·)).toList ++
        duplicatesBehind (earlier ++ [occurrence]) later

def duplicates (occurrences : List Occurrence) :
    List (Occurrence × Occurrence) :=
  duplicatesBehind [] occurrences

theorem mem_duplicatesBehind {earlier occurrences : List Occurrence}
    {later first : Occurrence} :
    (later, first) ∈ duplicatesBehind earlier occurrences ↔
      ∃ front back, occurrences = front ++ later :: back ∧
        later.duplicated? (earlier ++ front) = some first := by
  induction occurrences generalizing earlier with
  | nil => simp [duplicatesBehind]
  | cons occurrence rest induction =>
      rw [duplicatesBehind, List.mem_append, Option.mem_toList,
        Option.map_eq_some_iff, induction]
      constructor
      · rintro (⟨found, found_eq, same⟩ | ⟨front, back, rfl, found_eq⟩)
        · cases same
          exact ⟨[], rest, rfl, by rwa [List.append_nil]⟩
        · refine ⟨occurrence :: front, back, rfl, ?_⟩
          rwa [List.append_assoc] at found_eq
      · rintro ⟨front, back, split_eq, found_eq⟩
        cases front with
        | nil =>
            cases split_eq
            rw [List.append_nil] at found_eq
            exact .inl ⟨first, found_eq, rfl⟩
        | cons head front =>
            cases split_eq
            refine .inr ⟨front, back, rfl, ?_⟩
            rwa [List.append_assoc]

theorem mem_duplicates {occurrences : List Occurrence}
    {later first : Occurrence} :
    (later, first) ∈ duplicates occurrences ↔
      ∃ front back, occurrences = front ++ later :: back ∧
        later.duplicated? front = some first :=
  mem_duplicatesBehind

theorem meets_iff {later earlier : Occurrence} :
    later.meets earlier ↔
      later.name = earlier.name ∧ later.scopes = earlier.scopes := by
  rw [meets, Bool.and_eq_true, beq_iff_eq, beq_iff_eq]

theorem meets_symm {first second : Occurrence} (meet : first.meets second) :
    second.meets first := by
  obtain ⟨name_eq, scopes_eq⟩ := meets_iff.mp meet
  exact meets_iff.mpr ⟨name_eq.symm, scopes_eq.symm⟩

theorem meets_congr {first second : Occurrence} (meet : first.meets second) :
    first.meets = second.meets := by
  obtain ⟨name_eq, scopes_eq⟩ := meets_iff.mp meet
  funext other
  rw [meets, meets, name_eq, scopes_eq]

theorem meets_of_mem_duplicates {occurrences : List Occurrence}
    {later first : Occurrence}
    (duplicate : (later, first) ∈ duplicates occurrences) :
    later.meets first := by
  obtain ⟨front, back, -, duplicated⟩ := mem_duplicates.mp duplicate
  exact List.find?_some (Option.filter_eq_some_iff.mp duplicated).1

theorem duplicated?_of_kind {occurrence : Occurrence}
    (no_module : occurrence.kind ≠ .namespace) (earlier : List Occurrence) :
    occurrence.duplicated? earlier = earlier.find? occurrence.meets := by
  rw [duplicated?]
  cases earlier.find? occurrence.meets with
  | none => rfl
  | some first => simp [reopens, no_module]

section Distinct

variable {occurrences front back between : List Occurrence}
  {first second later : Occurrence}
  (distinct : (occurrences.map token).Nodup)
include distinct

theorem mem_duplicates_of_split
    (split_eq : occurrences = front ++ later :: back) :
    (later, first) ∈ duplicates occurrences ↔
      later.duplicated? front = some first := by
  rw [mem_duplicates]
  constructor
  · rintro ⟨left, right, other_eq, duplicated⟩
    obtain ⟨rfl, -⟩ := eq_of_split_eq distinct other_eq split_eq rfl
    exact duplicated
  · exact fun duplicated => ⟨front, back, split_eq, duplicated⟩

variable (split_eq : occurrences = front ++ first :: (between ++ second :: back))
  (meet : second.meets first) (no_module : second.kind ≠ .namespace)
include split_eq meet no_module

theorem exists_duplicate_of_meets :
    ∃ other, (second, other) ∈ duplicates occurrences := by
  have split_eq' : occurrences = front ++ first :: between ++ second :: back := by
    simp [split_eq]
  have some_found :
      ((front ++ first :: between).find? second.meets).isSome := by
    rw [List.find?_isSome]
    exact ⟨first, by simp, meet⟩
  obtain ⟨other, found⟩ := Option.isSome_iff_exists.mp some_found
  refine ⟨other, (mem_duplicates_of_split distinct split_eq').mpr ?_⟩
  rw [duplicated?_of_kind no_module, found]

theorem mem_duplicates_iff_of_meets (first_kind : first.kind ≠ .namespace) :
    ((first, second) ∈ duplicates occurrences ∨
        (second, first) ∈ duplicates occurrences) ↔
      ¬∃ other, (first, other) ∈ duplicates occurrences := by
  have split_eq' : occurrences = front ++ first :: between ++ second :: back := by
    simp [split_eq]
  have not_front : ∀ other ∈ front, other.token ≠ first.token ∧
      other.token ≠ second.token := by
    intro other member
    rw [split_eq, List.map_append, List.nodup_append] at distinct
    have apart := distinct.2.2 other.token (List.mem_map_of_mem member)
    exact ⟨apart _ (by simp), apart _ (by simp)⟩
  simp only [mem_duplicates_of_split distinct split_eq,
    mem_duplicates_of_split distinct split_eq', duplicated?_of_kind no_module,
    duplicated?_of_kind first_kind, ← meets_congr meet, List.find?_append,
    List.find?_cons_of_pos meet]
  cases found : front.find? second.meets with
  | none => simp
  | some other =>
      have member := List.mem_of_find?_eq_some found
      obtain ⟨not_first, not_second⟩ := not_front other member
      have apart : other ≠ first := by
        rintro rfl
        exact not_first rfl
      have apart' : other ≠ second := by
        rintro rfl
        exact not_second rfl
      simp [apart, apart']

omit split_eq meet no_module

/-- Of two occurrences that meet, one is a duplicate of the other unless both
are duplicates of an earlier one. -/
theorem mem_duplicates_iff (first_mem : first ∈ occurrences)
    (second_mem : second ∈ occurrences) (different : first ≠ second)
    (meet : first.meets second) (first_kind : first.kind ≠ .namespace)
    (second_kind : second.kind ≠ .namespace) :
    ((first, second) ∈ duplicates occurrences ∨
        (second, first) ∈ duplicates occurrences) ↔
      ¬((∃ other, (first, other) ∈ duplicates occurrences) ∧
        ∃ other, (second, other) ∈ duplicates occurrences) := by
  rcases exists_split_of_mem first_mem second_mem different with
    ⟨front, between, back, split_eq⟩ | ⟨front, between, back, split_eq⟩
  · have later := exists_duplicate_of_meets distinct split_eq (meets_symm meet)
      second_kind
    rw [mem_duplicates_iff_of_meets distinct split_eq (meets_symm meet)
      second_kind first_kind]
    simp [later]
  · have later := exists_duplicate_of_meets distinct split_eq meet first_kind
    rw [or_comm, mem_duplicates_iff_of_meets distinct split_eq meet first_kind
      second_kind]
    simp [later]

theorem exists_duplicate_of_mem (first_mem : first ∈ occurrences)
    (second_mem : second ∈ occurrences) (different : first ≠ second)
    (meet : first.meets second) (first_kind : first.kind ≠ .namespace)
    (second_kind : second.kind ≠ .namespace) :
    (∃ other, (first, other) ∈ duplicates occurrences) ∨
      ∃ other, (second, other) ∈ duplicates occurrences := by
  rcases exists_split_of_mem first_mem second_mem different with
    ⟨front, between, back, split_eq⟩ | ⟨front, between, back, split_eq⟩
  · exact .inr (exists_duplicate_of_meets distinct split_eq (meets_symm meet)
      second_kind)
  · exact .inl (exists_duplicate_of_meets distinct split_eq meet first_kind)

end Distinct

/-! The table of symbols behind some occurrences. -/

theorem clashes_symbol {first second : Occurrence}
    (left : ∀ name ∈ first.scopes, IsScopeName name)
    (right : ∀ name ∈ second.scopes, IsScopeName name) :
    first.symbol.clashes second.symbol = first.meets second := by
  have scopes_beq : (scopePath first.scopes == scopePath second.scopes) =
      (first.scopes == second.scopes) := by
    rw [Bool.eq_iff_iff, beq_iff_eq, beq_iff_eq]
    exact ⟨scopePath_injective left right, congrArg scopePath⟩
  rw [Symbol.clashes, meets, Bool.and_comm]
  exact congrArg (_ && ·) scopes_beq

end Occurrence

namespace SymbolTable

def duplicate? (table : SymbolTable) (occurrence : Occurrence) :
    Option Finding :=
  match (table.declare occurrence.symbol).1 with
  | .duplicate earlier =>
      if earlier.kind == .namespace && occurrence.kind == .namespace then none
      else some ⟨.duplicateDeclaration earlier.clash, occurrence.token⟩
  | _ => none

theorem duplicate?_eq_none {table : SymbolTable} {occurrence : Occurrence}
    (fresh : table.declarations.find? occurrence.symbol.clashes = none) :
    table.duplicate? occurrence = none := by
  rw [duplicate?, declare_eq, fresh]
  dsimp only
  cases table.contains occurrence.symbol.name <;> rfl

theorem duplicate?_eq_some {table : SymbolTable} {occurrence : Occurrence}
    {earlier : Symbol}
    (known : table.declarations.find? occurrence.symbol.clashes =
      some earlier) :
    table.duplicate? occurrence =
      if earlier.kind == .namespace && occurrence.kind == .namespace then none
      else some ⟨.duplicateDeclaration earlier.clash, occurrence.token⟩ := by
  rw [duplicate?, declare_eq, known]

def duplicates : SymbolTable → List Occurrence → List Finding
  | _, [] => []
  | table, occurrence :: later =>
      (table.duplicate? occurrence).toList ++
        duplicates (table.declare occurrence.symbol).2 later

theorem duplicates_append (table : SymbolTable)
    (front back : List Occurrence) :
    table.duplicates (front ++ back) =
      table.duplicates front ++
        (table.declareAll (front.map Occurrence.symbol)).duplicates back := by
  induction front generalizing table with
  | nil => rfl
  | cons occurrence front induction =>
      rw [List.cons_append, duplicates, duplicates, induction, List.append_assoc]
      rfl

end SymbolTable

namespace Occurrence

def finding (pair : Occurrence × Occurrence) : Finding where
  cause := .duplicateDeclaration pair.2.symbol.remembered.clash
  anchor := pair.1.token

theorem duplicate?_eq {earlier : List Occurrence} {occurrence : Occurrence}
    (named : ∀ other ∈ earlier ++ [occurrence],
      ∀ name ∈ other.scopes, IsScopeName name) :
    (SymbolTable.declareAll {} (earlier.map symbol)).duplicate? occurrence =
      (occurrence.duplicated? earlier).map fun first =>
        finding (occurrence, first) := by
  have here := named occurrence (by simp)
  have found_eq : (earlier.map symbol).find? occurrence.symbol.clashes =
      (earlier.find? occurrence.meets).map symbol := by
    rw [List.find?_map]
    congr 1
    apply List.find?_congr
    intro other member
    exact clashes_symbol here (named other (List.mem_append_left _ member))
  have table_eq := SymbolTable.find?_declareAll (earlier.map symbol)
    occurrence.symbol
  rw [found_eq] at table_eq
  rw [duplicated?]
  cases first_eq : earlier.find? occurrence.meets with
  | none =>
      rw [first_eq] at table_eq
      exact SymbolTable.duplicate?_eq_none table_eq
  | some first =>
      rw [first_eq] at table_eq
      rw [SymbolTable.duplicate?_eq_some table_eq, Option.filter_some]
      change (if occurrence.reopens first then _ else _) = _
      cases occurrence.reopens first <;> rfl

theorem duplicates_eq {earlier occurrences : List Occurrence}
    (named : ∀ other ∈ earlier ++ occurrences,
      ∀ name ∈ other.scopes, IsScopeName name) :
    (SymbolTable.declareAll {} (earlier.map symbol)).duplicates occurrences =
      (duplicatesBehind earlier occurrences).map finding := by
  induction occurrences generalizing earlier with
  | nil => rfl
  | cons occurrence later induction =>
      have whole : earlier ++ occurrence :: later =
          earlier ++ [occurrence] ++ later := by simp
      rw [whole] at named
      have front := duplicate?_eq
        fun other member => named other (List.mem_append_left _ member)
      have table_eq : ((SymbolTable.declareAll {} (earlier.map symbol)).declare
          occurrence.symbol).2 =
            SymbolTable.declareAll {} ((earlier ++ [occurrence]).map symbol) := by
        rw [List.map_append, SymbolTable.declareAll_append]
        rfl
      rw [SymbolTable.duplicates, duplicatesBehind, front, table_eq,
        induction named, List.map_append]
      cases occurrence.duplicated? earlier <;> rfl

end Occurrence

end ComponentLang
