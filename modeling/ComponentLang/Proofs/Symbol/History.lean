import ComponentLang.Proofs.Symbol.Tables

namespace ComponentLang

namespace SymbolTable

/-- The table answers as the symbols that were declared in it say. -/
structure Records (table : SymbolTable) (history : List Symbol) : Prop where
  /-- A second declaration of a name in its scope is told by the first one
  there. -/
  duplicate : ∀ symbol earlier,
    (table.declare symbol).1 = .duplicate earlier ↔
      ∃ front first back, history = front ++ first :: back ∧
        first.scope = symbol.scope ∧ first.name = symbol.name ∧
        (∀ other ∈ front,
          ¬(other.scope = symbol.scope ∧ other.name = symbol.name)) ∧
        earlier = first.remembered
  /-- It changes nothing. -/
  unchanged : ∀ symbol earlier,
    (table.declare symbol).1 = .duplicate earlier →
      (table.declare symbol).2 = table
  elsewhere : ∀ symbol, (table.declare symbol).1 = .elsewhere ↔
    (∃ other ∈ history, other.name = symbol.name) ∧
      ∀ other ∈ history, other.name = symbol.name →
        other.scope ≠ symbol.scope
  added : ∀ symbol, (table.declare symbol).1 = .added ↔
    ∀ other ∈ history, other.name ≠ symbol.name
  toList : table.toList =
    (Symbol.firstOfEachName history).map Symbol.remembered
  names : table.names = (Symbol.firstOfEachName history).map (·.name)
  lookup? : ∀ name, table.lookup? name =
    (history.find? fun symbol => symbol.name == name).map Symbol.remembered
  contains : ∀ name, table.contains name ↔
    ∃ symbol ∈ history, symbol.name = name
  inScope : ∀ scope, table.inScope scope =
    ((Symbol.firstOfEachName history).filter
      fun symbol => symbol.scope == scope).map Symbol.remembered

/-! What is told of a declaration, and what it does. -/

section Declare

variable {table : SymbolTable} {symbol : Symbol}

theorem contains_of_clash {earlier : Symbol}
    (found : table.declarations.find? symbol.clashes = some earlier) :
    table.contains symbol.name := by
  obtain ⟨-, name⟩ := Symbol.clashes_iff.mp (List.find?_some found)
  rw [contains, lookup?, oldest?_isSome, List.any_eq_true]
  exact ⟨earlier, List.mem_of_find?_eq_some found, beq_iff_eq.mpr name⟩

theorem declare_eq_duplicate_iff {earlier : Symbol} :
    (table.declare symbol).1 = .duplicate earlier ↔
      table.declarations.find? symbol.clashes = some earlier := by
  rw [declare_eq]
  cases table.declarations.find? symbol.clashes with
  | some other => simp
  | none => cases table.contains symbol.name <;> simp

theorem declare_eq_elsewhere_iff :
    (table.declare symbol).1 = .elsewhere ↔
      table.contains symbol.name ∧
        table.declarations.find? symbol.clashes = none := by
  rw [declare_eq]
  cases table.declarations.find? symbol.clashes with
  | some other => simp
  | none => cases table.contains symbol.name <;> simp

theorem declare_eq_added_iff :
    (table.declare symbol).1 = .added ↔ ¬table.contains symbol.name := by
  rw [declare_eq]
  cases found : table.declarations.find? symbol.clashes with
  | some other => simp [contains_of_clash found]
  | none => cases table.contains symbol.name <;> simp

theorem declare_of_duplicate {earlier : Symbol}
    (registered : (table.declare symbol).1 = .duplicate earlier) :
    (table.declare symbol).2 = table := by
  rw [declare_eq, declare_eq_duplicate_iff.mp registered]

/-- A declaration tells what its name stands for unless that is known. -/
theorem lookup?_declare (name : String) :
    (table.declare symbol).2.lookup? name =
      (table.lookup? name).or
        (if symbol.name == name then some symbol.remembered else none) := by
  rw [declare_eq]
  cases found : table.declarations.find? symbol.clashes with
  | some earlier =>
      dsimp only
      split
      · next same =>
          obtain rfl := beq_iff_eq.mp same
          exact (Option.or_of_isSome (contains_of_clash found)).symm
      · exact Option.or_none.symm
  | none =>
      simp only [lookup?, oldest?]
      cases oldest? name table.declarations with
      | some oldest => rfl
      | none => rfl

end Declare

/-! The same of a table that was empty, told by what was declared in it. -/

section History

variable {history : List Symbol} {symbol : Symbol}

theorem lookup?_declareAll (history : List Symbol) (name : String) :
    (declareAll {} history).lookup? name =
      (history.find? fun symbol => symbol.name == name).map
        Symbol.remembered := by
  induction history using List.reverseRecOn with
  | nil => rfl
  | append_singleton history last induction =>
      rw [declareAll_concat, lookup?_declare, induction, List.find?_append,
        List.find?_singleton, Option.map_or]
      split <;> rfl

theorem contains_declareAll (history : List Symbol) (name : String) :
    (declareAll {} history).contains name ↔
      ∃ symbol ∈ history, symbol.name = name := by
  rw [contains, lookup?_declareAll, Option.isSome_map, List.find?_isSome]
  simp only [beq_iff_eq]

theorem find?_clashes_eq_some_iff {first : Symbol} :
    history.find? symbol.clashes = some first ↔
      ∃ front back, history = front ++ first :: back ∧
        first.scope = symbol.scope ∧ first.name = symbol.name ∧
        ∀ other ∈ front,
          ¬(other.scope = symbol.scope ∧ other.name = symbol.name) := by
  rw [List.find?_eq_some_iff_append]
  simp only [Symbol.clashes_iff, Bool.not_eq_true', ← Bool.not_eq_true]
  constructor
  · rintro ⟨⟨scope, name⟩, front, back, history_eq, others⟩
    exact ⟨front, back, history_eq, scope, name, others⟩
  · rintro ⟨front, back, history_eq, scope, name, others⟩
    exact ⟨⟨scope, name⟩, front, back, history_eq, others⟩

theorem find?_clashes_eq_none_iff :
    history.find? symbol.clashes = none ↔
      ∀ other ∈ history, other.name = symbol.name →
        other.scope ≠ symbol.scope := by
  rw [List.find?_eq_none]
  simp only [Symbol.clashes_iff, not_and]
  exact forall₂_congr fun other _ => ⟨fun apart name scope => apart scope name,
    fun apart scope name => apart name scope⟩

end History

/-- Whatever was declared, the table says what its history says. -/
theorem records_declareAll (history : List Symbol) :
    (declareAll {} history).Records history := by
  have known := contains_declareAll history
  have listed := toList_declareAll history
  refine ⟨?duplicate, fun _ _ => declare_of_duplicate, ?elsewhere, ?added,
    listed, ?names, lookup?_declareAll history, known, ?inScope⟩
  case duplicate =>
    intro symbol earlier
    rw [declare_eq_duplicate_iff, find?_declareAll, Option.map_eq_some_iff]
    constructor
    · rintro ⟨first, found, rfl⟩
      obtain ⟨front, back, history_eq, scope, name, others⟩ :=
        find?_clashes_eq_some_iff.mp found
      exact ⟨front, first, back, history_eq, scope, name, others, rfl⟩
    · rintro ⟨front, first, back, history_eq, scope, name, others, rfl⟩
      exact ⟨first, find?_clashes_eq_some_iff.mpr
        ⟨front, back, history_eq, scope, name, others⟩, rfl⟩
  case elsewhere =>
    intro symbol
    rw [declare_eq_elsewhere_iff, known, find?_declareAll,
      Option.map_eq_none_iff, find?_clashes_eq_none_iff]
  case added =>
    intro symbol
    rw [declare_eq_added_iff, known]
    exact ⟨fun unknown other member name => unknown ⟨other, member, name⟩,
      fun unknown ⟨other, member, name⟩ => unknown other member name⟩
  case names =>
    rw [SymbolTable.names, listed, List.map_map]
    rfl
  case inScope =>
    intro scope
    rw [SymbolTable.inScope, listed, List.filter_map]
    rfl

end SymbolTable

end ComponentLang
