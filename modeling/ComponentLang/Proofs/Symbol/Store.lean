import ComponentLang.Proofs.Symbol.History
import ComponentLang.Symbol.Store

namespace ComponentLang

def Registration.answer : Registration → Except Clash Bool
  | .added => .ok true
  | .elsewhere => .ok false
  | .duplicate earlier => .error earlier.clash

namespace SymbolStore

/-- The three containers of the store hold what the table says. -/
structure Represents (store : SymbolStore) (table : SymbolTable) : Prop where
  listed : store.toList = table.toList
  found : ∀ name, store.lookup? name = table.lookup? name
  placed : ∀ name place, store.index.get? name = some place →
    place < store.symbols.size
  kept : ∀ symbol : Symbol,
    store.byScope.get? (symbol.scope, symbol.name) =
      (table.declarations.find? symbol.clashes).map Symbol.declaration

theorem represents_empty : Represents {} {} where
  listed := rfl
  found _ := rfl
  placed _ _ there := by cases there
  kept _ := rfl

section Declare

variable {store : SymbolStore} {table : SymbolTable}

theorem Represents.contains_eq (represents : store.Represents table)
    (name : String) : store.contains name = table.contains name := by
  rw [SymbolTable.contains, ← represents.found, contains, KeyedMap.contains,
    lookup?]
  cases there : store.index.get? name with
  | none => rfl
  | some place =>
      rw [Option.bind_some, Array.getElem?_eq_getElem (represents.placed _ _ there)]
      rfl

theorem Represents.get?_insert (represents : store.Represents table)
    {symbol : Symbol} {declared : List Symbol}
    (declared_eq : declared = symbol.remembered :: table.declarations)
    (other : Symbol) :
    (store.byScope.insert (symbol.scope, symbol.name)
        symbol.declaration).get? (other.scope, other.name) =
      (declared.find? other.clashes).map Symbol.declaration := by
  rw [KeyedMap.get?_insert, declared_eq, List.find?_cons,
    Symbol.clashes_remembered, Symbol.clashes, represents.kept]
  change (if other.scope == symbol.scope && other.name == symbol.name then _
    else _) = _
  cases other.scope == symbol.scope && other.name == symbol.name <;> rfl

theorem lookup?_push (placed : ∀ name place,
      store.index.get? name = some place → place < store.symbols.size)
    (symbol : Symbol) (byScope) (name : String) :
    lookup? ⟨store.symbols.push symbol,
        store.index.insert symbol.name store.symbols.size, byScope⟩ name =
      if name == symbol.name then some symbol else store.lookup? name := by
  simp only [lookup?, KeyedMap.get?_insert]
  cases name == symbol.name with
  | true => simp
  | false =>
      simp only [Bool.false_eq_true, if_false]
      cases there : store.index.get? name with
      | none => rfl
      | some place =>
          have within := placed name place there
          simp only [Option.bind_some]
          rw [Array.getElem?_push, if_neg (Nat.ne_of_lt within)]

theorem Represents.again (represents : store.Represents table)
    {symbol : Symbol} (known : table.contains symbol.name) :
    Represents
      { store with
        byScope := store.byScope.insert (symbol.scope, symbol.name)
          symbol.declaration }
      ⟨symbol.remembered :: table.declarations⟩ where
  listed := by
    rw [SymbolTable.toList, SymbolTable.firstOfName, if_pos]
    · exact represents.listed
    · rwa [← SymbolTable.oldest?_isSome]
  found name := by
    refine (represents.found name).trans ?_
    simp only [SymbolTable.lookup?, SymbolTable.oldest?]
    cases there : SymbolTable.oldest? name table.declarations with
    | some oldest => rfl
    | none =>
        refine (if_neg fun same => ?_).symm
        obtain rfl := beq_iff_eq.mp same
        have unknown : SymbolTable.oldest? symbol.name table.declarations =
            none := there
        rw [SymbolTable.contains, SymbolTable.lookup?, unknown] at known
        cases known
  placed := represents.placed
  kept := represents.get?_insert rfl

theorem Represents.first (represents : store.Represents table)
    {symbol : Symbol} (fresh : table.contains symbol.name = false) :
    Represents
      { symbols := store.symbols.push symbol.remembered
        index := store.index.insert symbol.name store.symbols.size
        byScope := store.byScope.insert (symbol.scope, symbol.name)
          symbol.declaration }
      ⟨symbol.remembered :: table.declarations⟩ where
  listed := by
    have unlisted : ¬(table.declarations.any fun other =>
        other.name == symbol.remembered.name) := by
      rw [← SymbolTable.oldest?_isSome]
      exact Bool.eq_false_iff.mp fresh
    rw [SymbolTable.toList, SymbolTable.firstOfName, if_neg unlisted,
      List.reverse_cons, ← SymbolTable.toList, ← represents.listed]
    exact Array.toList_push
  found name := by
    refine (lookup?_push represents.placed symbol.remembered _ name).trans ?_
    simp only [represents.found, SymbolTable.lookup?, SymbolTable.oldest?,
      BEq.comm (a := name)]
    split
    · next same =>
        obtain rfl := beq_iff_eq.mp same
        have unknown : SymbolTable.oldest? symbol.remembered.name
            table.declarations = none :=
          Option.not_isSome_iff_eq_none.mp (Bool.eq_false_iff.mp fresh)
        rw [unknown]
    · cases SymbolTable.oldest? name table.declarations <;> rfl
  placed name place there := by
    rw [KeyedMap.get?_insert] at there
    rw [Array.size_push]
    split at there
    · cases there
      exact Nat.lt_succ_self _
    · exact Nat.lt_succ_of_lt (represents.placed name place there)
  kept := represents.get?_insert rfl

/-- To declare a symbol is answered as the table tells, and what the store holds
then is what the table says then. -/
theorem Represents.declare (represents : store.Represents table)
    (symbol : Symbol) :
    (store.declare symbol).1 = (table.declare symbol).1.answer ∧
      (store.declare symbol).2.Represents (table.declare symbol).2 := by
  have here := represents.kept symbol
  have known_eq : store.index.contains symbol.name = table.contains symbol.name :=
    represents.contains_eq symbol.name
  rw [SymbolTable.declare_eq]
  simp only [SymbolStore.declare, here]
  cases found : table.declarations.find? symbol.clashes with
  | some earlier =>
      obtain ⟨scope, name⟩ := Symbol.clashes_iff.mp (List.find?_some found)
      refine ⟨?_, represents⟩
      simp only [Registration.answer, Symbol.clash, scope, name]
      rfl
  | none =>
      simp only [Option.map_none, known_eq]
      cases known : table.contains symbol.name with
      | true => exact ⟨rfl, represents.again known⟩
      | false => exact ⟨rfl, represents.first known⟩

end Declare

def declareAll (store : SymbolStore) (symbols : List Symbol) : SymbolStore :=
  symbols.foldl (fun store symbol => (store.declare symbol).2) store

theorem Represents.declareAll {store : SymbolStore} {table : SymbolTable}
    (represents : store.Represents table) (symbols : List Symbol) :
    (store.declareAll symbols).Represents (table.declareAll symbols) := by
  induction symbols generalizing store table with
  | nil => exact represents
  | cons symbol symbols induction =>
      exact induction (represents.declare symbol).2

/-- The store answers as the symbols that were declared in it say. -/
structure Records (store : SymbolStore) (history : List Symbol) : Prop where
  /-- A second declaration of a name in its scope is told of the first one
  there. -/
  duplicate : ∀ symbol clash, (store.declare symbol).1 = .error clash ↔
    ∃ front first back, history = front ++ first :: back ∧
      first.scope = symbol.scope ∧ first.name = symbol.name ∧
      (∀ other ∈ front,
        ¬(other.scope = symbol.scope ∧ other.name = symbol.name)) ∧
      clash = ⟨symbol.name, symbol.scope, first.kind, first.line, first.column⟩
  /-- It changes nothing. -/
  unchanged : ∀ symbol clash, (store.declare symbol).1 = .error clash →
    (store.declare symbol).2 = store
  elsewhere : ∀ symbol, (store.declare symbol).1 = .ok false ↔
    (∃ other ∈ history, other.name = symbol.name) ∧
      ∀ other ∈ history, other.name = symbol.name →
        other.scope ≠ symbol.scope
  added : ∀ symbol, (store.declare symbol).1 = .ok true ↔
    ∀ other ∈ history, other.name ≠ symbol.name
  toList : store.toList =
    (Symbol.firstOfEachName history).map Symbol.remembered
  names : store.names = (Symbol.firstOfEachName history).map (·.name)
  lookup? : ∀ name, store.lookup? name =
    (history.find? fun symbol => symbol.name == name).map Symbol.remembered
  contains : ∀ name, store.contains name ↔
    ∃ symbol ∈ history, symbol.name = name
  inScope : ∀ scope, store.inScope scope =
    ((Symbol.firstOfEachName history).filter
      fun symbol => symbol.scope == scope).map Symbol.remembered
  /-- The index leads to a symbol of the name that is looked up. -/
  index : ∀ name place, store.index.get? name = some place →
    ∃ symbol, store.symbols[place]? = some symbol ∧ symbol.name = name
  byScope : ∀ symbol : Symbol,
    store.byScope.get? (symbol.scope, symbol.name) =
      (history.find? symbol.clashes).map Symbol.declaration

theorem declare_of_error {store : SymbolStore} {symbol : Symbol} {clash : Clash}
    (refused : (store.declare symbol).1 = .error clash) :
    (store.declare symbol).2 = store := by
  unfold declare at refused ⊢
  dsimp only at refused ⊢
  split
  · rfl
  · next fresh =>
      rw [fresh] at refused
      dsimp only at refused
      split at refused <;> cases refused

section Answers

variable {registration : Registration}

theorem answer_eq_error_iff {clash : Clash} :
    registration.answer = .error clash ↔
      ∃ earlier, registration = .duplicate earlier ∧ clash = earlier.clash := by
  cases registration <;> simp [Registration.answer, eq_comm]

theorem answer_eq_false_iff :
    registration.answer = .ok false ↔ registration = .elsewhere := by
  cases registration <;> simp [Registration.answer]

theorem answer_eq_true_iff :
    registration.answer = .ok true ↔ registration = .added := by
  cases registration <;> simp [Registration.answer]

end Answers

/-- Whatever was declared, the store says what its history says, and its three
containers are those of its history. -/
theorem records_history (history : List Symbol) :
    (declareAll {} history).Records history := by
  have represents := represents_empty.declareAll history
  have told := SymbolTable.records_declareAll history
  have answer (symbol : Symbol) := (represents.declare symbol).1
  refine ⟨?duplicate, fun _ _ => declare_of_error, ?elsewhere, ?added,
    represents.listed.trans told.toList, ?names, ?lookup, ?contains, ?inScope,
    ?index, ?byScope⟩
  case duplicate =>
    intro symbol clash
    rw [answer, answer_eq_error_iff]
    constructor
    · rintro ⟨earlier, registered, rfl⟩
      obtain ⟨front, first, back, history_eq, scope, name, others, rfl⟩ :=
        (told.duplicate symbol earlier).mp registered
      exact ⟨front, first, back, history_eq, scope, name, others,
        by rw [← scope, ← name]; rfl⟩
    · rintro ⟨front, first, back, history_eq, scope, name, others, rfl⟩
      exact ⟨first.remembered, (told.duplicate symbol first.remembered).mpr
        ⟨front, first, back, history_eq, scope, name, others, rfl⟩,
        by rw [← scope, ← name]; rfl⟩
  case elsewhere =>
    intro symbol
    rw [answer, answer_eq_false_iff, told.elsewhere]
  case added =>
    intro symbol
    rw [answer, answer_eq_true_iff, told.added]
  case names =>
    rw [SymbolStore.names, represents.listed]
    exact told.names
  case lookup =>
    intro name
    rw [represents.found, told.lookup?]
  case contains =>
    intro name
    rw [represents.contains_eq, told.contains]
  case inScope =>
    intro scope
    rw [SymbolStore.inScope, represents.listed]
    exact told.inScope scope
  case index =>
    intro name place there
    have within := represents.placed name place there
    have found := represents.found name
    rw [SymbolStore.lookup?, there, Option.bind_some,
      Array.getElem?_eq_getElem within] at found
    exact ⟨_, Array.getElem?_eq_getElem within,
      (SymbolTable.mem_of_lookup? found.symm).2⟩
  case byScope =>
    intro symbol
    rw [represents.kept, SymbolTable.find?_declareAll, Option.map_map]
    rfl

end SymbolStore

end ComponentLang
