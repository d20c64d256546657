import ComponentLang.Scope
import ComponentLang.Symbol
import ComponentLang.Vocabulary.Literal

namespace ComponentLang

namespace Literal

variable {text : String}

theorem isPlainName_nameOf (identifier : isIdentifier text) :
    isPlainName (nameOf text).toList := by
  unfold isIdentifier at identifier
  unfold nameOf
  split at identifier
  · simpa only [String.toList_ofList] using identifier
  · exact (Bool.and_eq_true_iff.mp identifier).2

theorem not_mem_point_of_isPlainName {name : List Char}
    (plain : isPlainName name) : '.' ∉ name := by
  cases name with
  | nil => exact List.not_mem_nil
  | cons first rest =>
      obtain ⟨start, chars⟩ := Bool.and_eq_true_iff.mp plain
      intro member
      rcases List.mem_cons.mp member with rfl | later
      · contradiction
      · have name_char := List.all_eq_true.mp chars '.' later
        contradiction

end Literal

/-! Paths. -/

def pathNames (path : String) : List String :=
  (path.toList.splitOn '.').map String.ofList

def renamedPath (rename : String → String) (path : String) : String :=
  ".".intercalate ((pathNames path).map rename)

@[simp] theorem intercalate_pathNames (path : String) :
    ".".intercalate (pathNames path) = path := by
  have chars : ".".toList = ['.'] := rfl
  rw [← String.toList_inj, String.toList_intercalate, pathNames, List.map_map,
    chars]
  have unchanged : String.toList ∘ String.ofList = id := by
    funext chars
    exact String.toList_ofList
  rw [unchanged, List.map_id, List.intercalate_splitOn]

theorem pathNames_intercalate {names : List String} (some_name : names ≠ [])
    (pointless : ∀ name ∈ names, '.' ∉ name.toList) :
    pathNames (".".intercalate names) = names := by
  have chars : ".".toList = ['.'] := rfl
  have split : (".".intercalate names).toList.splitOn '.' =
      names.map String.toList := by
    rw [String.toList_intercalate, chars]
    apply List.splitOn_intercalate
    · simpa only [List.forall_mem_map] using pointless
    · simpa only [ne_eq, List.map_eq_nil_iff] using some_name
  have unchanged : String.ofList ∘ String.toList = id := by
    funext name
    exact String.ofList_toList
  rw [pathNames, split, List.map_map, unchanged, List.map_id]

theorem pathNames_ne_nil (path : String) : pathNames path ≠ [] := by
  simp [pathNames]

@[simp] theorem renamedPath_id (path : String) : renamedPath id path = path := by
  rw [renamedPath, List.map_id, intercalate_pathNames]

/-! Renamings that keep the known names apart. -/

/-- No two known names become one, and none has a point in it. -/
structure KeepsApart (known : String → Prop) (rename : String → String) :
    Prop where
  pointless : known name → '.' ∉ name.toList
  pointless_renamed : known name → '.' ∉ (rename name).toList
  injective : known first → known second → rename first = rename second →
    first = second

def IsKnownPath (known : String → Prop) (path : String) : Prop :=
  ∀ name ∈ pathNames path, known name

def Symbol.IsKnown (known : String → Prop) (symbol : Symbol) : Prop :=
  known symbol.name ∧ IsKnownPath known symbol.scope

namespace Symbol

def renamed (rename : String → String) (symbol : Symbol) : Symbol :=
  { symbol with
    name := rename symbol.name
    scope := renamedPath rename symbol.scope }

@[simp] theorem renamed_id (symbol : Symbol) : symbol.renamed id = symbol := by
  simp [renamed]

end Symbol

namespace KeepsApart

variable {known : String → Prop} {rename : String → String}

theorem beq_eq (apart : KeepsApart known rename) {first second : String}
    (left : known first) (right : known second) :
    (rename first == rename second) = (first == second) := by
  rw [Bool.eq_iff_iff, beq_iff_eq, beq_iff_eq]
  exact ⟨apart.injective left right, congrArg rename⟩

theorem map_injective (apart : KeepsApart known rename)
    {names others : List String} (left : ∀ name ∈ names, known name)
    (right : ∀ name ∈ others, known name)
    (same : names.map rename = others.map rename) : names = others := by
  induction names generalizing others with
  | nil => exact (List.map_eq_nil_iff.mp same.symm).symm
  | cons name rest induction =>
      cases others with
      | nil => cases same
      | cons other others =>
          obtain ⟨head, tail⟩ := List.cons.inj same
          obtain ⟨here, left⟩ := List.forall_mem_cons.mp left
          obtain ⟨there, right⟩ := List.forall_mem_cons.mp right
          rw [apart.injective here there head, induction left right tail]

theorem renamedPath_intercalate (apart : KeepsApart known rename)
    {names : List String} (some_name : names ≠ [])
    (all_known : ∀ name ∈ names, known name) :
    renamedPath rename (".".intercalate names) =
      ".".intercalate (names.map rename) := by
  rw [renamedPath, pathNames_intercalate some_name
    fun name member => apart.pointless (all_known name member)]

theorem isKnownPath_intercalate (apart : KeepsApart known rename)
    {names : List String} (some_name : names ≠ [])
    (all_known : ∀ name ∈ names, known name) :
    IsKnownPath known (".".intercalate names) := by
  rw [IsKnownPath, pathNames_intercalate some_name
    fun name member => apart.pointless (all_known name member)]
  exact all_known

theorem pathNames_renamedPath (apart : KeepsApart known rename) {path : String}
    (path_known : IsKnownPath known path) :
    pathNames (renamedPath rename path) = (pathNames path).map rename := by
  apply pathNames_intercalate
  · simpa only [ne_eq, List.map_eq_nil_iff] using pathNames_ne_nil path
  · rw [List.forall_mem_map]
    exact fun name member => apart.pointless_renamed (path_known name member)

theorem beq_renamedPath (apart : KeepsApart known rename)
    {path other : String} (left : IsKnownPath known path)
    (right : IsKnownPath known other) :
    (renamedPath rename path == renamedPath rename other) = (path == other) := by
  rw [Bool.eq_iff_iff, beq_iff_eq, beq_iff_eq]
  refine ⟨fun same => ?_, congrArg (renamedPath rename)⟩
  have names := congrArg pathNames same
  rw [apart.pathNames_renamedPath left, apart.pathNames_renamedPath right] at names
  rw [← intercalate_pathNames path, apart.map_injective left right names,
    intercalate_pathNames]

theorem clashes_renamed (apart : KeepsApart known rename)
    {symbol other : Symbol} (left : symbol.IsKnown known)
    (right : other.IsKnown known) :
    (symbol.renamed rename).clashes (other.renamed rename) =
      symbol.clashes other := by
  simp only [Symbol.clashes, Symbol.renamed, apart.beq_renamedPath left.2 right.2,
    apart.beq_eq left.1 right.1]

end KeepsApart

def Scope.renamed (rename : String → String) (scope : Scope) : Scope :=
  { scope with name := rename scope.name }

namespace ScopeStack

def renamed (rename : String → String) (scopes : ScopeStack) : ScopeStack :=
  { scopes with inner := scopes.inner.map (Scope.renamed rename) }

def IsKnown (known : String → Prop) (scopes : ScopeStack) : Prop :=
  ∀ scope ∈ scopes.inner, known scope.name

variable {known : String → Prop} {rename : String → String}
  {scopes : ScopeStack}

@[simp] theorem depth_renamed : (scopes.renamed rename).depth = scopes.depth := by
  simp only [depth, renamed, List.length_map]

theorem push_renamed (scope : Scope) :
    (scopes.push scope).renamed rename =
      (scopes.renamed rename).push (scope.renamed rename) := by
  simp only [push, renamed, depth, List.map_cons, List.length_map]

theorem pop_renamed :
    scopes.pop.2.renamed rename = (scopes.renamed rename).pop.2 := by
  obtain ⟨inner, peak⟩ := scopes
  cases inner <;> rfl

theorem IsKnown.push (all_known : scopes.IsKnown known) {scope : Scope}
    (name_known : known scope.name) : (scopes.push scope).IsKnown known :=
  List.forall_mem_cons.mpr ⟨name_known, all_known⟩

theorem IsKnown.pop (all_known : scopes.IsKnown known) :
    scopes.pop.2.IsKnown known := by
  obtain ⟨inner, peak⟩ := scopes
  cases inner with
  | nil => exact all_known
  | cons scope outer => exact (List.forall_mem_cons.mp all_known).2

section Paths

variable (global : known Scope.global.name)
  (fixed : rename Scope.global.name = Scope.global.name)
  (all_known : scopes.IsKnown known)

include global fixed all_known

theorem exists_path :
    ∃ names, names ≠ [] ∧ (∀ name ∈ names, known name) ∧
      scopes.path = ".".intercalate names ∧
      (scopes.renamed rename).path = ".".intercalate (names.map rename) := by
  obtain ⟨inner, peak⟩ := scopes
  cases inner with
  | nil =>
      refine ⟨[Scope.global.name], List.cons_ne_nil _ _,
        List.forall_mem_singleton.mpr global, rfl, ?_⟩
      rw [List.map_singleton, fixed]
      rfl
  | cons scope outer =>
      refine ⟨(scope :: outer).reverse.map (·.name), by simp, ?_, rfl, ?_⟩
      · rw [List.forall_mem_map]
        exact fun other member => all_known other (List.mem_reverse.mp member)
      · simp only [path, renamed, Scope.renamed, List.map_cons,
          List.reverse_cons, List.map_append, List.map_reverse, List.map_map,
          List.map_nil, Function.comp_def]

theorem path_renamed (apart : KeepsApart known rename) :
    (scopes.renamed rename).path = renamedPath rename scopes.path := by
  obtain ⟨names, some_name, names_known, path_eq, renamed_eq⟩ :=
    exists_path global fixed all_known
  rw [renamed_eq, path_eq, apart.renamedPath_intercalate some_name names_known]

theorem isKnownPath_path (apart : KeepsApart known rename) :
    IsKnownPath known scopes.path := by
  obtain ⟨names, some_name, names_known, path_eq, -⟩ :=
    exists_path global fixed all_known
  rw [path_eq]
  exact apart.isKnownPath_intercalate some_name names_known

end Paths

end ScopeStack

/-! Tables. -/

def Registration.renamed (rename : String → String) :
    Registration → Registration
  | .added => .added
  | .elsewhere => .elsewhere
  | .duplicate earlier => .duplicate (earlier.renamed rename)

namespace SymbolTable

def renamed (rename : String → String) (table : SymbolTable) : SymbolTable :=
  ⟨table.declarations.map (Symbol.renamed rename)⟩

def IsKnown (known : String → Prop) (table : SymbolTable) : Prop :=
  ∀ symbol ∈ table.declarations, symbol.IsKnown known

variable {known : String → Prop} {rename : String → String}

theorem oldest?_renamed (apart : KeepsApart known rename) {name : String}
    (name_known : known name) {symbols : List Symbol}
    (all_known : ∀ symbol ∈ symbols, symbol.IsKnown known) :
    oldest? (rename name) (symbols.map (Symbol.renamed rename)) =
      (oldest? name symbols).map (Symbol.renamed rename) := by
  induction symbols with
  | nil => rfl
  | cons symbol older induction =>
      obtain ⟨here, all_known⟩ := List.forall_mem_cons.mp all_known
      rw [List.map_cons, oldest?, oldest?, induction all_known]
      cases oldest? name older with
      | some oldest => rfl
      | none =>
          simp only [Option.map_none]
          rw [Symbol.renamed, apart.beq_eq here.1 name_known]
          split <;> rfl

theorem lookup?_renamed (apart : KeepsApart known rename) {table : SymbolTable}
    (table_known : table.IsKnown known) {name : String}
    (name_known : known name) :
    (table.renamed rename).lookup? (rename name) =
      (table.lookup? name).map (Symbol.renamed rename) :=
  oldest?_renamed apart name_known table_known

theorem firstOfName_renamed (apart : KeepsApart known rename)
    {symbols : List Symbol}
    (all_known : ∀ symbol ∈ symbols, symbol.IsKnown known) :
    firstOfName (symbols.map (Symbol.renamed rename)) =
      (firstOfName symbols).map (Symbol.renamed rename) := by
  induction symbols with
  | nil => rfl
  | cons symbol older induction =>
      obtain ⟨here, all_known⟩ := List.forall_mem_cons.mp all_known
      have known_eq : ((older.map (Symbol.renamed rename)).any fun other =>
          other.name == (symbol.renamed rename).name) =
            older.any fun other => other.name == symbol.name := by
        rw [← oldest?_isSome, ← oldest?_isSome, Symbol.renamed,
          oldest?_renamed apart here.1 all_known, Option.isSome_map]
      rw [List.map_cons, firstOfName, firstOfName, known_eq, induction all_known]
      split <;> rfl

theorem toList_renamed (apart : KeepsApart known rename) {table : SymbolTable}
    (table_known : table.IsKnown known) :
    (table.renamed rename).toList = table.toList.map (Symbol.renamed rename) := by
  rw [toList, renamed, firstOfName_renamed apart table_known, toList,
    List.map_reverse]

theorem find?_clashes_renamed (apart : KeepsApart known rename)
    {symbol : Symbol} (symbol_known : symbol.IsKnown known)
    {symbols : List Symbol}
    (all_known : ∀ symbol ∈ symbols, symbol.IsKnown known) :
    (symbols.map (Symbol.renamed rename)).find? (symbol.renamed rename).clashes =
      (symbols.find? symbol.clashes).map (Symbol.renamed rename) := by
  induction symbols with
  | nil => rfl
  | cons other older induction =>
      obtain ⟨here, all_known⟩ := List.forall_mem_cons.mp all_known
      rw [List.map_cons, List.find?_cons, List.find?_cons, induction all_known,
        apart.clashes_renamed symbol_known here]
      split <;> rfl

theorem declare_renamed (apart : KeepsApart known rename) {table : SymbolTable}
    (table_known : table.IsKnown known) {symbol : Symbol}
    (symbol_known : symbol.IsKnown known) :
    (table.renamed rename).declare (symbol.renamed rename) =
      ((table.declare symbol).1.renamed rename,
        (table.declare symbol).2.renamed rename) := by
  let entry := { symbol with modifiers := symbol.modifiers.withoutDeclaration }
  have found : (table.renamed rename).declarations.find?
      (entry.renamed rename).clashes =
        (table.declarations.find? entry.clashes).map (Symbol.renamed rename) :=
    find?_clashes_renamed apart symbol_known table_known
  have contained : (table.renamed rename).contains (rename symbol.name) =
      table.contains symbol.name := by
    rw [contains, lookup?_renamed apart table_known symbol_known.1,
      Option.isSome_map, contains]
  simp only [entry, Symbol.renamed] at found
  simp only [declare, Symbol.renamed, found, contained]
  split
  · next earlier found_eq =>
      obtain ⟨original, original_eq, rfl⟩ := Option.map_eq_some_iff.mp found_eq
      rw [original_eq]
      rfl
  · next none_eq =>
      rw [Option.map_eq_none_iff.mp none_eq]
      simp only
      split <;> rfl

theorem IsKnown.declare {table : SymbolTable} (table_known : table.IsKnown known)
    {symbol : Symbol} (symbol_known : symbol.IsKnown known) :
    (table.declare symbol).2.IsKnown known := by
  unfold SymbolTable.declare
  simp only
  split
  · exact table_known
  · exact List.forall_mem_cons.mpr ⟨symbol_known, table_known⟩

end SymbolTable

end ComponentLang
