import ComponentLang.Token.Basic

namespace ComponentLang

structure Symbol where
  name : String
  scope : String
  kind : TokenKind
  modifiers : Modifiers
  line : Nat
  column : Nat
  deriving DecidableEq, Repr

/-- A name that its scope has already, and where and as what it was declared
there. -/
structure Clash where
  name : String
  scope : String
  kind : TokenKind
  line : Nat
  column : Nat
  deriving DecidableEq, Repr

def Clash.message (clash : Clash) : String :=
  "`" ++ clash.name ++ "` is already declared in `" ++ clash.scope ++
    "` as " ++ clash.kind.name

namespace Symbol

def clashes (first second : Symbol) : Bool :=
  first.scope == second.scope && first.name == second.name

/-- What a second declaration of the symbol's name in its scope is told. -/
def clash (earlier : Symbol) : Clash where
  name := earlier.name
  scope := earlier.scope
  kind := earlier.kind
  line := earlier.line
  column := earlier.column

end Symbol

/-- Declared names, told by what was declared. A document has one table, flat
over its scopes: a name stands for its first declaration anywhere. -/
structure SymbolTable where
  /-- The first declaration of each name in each scope, latest first. -/
  declarations : List Symbol := []
  deriving DecidableEq, Repr

inductive Registration where
  | added
  /-- The name stands for a declaration in another scope. -/
  | elsewhere
  | duplicate (earlier : Symbol)
  deriving DecidableEq, Repr

namespace SymbolTable

/-- Without the entries whose name an older entry has. -/
def firstOfName : List Symbol → List Symbol
  | [] => []
  | symbol :: older =>
      if older.any fun other => other.name == symbol.name then firstOfName older
      else symbol :: firstOfName older

def oldest? (name : String) : List Symbol → Option Symbol
  | [] => none
  | symbol :: older =>
      match oldest? name older with
      | some oldest => some oldest
      | none => if symbol.name == name then some symbol else none

/-- The first declaration of each name, in declaration order. -/
def toList (table : SymbolTable) : List Symbol :=
  (firstOfName table.declarations).reverse

def lookup? (table : SymbolTable) (name : String) : Option Symbol :=
  oldest? name table.declarations

def contains (table : SymbolTable) (name : String) : Bool :=
  (table.lookup? name).isSome

def names (table : SymbolTable) : List String :=
  table.toList.map (·.name)

/-- The symbols whose name stands for a declaration in the given scope. -/
def inScope (table : SymbolTable) (scope : String) : List Symbol :=
  table.toList.filter fun symbol => symbol.scope == scope

/-- Declares a symbol. That the declaring token is a declaration is not part
of what is remembered. -/
def declare (table : SymbolTable) (symbol : Symbol) :
    Registration × SymbolTable :=
  let symbol := { symbol with modifiers := symbol.modifiers.withoutDeclaration }
  match table.declarations.find? symbol.clashes with
  | some earlier => (.duplicate earlier, table)
  | none =>
      (if table.contains symbol.name then .elsewhere else .added,
        ⟨symbol :: table.declarations⟩)

/-! The table through its list. -/

theorem any_firstOfName (symbols : List Symbol) (name : String) :
    ((firstOfName symbols).any fun symbol => symbol.name == name) =
      symbols.any fun symbol => symbol.name == name := by
  induction symbols with
  | nil => rfl
  | cons symbol older induction =>
      unfold firstOfName
      split
      · next known =>
          rw [induction, List.any_cons]
          by_cases same : symbol.name = name
          · simp [← same, known]
          · simp [same]
      · rw [List.any_cons, induction, List.any_cons]

theorem oldest?_isSome (symbols : List Symbol) (name : String) :
    (oldest? name symbols).isSome =
      symbols.any fun symbol => symbol.name == name := by
  induction symbols with
  | nil => rfl
  | cons symbol older induction =>
      rw [List.any_cons, ← induction, oldest?]
      cases oldest? name older with
      | some oldest => simp
      | none => by_cases same : symbol.name = name <;> simp [same]

theorem find?_firstOfName (symbols : List Symbol) (name : String) :
    (firstOfName symbols).find? (fun symbol => symbol.name == name) =
      oldest? name symbols := by
  induction symbols with
  | nil => rfl
  | cons symbol older induction =>
      have known_iff := oldest?_isSome older symbol.name
      unfold firstOfName oldest?
      split
      · next known =>
          rw [induction]
          split
          · simp_all
          · next none_eq =>
              split
              · next same =>
                  obtain rfl := beq_iff_eq.mp same
                  simp [none_eq, known] at known_iff
              · exact none_eq
      · next fresh =>
          rw [List.find?_cons]
          by_cases same : symbol.name = name
          · subst same
            rw [Bool.eq_false_iff.mpr fresh, Option.isSome_eq_false_iff,
              Option.isNone_iff_eq_none] at known_iff
            simp [known_iff]
          · rw [induction]
            simp only [same, beq_eq_false_iff_ne.mpr, ne_eq, not_false_eq_true]
            split <;> simp_all

theorem contains_eq_any (table : SymbolTable) (name : String) :
    table.contains name =
      table.toList.any fun symbol => symbol.name == name := by
  rw [contains, lookup?, oldest?_isSome, toList, List.any_reverse,
    any_firstOfName]

/-- A declaration is listed last when its name is new, and else not at all. -/
theorem toList_declare (table : SymbolTable) (symbol : Symbol) :
    (table.declare symbol).2.toList =
      if table.contains symbol.name then table.toList
      else
        table.toList ++
          [{ symbol with modifiers := symbol.modifiers.withoutDeclaration }] := by
  unfold declare
  simp only
  split
  · next earlier found =>
      have member := List.mem_of_find?_eq_some found
      have clash := List.find?_some found
      have known : table.contains symbol.name := by
        rw [contains, lookup?, oldest?_isSome, List.any_eq_true]
        refine ⟨earlier, member, ?_⟩
        simp [Symbol.clashes] at clash
        simp [clash.2]
      simp [known]
  · unfold toList
    simp only [firstOfName]
    rw [← oldest?_isSome, ← lookup?, ← contains]
    split
    · simp_all
    · simp_all

end SymbolTable

end ComponentLang
