import ComponentLang.KeyedMap
import ComponentLang.Symbol

namespace ComponentLang

/-- Where and as what a name was first declared within one scope. -/
structure ScopedDeclaration where
  kind : TokenKind
  line : Nat
  column : Nat
  deriving DecidableEq, Repr

def Symbol.declaration (symbol : Symbol) : ScopedDeclaration where
  kind := symbol.kind
  line := symbol.line
  column := symbol.column

/-- The symbols of a document as an analysis keeps them. -/
structure SymbolStore where
  /-- The first declaration of each name, in declaration order. -/
  symbols : Array Symbol := #[]
  /-- Where the symbol of a name stands. -/
  index : KeyedMap String Nat := {}
  /-- The first declaration of each name in each scope. -/
  byScope : KeyedMap (String × String) ScopedDeclaration := {}
  deriving Repr

namespace SymbolStore

def toList (store : SymbolStore) : List Symbol :=
  store.symbols.toList

def names (store : SymbolStore) : List String :=
  store.toList.map (·.name)

def inScope (store : SymbolStore) (scope : String) : List Symbol :=
  store.toList.filter fun symbol => symbol.scope == scope

def lookup? (store : SymbolStore) (name : String) : Option Symbol :=
  (store.index.get? name).bind fun place => store.symbols[place]?

def contains (store : SymbolStore) (name : String) : Bool :=
  store.index.contains name

/-- Declares a symbol. The answer tells whether its name is new, unless the
scope of the symbol has it already. -/
def declare (store : SymbolStore) (symbol : Symbol) :
    Except Clash Bool × SymbolStore :=
  let symbol := { symbol with modifiers := symbol.modifiers.withoutDeclaration }
  match store.byScope.get? (symbol.scope, symbol.name) with
  | some existing =>
      (.error
        { name := symbol.name
          scope := symbol.scope
          kind := existing.kind
          line := existing.line
          column := existing.column }, store)
  | none =>
      let byScope :=
        store.byScope.insert (symbol.scope, symbol.name) symbol.declaration
      if store.index.contains symbol.name then
        (.ok false, { store with byScope })
      else
        (.ok true,
          { symbols := store.symbols.push symbol
            index := store.index.insert symbol.name store.symbols.size
            byScope })

end SymbolStore

end ComponentLang
