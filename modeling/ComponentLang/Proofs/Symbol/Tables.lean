import ComponentLang.Symbol
import Mathlib.Data.List.Induction

namespace ComponentLang

section Duplicates

variable {α : Type} {same : α → α → Bool}

theorem eraseDupsBy_loop_concat (elements kept : List α) (last : α) :
    List.eraseDupsBy.loop same (elements ++ [last]) kept =
      if (List.eraseDupsBy.loop same elements kept).any (same last) then
        List.eraseDupsBy.loop same elements kept
      else List.eraseDupsBy.loop same elements kept ++ [last] := by
  induction elements generalizing kept with
  | nil =>
      simp only [List.nil_append, List.eraseDupsBy.loop, List.any_reverse]
      cases kept.any (same last) with
      | true => rfl
      | false => exact List.reverse_cons
  | cons first rest induction =>
      cases known : kept.any (same first) with
      | true =>
          simp only [List.cons_append, List.eraseDupsBy.loop, known]
          exact induction kept
      | false =>
          simp only [List.cons_append, List.eraseDupsBy.loop, known]
          exact induction (first :: kept)

theorem eraseDupsBy_concat (elements : List α) (last : α) :
    (elements ++ [last]).eraseDupsBy same =
      if (elements.eraseDupsBy same).any (same last) then
        elements.eraseDupsBy same
      else elements.eraseDupsBy same ++ [last] :=
  eraseDupsBy_loop_concat elements [] last

theorem mem_of_mem_eraseDupsBy {elements : List α} {element : α}
    (member : element ∈ elements.eraseDupsBy same) : element ∈ elements := by
  induction elements using List.reverseRecOn with
  | nil => exact member
  | append_singleton front last induction =>
      rw [eraseDupsBy_concat] at member
      split at member
      · exact List.mem_append_left _ (induction member)
      · exact List.mem_append.mpr
          ((List.mem_append.mp member).imp_left induction)

end Duplicates

namespace Symbol

/-- The symbol is a second declaration of a name in its scope. A module may be
opened again. -/
def repeats (symbol earlier : Symbol) : Bool :=
  symbol.clashes earlier &&
    !(earlier.kind == .namespace && symbol.kind == .namespace)

def firstOfEachName (symbols : List Symbol) : List Symbol :=
  symbols.eraseDupsBy fun later earlier => later.name == earlier.name

def remembered (symbol : Symbol) : Symbol :=
  { symbol with modifiers := symbol.modifiers.withoutDeclaration }

@[simp] theorem clashes_remembered (first second : Symbol) :
    first.clashes second.remembered = first.clashes second := rfl

theorem clashes_iff {symbol other : Symbol} :
    symbol.clashes other ↔
      other.scope = symbol.scope ∧ other.name = symbol.name := by
  rw [clashes, Bool.and_eq_true, beq_iff_eq, beq_iff_eq, eq_comm,
    eq_comm (a := symbol.name)]

theorem clashes_congr {first second : Symbol} (clash : first.clashes second) :
    first.clashes = second.clashes := by
  obtain ⟨scope, name⟩ := Bool.and_eq_true_iff.mp clash
  funext other
  rw [clashes, clashes, beq_iff_eq.mp scope, beq_iff_eq.mp name]

theorem remembered_eq_self {symbol : Symbol}
    (plain : symbol.modifiers.declaration = false) :
    symbol.remembered = symbol := by
  rw [remembered, Modifiers.withoutDeclaration, ← plain]

end Symbol

namespace SymbolTable

theorem declare_eq (table : SymbolTable) (symbol : Symbol) :
    table.declare symbol =
      match table.declarations.find? symbol.clashes with
      | some earlier => (.duplicate earlier, table)
      | none =>
          (if table.contains symbol.name then .elsewhere else .added,
            ⟨symbol.remembered :: table.declarations⟩) := rfl

theorem mem_of_lookup? {table : SymbolTable} {name : String} {symbol : Symbol}
    (found : table.lookup? name = some symbol) :
    symbol ∈ table.toList ∧ symbol.name = name := by
  rw [lookup?, ← find?_firstOfName] at found
  have named := List.find?_some found
  refine ⟨?_, beq_iff_eq.mp named⟩
  rw [toList, List.mem_reverse]
  exact List.mem_of_find?_eq_some found

theorem mem_toList_declare {table : SymbolTable} {symbol listed : Symbol}
    (member : listed ∈ (table.declare symbol).2.toList) :
    listed ∈ table.toList ∨
      listed =
        { symbol with modifiers := symbol.modifiers.withoutDeclaration } := by
  rw [toList_declare] at member
  split at member
  · exact .inl member
  · exact (List.mem_append.mp member).imp_right List.mem_singleton.mp

def IsPlain (table : SymbolTable) : Prop :=
  ∀ symbol ∈ table.toList, symbol.modifiers.declaration = false

theorem IsPlain.declare {table : SymbolTable} (plain : table.IsPlain)
    (symbol : Symbol) : (table.declare symbol).2.IsPlain := by
  intro listed member
  rcases mem_toList_declare member with known | rfl
  · exact plain listed known
  · rfl

theorem IsPlain.lookup? {table : SymbolTable} (plain : table.IsPlain)
    {name : String} {symbol : Symbol}
    (found : table.lookup? name = some symbol) :
    symbol.modifiers.declaration = false :=
  plain symbol (mem_of_lookup? found).1

theorem declarations_declare (table : SymbolTable) (symbol : Symbol) :
    (table.declare symbol).2.declarations = table.declarations ∨
      (table.declare symbol).2.declarations =
        { symbol with modifiers := symbol.modifiers.withoutDeclaration } ::
          table.declarations := by
  unfold declare
  simp only
  split
  · exact .inl rfl
  · exact .inr rfl

theorem exists_of_declare (table : SymbolTable) (symbol : Symbol) :
    ∃ entry ∈ (table.declare symbol).2.declarations,
      entry.name = symbol.name ∧ entry.scope = symbol.scope := by
  unfold declare
  simp only
  split
  · next earlier found =>
      have clash := List.find?_some found
      simp only [Symbol.clashes, Bool.and_eq_true, beq_iff_eq] at clash
      exact ⟨earlier, List.mem_of_find?_eq_some found, clash.2.symm,
        clash.1.symm⟩
  · exact ⟨_, List.mem_cons_self, rfl, rfl⟩

theorem of_declare_duplicate {table : SymbolTable} {symbol earlier : Symbol}
    (registered : (table.declare symbol).1 = .duplicate earlier) :
    earlier ∈ table.declarations ∧ symbol.clashes earlier := by
  unfold declare at registered
  simp only at registered
  split at registered
  · next known found =>
      cases registered
      exact ⟨List.mem_of_find?_eq_some found, List.find?_some found⟩
  · split at registered <;> nomatch registered

def declareAll (table : SymbolTable) (symbols : List Symbol) : SymbolTable :=
  symbols.foldl (fun table symbol => (table.declare symbol).2) table

theorem declareAll_append (table : SymbolTable) (front back : List Symbol) :
    table.declareAll (front ++ back) =
      (table.declareAll front).declareAll back :=
  List.foldl_append

theorem declareAll_concat (table : SymbolTable) (symbols : List Symbol)
    (last : Symbol) :
    table.declareAll (symbols ++ [last]) =
      ((table.declareAll symbols).declare last).2 :=
  declareAll_append table symbols [last]

theorem toList_declareAll (symbols : List Symbol) :
    (declareAll {} symbols).toList =
      (Symbol.firstOfEachName symbols).map Symbol.remembered := by
  induction symbols using List.reverseRecOn with
  | nil => rfl
  | append_singleton symbols last induction =>
      have known : (declareAll {} symbols).contains last.name =
          (Symbol.firstOfEachName symbols).any
            fun earlier => last.name == earlier.name := by
        rw [contains_eq_any, induction, List.any_map]
        simp only [BEq.comm (a := last.name)]
        rfl
      rw [declareAll_concat, toList_declare, known, induction,
        Symbol.firstOfEachName, Symbol.firstOfEachName, eraseDupsBy_concat]
      split
      · rfl
      · rw [List.map_append]
        rfl

theorem toList_declareAll_of_plain {symbols : List Symbol}
    (plain : ∀ symbol ∈ symbols, symbol.modifiers.declaration = false) :
    (declareAll {} symbols).toList = Symbol.firstOfEachName symbols := by
  have same : (Symbol.firstOfEachName symbols).map Symbol.remembered =
      (Symbol.firstOfEachName symbols).map id :=
    List.map_congr_left fun symbol member =>
      Symbol.remembered_eq_self (plain symbol (mem_of_mem_eraseDupsBy member))
  rw [toList_declareAll, same, List.map_id]

/-- In a table that was empty, the first symbol of a name in a scope stands for
all. -/
theorem find?_declareAll (symbols : List Symbol) (symbol : Symbol) :
    (declareAll {} symbols).declarations.find? symbol.clashes =
      (symbols.find? symbol.clashes).map Symbol.remembered := by
  induction symbols using List.reverseRecOn generalizing symbol with
  | nil => rfl
  | append_singleton symbols last induction =>
      rw [declareAll_concat, declare_eq, List.find?_append]
      have known := induction last
      cases found : symbols.find? last.clashes with
      | some first =>
          rw [found] at known
          rw [known]
          dsimp only [Option.map_some]
          rw [induction]
          cases symbols_eq : symbols.find? symbol.clashes with
          | some earlier => rfl
          | none =>
              have apart : symbol.clashes last = false := by
                rw [Bool.eq_false_iff]
                intro clash
                rw [Symbol.clashes_congr clash, found] at symbols_eq
                cases symbols_eq
              simp [apart]
      | none =>
          rw [found] at known
          rw [known]
          dsimp only [Option.map_none]
          rw [List.find?_cons, Symbol.clashes_remembered]
          cases clash : symbol.clashes last with
          | true =>
              rw [Symbol.clashes_congr clash, found]
              simp [← Symbol.clashes_congr clash, clash]
          | false => simp [induction, clash]

/-- None of the symbols is a second declaration when they are declared in their
order. -/
def Admits : SymbolTable → List Symbol → Prop
  | _, [] => True
  | table, symbol :: symbols =>
      (∀ earlier ∈ table.declarations, symbol.repeats earlier = false) ∧
        Admits (table.declare symbol).2 symbols

theorem admits_append {table : SymbolTable} {front back : List Symbol} :
    table.Admits (front ++ back) ↔
      table.Admits front ∧ (table.declareAll front).Admits back := by
  induction front generalizing table with
  | nil => exact (iff_of_eq (true_and _)).symm
  | cons symbol front induction =>
      exact (and_congr_right fun _ => induction).trans and_assoc.symm

theorem admits_of_pairwise {table : SymbolTable} {symbols : List Symbol}
    (fresh : ∀ earlier ∈ table.declarations, ∀ symbol ∈ symbols,
      symbol.repeats earlier = false)
    (distinct : symbols.Pairwise fun earlier later =>
      later.repeats earlier = false) : table.Admits symbols := by
  induction symbols generalizing table with
  | nil => trivial
  | cons symbol symbols induction =>
      obtain ⟨first, distinct⟩ := List.pairwise_cons.mp distinct
      refine ⟨fun earlier member => fresh earlier member symbol
        List.mem_cons_self, induction ?_ distinct⟩
      intro earlier member later behind
      have old (known : earlier ∈ table.declarations) :
          later.repeats earlier = false :=
        fresh earlier known later (List.mem_cons_of_mem _ behind)
      rcases table.declarations_declare symbol with kept | added
      · exact old (kept ▸ member)
      · rcases List.mem_cons.mp (added ▸ member) with rfl | known
        · exact first later behind
        · exact old known

end SymbolTable

end ComponentLang
