import ComponentLang.Proofs.Symbol.Tables
import ComponentLang.Proofs.Walk.ScopeBalance
import ComponentLang.Proofs.Walk.Visits

namespace ComponentLang

namespace Symbol

def DeclaredAmong (symbol : Symbol) (tokens : List Token) : Prop :=
  ∃ token ∈ tokens, symbol.DeclaredBy token

/-- The symbol belongs to the open scopes or to one opened within them. -/
def BelongsTo (symbol : Symbol) (scopes : ScopeStack) : Prop :=
  ∃ within : ScopeStack, scopes.inner <:+ within.inner ∧
    symbol.scope = within.path

theorem declaredAmong_append_iff {symbol : Symbol} {front back : List Token} :
    symbol.DeclaredAmong (front ++ back) ↔
      symbol.DeclaredAmong front ∨ symbol.DeclaredAmong back := by
  simp only [DeclaredAmong, List.mem_append, or_and_right, exists_or]

theorem declaredAmong_cons_iff {symbol : Symbol} {token : Token}
    {rest : List Token} :
    symbol.DeclaredAmong (token :: rest) ↔
      symbol.DeclaredBy token ∨ symbol.DeclaredAmong rest := by
  simp only [DeclaredAmong, List.mem_cons, exists_eq_or_imp]

theorem DeclaredAmong.of_cons {symbol : Symbol} {token : Token}
    {rest : List Token} (among : symbol.DeclaredAmong (token :: rest))
    (nameless : Literal.isIdentifier token.text = false) :
    symbol.DeclaredAmong rest := by
  rcases declaredAmong_cons_iff.mp among with here | later
  · rw [here.identifier] at nameless
    nomatch nameless
  · exact later

theorem DeclaredAmong.of_concat {symbol : Symbol} {front : List Token}
    {token : Token} (among : symbol.DeclaredAmong (front ++ [token]))
    (nameless : Literal.isIdentifier token.text = false) :
    symbol.DeclaredAmong front := by
  rcases declaredAmong_append_iff.mp among with here | last
  · exact here
  · obtain ⟨_, member, -⟩ := last.of_cons nameless
    nomatch member

theorem DeclaredBy.reclassify {symbol : Symbol} {token : Token}
    {kind : TokenKind} {modifiers : Modifiers}
    (declared : symbol.DeclaredBy (token.reclassify kind modifiers)) :
    symbol.DeclaredBy token :=
  ⟨declared.line, declared.column, declared.identifier, declared.name⟩

theorem BelongsTo.of_suffix {symbol : Symbol} {outer inner : ScopeStack}
    (suffix : outer.inner <:+ inner.inner) (belongs : symbol.BelongsTo inner) :
    symbol.BelongsTo outer := by
  obtain ⟨within, inner_suffix, scope_eq⟩ := belongs
  exact ⟨within, suffix.trans inner_suffix, scope_eq⟩

end Symbol

namespace Walk

open TokenCursor

/-- Between two states of a walk the tokens `passed` were passed and the
symbols `declared`, latest first, were added. -/
structure Between (before after : Walk) (passed : List Token)
    (declared : List Symbol) : Prop where
  behind : before.cursor.behind = passed ++ after.cursor.behind
  symbols : after.symbols.declarations =
    declared ++ before.symbols.declarations
  current : ∀ symbol : Symbol,
    symbol.DeclaredAmong after.cursor.current?.toList →
    symbol.DeclaredAmong (before.cursor.current?.toList ++ passed)
  names : ∀ symbol ∈ declared,
    symbol.DeclaredAmong (before.cursor.current?.toList ++ passed)

def Leads (before after : Walk) : Prop :=
  ∃ passed declared, Between before after passed declared

theorem Leads.refl (walk : Walk) : Leads walk walk := by
  refine ⟨[], [], rfl, rfl, fun symbol among => ?_, nofun⟩
  rwa [List.append_nil]

theorem Leads.trans {first second third : Walk} (front : Leads first second)
    (back : Leads second third) : Leads first third := by
  obtain ⟨passed, declared, before⟩ := front
  obtain ⟨later, added, after⟩ := back
  have reached (symbol : Symbol)
      (among : symbol.DeclaredAmong (second.cursor.current?.toList ++ later)) :
      symbol.DeclaredAmong
        (first.cursor.current?.toList ++ (passed ++ later)) := by
    rw [← List.append_assoc]
    rcases Symbol.declaredAmong_append_iff.mp among with here | there
    · exact Symbol.declaredAmong_append_iff.mpr (.inl (before.current symbol here))
    · exact Symbol.declaredAmong_append_iff.mpr (.inr there)
  refine ⟨passed ++ later, added ++ declared, ?_, ?_, ?_, ?_⟩
  · rw [before.behind, after.behind, List.append_assoc]
  · rw [after.symbols, before.symbols, List.append_assoc]
  · intro symbol among
    exact reached symbol (after.current symbol among)
  · intro symbol member
    rcases List.mem_append.mp member with late | early
    · exact reached symbol (after.names symbol late)
    · rw [← List.append_assoc]
      exact Symbol.declaredAmong_append_iff.mpr (.inl (before.names symbol early))

theorem Leads.moveTo {walk : Walk} {reached : TokenCursor}
    {skipped : List Token} {token : Token}
    (behind_eq : walk.cursor.behind = skipped ++ token :: reached.behind)
    (there : reached.current? = some token) :
    Leads walk (walk.moveTo reached) := by
  refine ⟨skipped ++ [token], [], ?_, rfl, ?_, nofun⟩
  · rw [behind_eq, List.append_assoc]
    rfl
  · intro symbol among
    rw [Walk.moveTo, there] at among
    rw [← List.append_assoc]
    exact Symbol.declaredAmong_append_iff.mpr (.inr among)

theorem Leads.of_still {before after : Walk}
    (behind_eq : after.cursor.behind = before.cursor.behind)
    (current_eq : after.cursor.current? = before.cursor.current?)
    (symbols_eq : after.symbols = before.symbols) : Leads before after := by
  refine ⟨[], [], behind_eq.symm, congrArg _ symbols_eq, ?_, nofun⟩
  intro symbol among
  rwa [List.append_nil, ← current_eq]

theorem Leads.passStrings (walk : Walk) : Leads walk walk.strings := by
  rcases behind_passStrings walk.cursor with
    same | ⟨skipped, token, behind_eq, there, -⟩
  · rw [Walk.strings, same]
    exact .of_still rfl rfl rfl
  · exact .moveTo behind_eq there

theorem Leads.classify (walk : Walk) (kind : TokenKind)
    (modifiers : Modifiers) : Leads walk (walk.classify kind modifiers) := by
  refine ⟨[], [], (behind_reclassify _ _ _).symm, rfl, ?_, nofun⟩
  intro symbol among
  rw [List.append_nil]
  obtain ⟨⟨passed, ahead⟩⟩ := walk
  cases ahead with
  | nil => exact among
  | cons token rest =>
      obtain ⟨_, member, declared⟩ := among
      obtain rfl := List.mem_singleton.mp member
      exact ⟨token, List.mem_cons_self, declared.reclassify⟩

theorem Leads.register {walk : Walk} {symbol : Symbol} {token : Token}
    (there : walk.cursor.current? = some token)
    (declared : symbol.DeclaredBy token) :
    Leads walk { walk with symbols := (walk.symbols.declare symbol).2 } := by
  have still (other : Symbol)
      (among : other.DeclaredAmong walk.cursor.current?.toList) :
      other.DeclaredAmong (walk.cursor.current?.toList ++ []) := by
    rwa [List.append_nil]
  rcases walk.symbols.declarations_declare symbol with same | added
  · exact ⟨[], [], rfl, same, still, nofun⟩
  · refine ⟨[], [_], rfl, added, still, ?_⟩
    intro other member
    obtain rfl := List.mem_singleton.mp member
    apply still
    rw [there]
    exact ⟨token, List.mem_cons_self, declared.line, declared.column,
      declared.identifier, declared.name⟩

theorem leads_openScope (walk : Walk) (name : String) (kind : TokenKind) :
    Leads walk (walk.openScope name kind) :=
  .of_still rfl rfl rfl

theorem leads_closeScope (walk : Walk) : Leads walk walk.closeScope :=
  .of_still rfl rfl rfl

theorem keptBySteps_leads : KeptBySteps (fun _ => True) Leads where
  refl := .refl _
  trans := .trans
  report _ := .of_still rfl rfl rfl
  ended _ := .of_still rfl rfl rfl
  next found := by
    obtain ⟨skipped, behind_eq, -⟩ := behind_of_next? found
    exact .moveTo behind_eq (current?_of_next? found).1
  rescue found := by
    obtain ⟨skipped, token, behind_eq, there, -⟩ := behind_of_rescue? found
    exact .moveTo behind_eq there
  strings := .passStrings _
  classify := .classify _ _ _
  register there declared _ := .register there declared
  scope body := (leads_openScope _ _ _).trans (body.trans (leads_closeScope _))

theorem leads_settle (walk : Walk) : Leads walk walk.settle := by
  unfold settle
  split
  · exact .refl walk
  · exact .of_still rfl rfl rfl

theorem Leads.mem {before after : Walk} (leads : Leads before after)
    {symbol : Symbol} (member : symbol ∈ before.symbols.declarations) :
    symbol ∈ after.symbols.declarations := by
  obtain ⟨passed, declared, between⟩ := leads
  rw [between.symbols]
  exact List.mem_append_right _ member

/-- The scopes that are open stay, and what is declared belongs to them. -/
structure Records (before after : Walk) : Prop where
  inner : after.scopes.inner = before.scopes.inner
  declared : ∃ declared,
    after.symbols.declarations = declared ++ before.symbols.declarations ∧
      ∀ symbol ∈ declared, symbol.BelongsTo before.scopes

theorem Records.of_eq {before after : Walk}
    (inner : after.scopes.inner = before.scopes.inner)
    (symbols : after.symbols = before.symbols) : Records before after :=
  ⟨inner, [], congrArg _ symbols, nofun⟩

theorem Records.trans {first second third : Walk}
    (front : Records first second) (back : Records second third) :
    Records first third := by
  obtain ⟨inner, declared, symbols, belong⟩ := front
  obtain ⟨later_inner, added, later_symbols, later_belong⟩ := back
  refine ⟨later_inner.trans inner, added ++ declared, ?_, ?_⟩
  · rw [later_symbols, symbols, List.append_assoc]
  · intro symbol member
    rcases List.mem_append.mp member with late | early
    · exact (later_belong symbol late).of_suffix (inner ▸ List.suffix_rfl)
    · exact belong symbol early

theorem Records.register {walk : Walk} {symbol : Symbol}
    (scope_eq : symbol.scope = walk.scopes.path) :
    Records walk { walk with symbols := (walk.symbols.declare symbol).2 } := by
  refine ⟨rfl, ?_⟩
  rcases walk.symbols.declarations_declare symbol with same | added
  · exact ⟨[], same, nofun⟩
  · refine ⟨[_], added, ?_⟩
    intro other member
    obtain rfl := List.mem_singleton.mp member
    exact ⟨walk.scopes, List.suffix_rfl, scope_eq⟩

theorem Records.closeScope {before after : Walk} {name : String}
    {kind : TokenKind} (body : Records (before.openScope name kind) after) :
    Records before after.closeScope := by
  obtain ⟨inner, declared, symbols, belong⟩ := body
  have opened : after.scopes.inner = ⟨name, kind⟩ :: before.scopes.inner :=
    inner
  refine ⟨?_, declared, symbols, ?_⟩
  · simp only [Walk.closeScope, ScopeStack.pop, opened]
  · intro symbol member
    exact (belong symbol member).of_suffix (List.suffix_cons _ _)

theorem keptBySteps_records : KeptBySteps (fun _ => True) Records where
  refl := .of_eq rfl rfl
  trans := .trans
  report _ := .of_eq rfl rfl
  ended _ := .of_eq rfl rfl
  next _ := .of_eq rfl rfl
  rescue _ := .of_eq rfl rfl
  strings := .of_eq rfl rfl
  classify := .of_eq rfl rfl
  register _ _ scope_eq := .register scope_eq
  scope := .closeScope

/-! Scopes within scopes. -/

theorem suffix_pop {scopes : ScopeStack} {scope : Scope} {outer : List Scope}
    (suffix : scope :: outer <:+ scopes.inner) :
    outer <:+ scopes.pop.2.inner := by
  obtain ⟨front, inner_eq⟩ := suffix
  unfold ScopeStack.pop
  cases front with
  | nil =>
      rw [← inner_eq]
      exact List.suffix_rfl
  | cons first front =>
      rw [← inner_eq]
      exact (List.suffix_cons scope outer).trans (List.suffix_append front _)

theorem keptBySteps_nests :
    KeptBySteps (fun _ => True) fun before after =>
      before.scopes.inner <:+ after.scopes.inner where
  refl := List.suffix_rfl
  trans front back := front.trans back
  report _ := List.suffix_rfl
  ended _ := List.suffix_rfl
  next _ := List.suffix_rfl
  rescue _ := List.suffix_rfl
  strings := List.suffix_rfl
  classify := List.suffix_rfl
  register _ _ _ := List.suffix_rfl
  scope := suffix_pop

theorem symbols_reportDuplicate (walk : Walk) (registration : Registration)
    (kind : TokenKind) (token : Token) :
    (walk.reportDuplicate registration kind token).symbols = walk.symbols := by
  unfold reportDuplicate
  split
  · split <;> rfl
  · rfl

theorem exists_symbol_of_declare {walk after : Walk} {kind : TokenKind}
    {modifiers : Modifiers} {name : String}
    (declare_eq : walk.declare kind modifiers = (some name, after)) :
    ∃ symbol ∈ after.symbols.declarations,
      symbol.name = name ∧ symbol.scope = walk.scopes.path := by
  unfold declare at declare_eq
  split at declare_eq
  · nomatch declare_eq
  · split at declare_eq
    · cases declare_eq
      rw [classify, symbols_reportDuplicate]
      exact SymbolTable.exists_of_declare _ _
    · nomatch declare_eq

theorem scopes_need (walk : Walk) (expected : Expected) :
    (walk.need expected).2.scopes = walk.scopes := by
  unfold need advance
  split
  · split <;> rfl
  · split <;> rfl

theorem exists_symbol_of_define {walk : Walk} {kind : TokenKind}
    {modifiers : Modifiers} {name : String}
    (defined : (walk.define kind modifiers).2.1 = some name) :
    (walk.define kind modifiers).1 = .finished ∧
      ∃ symbol ∈ (walk.define kind modifiers).2.2.symbols.declarations,
        symbol.name = name ∧ symbol.scope = walk.scopes.path := by
  have same := scopes_need walk .identifier
  unfold define at defined ⊢
  split at defined
  · next after need_eq =>
      rw [need_eq] at same
      refine ⟨rfl, ?_⟩
      rw [← same]
      exact exists_symbol_of_declare (Prod.ext defined rfl)
  · nomatch defined

end Walk

namespace Visit

open Walk

/-- The name that the visit itself defines, if it comes to that. -/
def defined? (visit : Visit) : Option String :=
  match visit.rule with
  | .define kind modifiers _ | .signature kind modifiers =>
      (visit.walk.define kind modifiers).2.1
  | _ => none

theorem exists_symbol_of_defined? {visit : Visit} {name : String}
    (defined : visit.defined? = some name)
    (unexhausted : visit.result.1 ≠ .exhausted) :
    ∃ symbol ∈ visit.result.2.symbols.declarations,
      symbol.name = name ∧ symbol.scope = visit.walk.scopes.path := by
  have ran (fuel : Nat) (rule : Rule) (walk : Walk) :=
    keptBySteps_leads.run fuel rule walk (.inl fun _ => trivial)
  obtain ⟨_ | fuel, rule, walk⟩ := visit
  · exact absurd rfl unexhausted
  · cases rule with
    | define kind modifiers body =>
        obtain ⟨finished, symbol, member, names⟩ :=
          exists_symbol_of_define defined
        refine ⟨symbol, Leads.mem ?_ member, names⟩
        simp only [result, run]
        generalize walk.define kind modifiers = step at finished
        obtain ⟨outcome, name, after⟩ := step
        obtain rfl : outcome = .finished := finished
        simp only
        split
        · next name _ =>
            exact (leads_openScope after name kind).trans
              ((ran fuel body _).trans (leads_closeScope _))
        · exact ran fuel body after
    | signature kind modifiers =>
        obtain ⟨finished, symbol, member, names⟩ :=
          exists_symbol_of_define defined
        refine ⟨symbol, Leads.mem ?_ member, names⟩
        simp only [result, run]
        generalize walk.define kind modifiers = step at finished
        obtain ⟨outcome, name, after⟩ := step
        obtain rfl : outcome = .finished := finished
        simp only
        split
        · next terminal cursor take_eq =>
            exact (keptBySteps_leads.take take_eq).trans
              ((leads_openScope _ _ _).trans
                ((ran fuel (.call .parameters) _).trans (leads_closeScope _)))
        · exact .refl after
    | _ => cases defined

end Visit

end ComponentLang
