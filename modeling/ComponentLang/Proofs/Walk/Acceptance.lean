import ComponentLang.Proofs.Grammar.Acceptance
import ComponentLang.Proofs.Walk.Declarations
import ComponentLang.Proofs.Walk.ScopeBalance
import Mathlib.Data.List.Forall2

namespace ComponentLang

open Syntax Rule

namespace Item

variable {item : Item} {token : Token}

theorem Spells.accepts (spells : item.Spells token) (expected : Expected) :
    expected.accepts token = expected.accepts item.token := by
  cases expected <;>
    simp [Expected.accepts, Expected.startsExpression, Expected.isTruthWord,
      Expected.startsType, Item.token, spells.text, spells.kind]

theorem Spells.holds (spells : item.Spells token) {walk : Walk}
    (there : walk.cursor.current? = some token) {test : Test}
    (layout : test ≠ .lastOnLine) : walk.holds test = test.fits item := by
  have first : (Walk.start [item.token]).cursor.current? = some item.token := rfl
  unfold Test.fits Walk.holds TokenCursor.holds
  rw [there, first]
  cases test with
  | lastOnLine => contradiction
  | _ =>
      simp [Expected.isTruthWord, Item.token, spells.text, spells.kind]

end Item

theorem declarations_singleton (item : Item) (token : Token) :
    declarations [item] [token] = (item.symbol? token).toList := by
  cases symbol_eq : item.symbol? token <;> simp [declarations, symbol_eq]

theorem declarations_append {front back : List Item}
    {first second : List Token} (spelled : front.Forall₂ Item.Spells first) :
    declarations (front ++ back) (first ++ second) =
      declarations front first ++ declarations back second := by
  unfold declarations
  rw [List.zip_append spelled.length_eq, List.filterMap_append]

/-- The finding is about a name: one that is not known, or one that is declared
again among the symbols. -/
def Finding.ConcernsNames (finding : Finding) (table : SymbolTable)
    (symbols : List Symbol) : Prop :=
  (∃ known, finding.cause = .unknownIdentifier known) ∨
    (∃ earlier, finding.cause = .duplicateDeclaration earlier) ∧
      ¬table.Admits symbols

theorem Finding.ConcernsNames.of_front {finding : Finding}
    {table : SymbolTable} {front back : List Symbol}
    (concerns : finding.ConcernsNames table front) :
    finding.ConcernsNames table (front ++ back) :=
  concerns.imp_right fun ⟨duplicate, repeated⟩ =>
    ⟨duplicate, fun admits => repeated (SymbolTable.admits_append.mp admits).1⟩

theorem Finding.ConcernsNames.of_back {finding : Finding}
    {table : SymbolTable} {front back : List Symbol}
    (concerns : finding.ConcernsNames (table.declareAll front) back) :
    finding.ConcernsNames table (front ++ back) :=
  concerns.imp_right fun ⟨duplicate, repeated⟩ =>
    ⟨duplicate, fun admits => repeated (SymbolTable.admits_append.mp admits).2⟩

namespace TokenCursor

variable {cursor : TokenCursor} {token : Token} {rest : List Token}
  {candidates : List Terminal}

theorem next?_of_upcoming (upcoming_eq : cursor.upcoming = token :: rest) :
    ∃ after, cursor.next? = some (token, after) ∧ after.upcoming = rest := by
  cases next_eq : cursor.next? with
  | none =>
      rw [upcoming_eq_nil next_eq] at upcoming_eq
      nomatch upcoming_eq
  | some found =>
      obtain ⟨token, after⟩ := found
      rw [upcoming_of_next? next_eq] at upcoming_eq
      cases upcoming_eq
      exact ⟨after, rfl, rfl⟩

theorem passStringsFrom_eq_self {last : TokenCursor} {passed tokens : List Token}
    (unquoted : ∀ token ∈ (tokens.filter fun token => !token.isTrivia).head?,
      token.kind ≠ .string) : passStringsFrom last passed tokens = last := by
  fun_induction passStringsFrom last passed tokens with
  | case1 => rfl
  | case2 last passed token rest trivia induction =>
      rw [List.filter_cons_of_neg (by simp [trivia])] at unquoted
      exact induction unquoted
  | case3 last passed token rest meaning string =>
      rw [List.filter_cons_of_pos (by simp [meaning])] at unquoted
      exact absurd (beq_iff_eq.mp string) (unquoted token rfl)
  | case4 => rfl

theorem passStrings_eq_self
    (unquoted : ∀ token ∈ cursor.upcoming.head?, token.kind ≠ .string) :
    cursor.passStrings = cursor := by
  obtain ⟨passed, _ | ⟨current, rest⟩⟩ := cursor
  · rfl
  · exact passStringsFrom_eq_self unquoted

end TokenCursor

namespace Walk

variable {first second third walk : Walk} {items others : List Item}
  {tokens further behind : List Token} {item : Item} {token : Token}

structure Takes (items : List Item) (tokens behind : List Token)
    (before after : Walk) : Prop where
  spelled : items.Forall₂ Item.Spells tokens
  upcoming : after.cursor.upcoming = behind
  inner : after.scopes.inner = before.scopes.inner
  plain : ∀ symbol ∈ declarations items tokens,
    symbol.modifiers.declaration = false
  symbols : after.symbols =
    before.symbols.declareAll (declarations items tokens)
  findings : ∀ finding ∈ after.findings, finding ∈ before.findings ∨
    finding.ConcernsNames before.symbols (declarations items tokens)

theorem Takes.of_still {before after : Walk}
    (behind_eq : after.cursor.behind = before.cursor.behind)
    (inner : after.scopes.inner = before.scopes.inner)
    (symbols : after.symbols = before.symbols)
    (findings : ∀ finding ∈ after.findings, finding ∈ before.findings ∨
      ∃ known, finding.cause = .unknownIdentifier known) :
    Takes [] [] before.cursor.upcoming before after where
  spelled := .nil
  upcoming := congrArg (List.filter _) behind_eq
  inner := inner
  plain := List.forall_mem_nil _
  symbols := symbols
  findings finding member := (findings finding member).imp_right .inl

theorem Takes.refl (walk : Walk) : Takes [] [] walk.cursor.upcoming walk walk :=
  .of_still rfl rfl rfl fun _ => .inl

theorem Takes.trans (front : Takes items tokens (further ++ behind) first second)
    (back : Takes others further behind second third) :
    Takes (items ++ others) (tokens ++ further) behind first third where
  spelled := List.rel_append front.spelled back.spelled
  upcoming := back.upcoming
  inner := back.inner.trans front.inner
  plain := by
    rw [declarations_append front.spelled]
    exact List.forall_mem_append.mpr ⟨front.plain, back.plain⟩
  symbols := by
    rw [declarations_append front.spelled, SymbolTable.declareAll_append,
      ← front.symbols, back.symbols]
  findings finding member := by
    rw [declarations_append front.spelled]
    rcases back.findings finding member with before | later
    · exact (front.findings finding before).imp_right .of_front
    · rw [front.symbols] at later
      exact .inr later.of_back

/-- The rule comes to its end when it is given enough steps. -/
def Passes (rule : Rule) (before after : Walk) : Prop :=
  ∃ fuel, run fuel rule before = (.finished, after)

theorem Passes.seq {rule next : Rule} (front : Passes rule first second)
    (back : Passes next second third) : Passes (.seq rule next) first third := by
  obtain ⟨fuel, first_eq⟩ := front
  obtain ⟨more, second_eq⟩ := back
  refine ⟨max fuel more + 1, ?_⟩
  rw [run, run_of_le first_eq (by simp) (Nat.le_max_left _ _)]
  exact run_of_le second_eq (by simp) (Nat.le_max_right _ _)

theorem Passes.recover {resumption : Resumption} {body next resumed : Rule}
    (front : Passes body first second) (back : Passes next second third) :
    Passes (.recover resumption body next resumed) first third := by
  obtain ⟨fuel, first_eq⟩ := front
  obtain ⟨more, second_eq⟩ := back
  refine ⟨max fuel more + 1, ?_⟩
  rw [run, run_of_le first_eq (by simp) (Nat.le_max_left _ _)]
  exact run_of_le second_eq (by simp) (Nat.le_max_right _ _)

theorem Takes.moveTo {reached : TokenCursor} (plain : item.mark = none)
    (spells : item.Spells token) (reached_eq : reached.upcoming = behind) :
    Takes [item] [token] behind walk (walk.moveTo reached) where
  spelled := .cons spells .nil
  upcoming := reached_eq
  inner := rfl
  plain := by
    rw [declarations_singleton, Item.symbol?, plain]
    exact List.forall_mem_nil _
  symbols := by
    rw [declarations_singleton, Item.symbol?, plain]
    rfl
  findings _ := .inl

def StandsOn (current : Option Item) (walk : Walk) : Prop :=
  ∀ item ∈ current, ∃ token,
    walk.cursor.current? = some token ∧ item.Spells token

theorem standsOn_none (walk : Walk) : walk.StandsOn none :=
  fun _ none_there => nomatch none_there

theorem standsOn_moveTo {reached : TokenCursor} (spells : item.Spells token)
    (found : walk.cursor.next? = some (token, reached)) :
    (walk.moveTo reached).StandsOn (some item) := by
  rintro _ ⟨⟩
  exact ⟨token, (TokenCursor.current?_of_next? found).1, spells⟩

theorem need_of_accepts {expected : Expected} {reached : TokenCursor}
    (fits : expected.accepts token)
    (found : walk.cursor.next? = some (token, reached)) :
    walk.need expected = (.finished, walk.moveTo reached) := by
  unfold need
  rw [found]
  simp only [fits, Bool.true_or, if_true]

theorem passes_of_takes {rule : Rule} {reached : TokenCursor}
    (takes : Rule.Takes rule item) (spells : item.Spells token)
    (found : walk.cursor.next? = some (token, reached)) :
    Passes rule walk (walk.moveTo reached) := by
  refine ⟨1, ?_⟩
  cases takes with
  | need fits plain =>
      rw [run]
      exact need_of_accepts (spells.accepts _ ▸ fits) found
  | @expect candidates _ member =>
      have there := (TokenCursor.current?_of_next? found).1
      have fits : (Expected.oneOf candidates).accepts token := by
        rw [spells.accepts]
        exact Terminal.find?_spelling_isSome member
      rw [run, expect, need_of_accepts fits found]
      simp only [moveTo, there, fits, if_true]
  | advance => rw [run, Walk.advance, found]

theorem take?_of_next? {candidates : List Terminal} {terminal : Terminal}
    {reached : TokenCursor} (member : terminal ∈ candidates)
    (spells : (Item.terminal terminal).Spells token)
    (next_eq : walk.cursor.next? = some (token, reached)) :
    ∃ found, walk.cursor.take? candidates = some (found, reached) := by
  have listed := Terminal.find?_spelling_isSome member
  rw [← show token.text = terminal.spelling from spells.text] at listed
  obtain ⟨found, found_eq⟩ := Option.isSome_iff_exists.mp listed
  refine ⟨found, ?_⟩
  simp only [TokenCursor.take?, next_eq, found_eq, Option.map_some]

theorem Passes.found {candidates : List Terminal} {found : Terminal}
    {rule missing : Rule} {reached : TokenCursor}
    (take_eq : first.cursor.take? candidates = some (found, reached))
    (passes : Passes rule (first.moveTo reached) second) :
    Passes (.accept candidates rule missing) first second := by
  obtain ⟨fuel, run_eq⟩ := passes
  refine ⟨fuel + 1, ?_⟩
  rw [run, take_eq]
  exact run_eq

theorem take?_of_apart {candidates : List Terminal}
    (apart : Apart candidates items)
    (spelled : items.Forall₂ Item.Spells walk.cursor.upcoming) :
    walk.cursor.take? candidates = none := by
  unfold TokenCursor.take?
  cases next_eq : walk.cursor.next? with
  | none => rfl
  | some found =>
      obtain ⟨token, reached⟩ := found
      rw [TokenCursor.upcoming_of_next? next_eq] at spelled
      cases spelled with
      | cons spells _ =>
          have other := apart _ rfl
          rw [← spells.text] at other
          simp only [other, Option.map_none]

theorem peekIs_of_apart {candidates : List Terminal}
    (apart : Apart candidates items)
    (spelled : items.Forall₂ Item.Spells walk.cursor.upcoming) :
    walk.cursor.peekIs candidates = false := by
  unfold TokenCursor.peekIs
  rw [TokenCursor.peek?_eq_head?]
  generalize walk.cursor.upcoming = upcoming at spelled
  cases spelled with
  | nil => rfl
  | cons spells _ =>
      have other := apart _ rfl
      rw [← spells.text] at other
      simp [other]

theorem Passes.missing {candidates : List Terminal} {found rule : Rule}
    (take_eq : first.cursor.take? candidates = none)
    (passes : Passes rule first second) :
    Passes (.accept candidates found rule) first second := by
  obtain ⟨fuel, run_eq⟩ := passes
  refine ⟨fuel + 1, ?_⟩
  rw [run, take_eq]
  exact run_eq

theorem Passes.branch {test : Test} {holds fails : Rule} {fits : Bool}
    (holds_eq : first.holds test = fits)
    (passes : Passes (if fits then holds else fails) first second) :
    Passes (.branch test holds fails) first second := by
  obtain ⟨fuel, run_eq⟩ := passes
  refine ⟨fuel + 1, ?_⟩
  rw [run, holds_eq]
  cases fits <;> exact run_eq

theorem Passes.call {nonterminal : Nonterminal}
    (passes : Passes nonterminal.rule first second) :
    Passes (.call nonterminal) first second := by
  obtain ⟨fuel, run_eq⟩ := passes
  exact ⟨fuel + 1, run_eq⟩

theorem takes_resolve (there : walk.cursor.current? = some token)
    (identifier : Literal.isIdentifier token.text) :
    Takes [] [] walk.cursor.upcoming walk walk.resolve := by
  refine .of_still (behind_resolve walk) (keptBySteps_balanced.resolve walk).inner
    ?symbols ?findings
  case symbols =>
    unfold resolve
    rw [there]
    simp only [identifier, if_true]
    split <;> rfl
  case findings =>
    unfold resolve
    rw [there]
    simp only [identifier, if_true]
    split
    · exact fun _ => .inl
    · exact List.forall_mem_cons.mpr ⟨.inr ⟨_, rfl⟩, fun _ => .inl⟩

theorem path_eq (scopes : ScopeStack) : scopes.path = Scope.path scopes.inner :=
  rfl

/-- A declaration is reported only if it repeats one in the table. -/
theorem findings_reportDuplicate {table : SymbolTable} {symbol : Symbol}
    {finding : Finding}
    (member : finding ∈ (walk.reportDuplicate (table.declare symbol).1
      symbol.kind token).findings) :
    finding ∈ walk.findings ∨ finding.ConcernsNames table [symbol] := by
  unfold reportDuplicate at member
  split at member
  · next earlier registered =>
      obtain ⟨known, clash⟩ := SymbolTable.of_declare_duplicate registered
      split at member
      · exact .inl member
      · next again =>
          rcases List.mem_cons.mp member with rfl | before
          · refine .inr (.inr ⟨⟨earlier.clash, rfl⟩, fun admits => ?_⟩)
            have fresh := admits.1 earlier known
            simp [Symbol.repeats, clash, again] at fresh
          · exact .inl before
  · exact .inl member

section Names

variable {scopes : List Scope} {name : Name} {kind : TokenKind}
  {modifiers : Modifiers} {body : Rule}

theorem takes_declare (inner : walk.scopes.inner = scopes)
    (plain : modifiers.declaration = false)
    (spells : (name.declaration scopes kind modifiers).Spells token)
    (there : walk.cursor.current? = some token) :
    ∃ after, walk.declare kind modifiers =
        (some (Literal.nameOf name.text), after) ∧
      Takes [name.declaration scopes kind modifiers] [token]
        walk.cursor.upcoming walk after := by
  have behind_eq := behind_declare walk kind modifiers
  have kept := (keptBySteps_balanced.declare walk kind modifiers).inner
  have text_eq : token.text = name.text := spells.text
  have identifier : Literal.isIdentifier token.text := text_eq ▸ name.valid
  unfold declare at behind_eq kept ⊢
  rw [there] at behind_eq kept ⊢
  simp only [identifier, if_true] at behind_eq kept ⊢
  refine ⟨_, by rw [text_eq], .cons spells .nil,
    congrArg (List.filter _) behind_eq, kept, ?plain, ?symbols, ?findings⟩
  case plain =>
    rw [declarations_singleton]
    exact List.forall_mem_singleton.mpr plain
  case symbols =>
    rw [classify, symbols_reportDuplicate, declarations_singleton, path_eq,
      inner]
    rfl
  case findings =>
    intro finding member
    rw [path_eq, inner] at member
    have reported := findings_reportDuplicate member
    rw [declarations_singleton]
    exact reported

theorem takes_define {reached : TokenCursor} (inner : walk.scopes.inner = scopes)
    (plain : modifiers.declaration = false)
    (spells : (name.declaration scopes kind modifiers).Spells token)
    (found : walk.cursor.next? = some (token, reached))
    (reached_eq : reached.upcoming = behind) :
    ∃ after, walk.define kind modifiers =
        (.finished, some (Literal.nameOf name.text), after) ∧
      Takes [name.declaration scopes kind modifiers] [token] behind walk
        after := by
  have fits : Expected.identifier.accepts token := by
    rw [spells.accepts]
    exact name.valid
  have moved : (walk.moveTo reached).scopes.inner = scopes := inner
  obtain ⟨after, declare_eq, takes⟩ := takes_declare moved plain spells
    (TokenCursor.current?_of_next? found).1
  refine ⟨after, ?_, takes.spelled, takes.upcoming.trans reached_eq, takes.inner,
    takes.plain, takes.symbols, takes.findings⟩
  rw [define, need_of_accepts fits found]
  exact congrArg _ declare_eq

theorem Takes.closeScope {name : String}
    (takes : Takes items tokens behind (first.openScope name kind) second) :
    Takes items tokens behind first second.closeScope where
  spelled := takes.spelled
  upcoming := takes.upcoming
  inner := by
    have inner : second.scopes.inner = ⟨name, kind⟩ :: first.scopes.inner :=
      takes.inner
    simp only [Walk.closeScope, ScopeStack.pop, inner]
  plain := takes.plain
  symbols := takes.symbols
  findings := takes.findings

theorem Passes.define {name : String} (closed : kind.opensScope = false)
    (define_eq : first.define kind modifiers = (.finished, some name, second))
    (passes : Passes body second third) :
    Passes (.define kind modifiers body) first third := by
  obtain ⟨fuel, run_eq⟩ := passes
  refine ⟨fuel + 1, ?_⟩
  rw [run, define_eq]
  simp only [openedScope, closed]
  exact run_eq

theorem Passes.scope {name : String} (opens : kind.opensScope)
    (define_eq : first.define kind modifiers = (.finished, some name, second))
    (passes : Passes body (second.openScope name kind) third) :
    Passes (.define kind modifiers body) first third.closeScope := by
  obtain ⟨fuel, run_eq⟩ := passes
  refine ⟨fuel + 1, ?_⟩
  rw [run, define_eq]
  simp only [openedScope, opens, if_true, run_eq]

theorem passes_signature {name : String}
    (define_eq : first.define kind modifiers = (.finished, some name, second))
    (take_eq : second.cursor.take? [Operator.leftParen] = none) :
    Passes (.signature kind modifiers) first second := by
  refine ⟨1, ?_⟩
  rw [run, define_eq]
  simp only [take_eq]

theorem Passes.parameters {name : String} {found : Terminal}
    {reached : TokenCursor}
    (define_eq : first.define kind modifiers = (.finished, some name, second))
    (take_eq : second.cursor.take? [Operator.leftParen] = some (found, reached))
    (passes : Passes (.call .parameters)
      ((second.moveTo reached).openScope name .nil) third) :
    Passes (.signature kind modifiers) first third.closeScope := by
  obtain ⟨fuel, run_eq⟩ := passes
  refine ⟨fuel + 1, ?_⟩
  rw [run, define_eq]
  simp only [take_eq, parameterScope, Option.getD_some, run_eq]

end Names

theorem beginning_of_word {word : Keyword} {block : Block}
    {statement : Statement} (there : walk.cursor.current? = some token)
    (spells : (Item.terminal word).Spells token)
    (apart : Apart Statement.followers items)
    (spelled : items.Forall₂ Item.Spells walk.cursor.upcoming)
    (selected : Statement.select block (fun _ => false) word = some statement) :
    walk.beginning block = .statement statement := by
  have kind_eq : token.kind = .keyword :=
    spells.kind.trans (Scan.lexicalKind_keyword word)
  have text_eq : token.text = word.spelling := spells.text
  have follows : Statement.select block
      (fun terminal => walk.cursor.peekIs [terminal]) word = some statement := by
    rw [← selected]
    refine Statement.select_congr (fun terminal member => ?_) block word
    refine peekIs_of_apart (apart.mono fun other same => ?_) spelled
    rwa [List.mem_singleton.mp same]
  unfold beginning TokenCursor.beginning
  rw [there]
  simp only [Token.isTrivia, kind_eq, text_eq, Keyword.ofSpelling?_spelling,
    Option.bind_some, follows]
  rfl

theorem Passes.statement {block : Block} {statement : Statement}
    (beginning_eq : first.beginning block = .statement statement)
    (passes : Passes statement.rule first second) :
    Passes (.statement block) first second := by
  obtain ⟨fuel, run_eq⟩ := passes
  refine ⟨fuel + 1, ?_⟩
  rw [run, beginning_eq]
  exact run_eq

end Walk

theorem Rule.Takes.mark {rule : Rule} {item : Item} (takes : Takes rule item) :
    item.mark = none := by
  cases takes with
  | need _ plain => exact plain
  | expect | advance => rfl

theorem exists_of_forall₂_append {items others : List Item}
    {tokens : List Token}
    (spelled : (items ++ others).Forall₂ Item.Spells tokens) :
    ∃ front back, tokens = front ++ back ∧
      items.Forall₂ Item.Spells front ∧ others.Forall₂ Item.Spells back := by
  induction items generalizing tokens with
  | nil => exact ⟨[], tokens, rfl, .nil, spelled⟩
  | cons item items induction =>
      cases spelled with
      | cons spells later =>
          obtain ⟨front, back, rfl, front_spelled, back_spelled⟩ :=
            induction later
          exact ⟨_ :: front, back, rfl, .cons spells front_spelled, back_spelled⟩

theorem exists_next {item : Item} {front : List Item}
    {tokens behind : List Token} {cursor : TokenCursor}
    (upcoming_eq : cursor.upcoming = tokens ++ behind)
    (spelled : ([item] ++ front).Forall₂ Item.Spells tokens) :
    ∃ token further reached, tokens = [token] ++ further ∧
      item.Spells token ∧ front.Forall₂ Item.Spells further ∧
      cursor.next? = some (token, reached) ∧
      reached.upcoming = further ++ behind := by
  obtain ⟨token, further, spells, later, rfl⟩ :=
    List.forall₂_cons_left_iff.mp spelled
  obtain ⟨reached, next_eq, reached_eq⟩ :=
    TokenCursor.next?_of_upcoming upcoming_eq
  exact ⟨token, further, reached, rfl, spells, later, next_eq, reached_eq⟩

namespace Rule

/-- With the scopes open and at the item that is current, a walk that has the
tokens of the items before it passes the rule and takes those in `front`. -/
def Succeeds (scopes : List Scope) (current : Option Item) (rule : Rule)
    (front rest : List Item) : Prop :=
  ∀ walk tokens behind, walk.scopes.inner = scopes → walk.StandsOn current →
    walk.cursor.upcoming = tokens ++ behind →
    front.Forall₂ Item.Spells tokens → rest.Forall₂ Item.Spells behind →
    ∃ after, walk.Passes rule after ∧
      Walk.Takes front tokens behind walk after

variable {scopes : List Scope} {current : Option Item} {item : Item}
  {rule next : Rule} {front middle rest : List Item}

namespace Succeeds

theorem trans (first : Succeeds scopes current rule front (middle ++ rest))
    (second : Succeeds scopes none next middle rest) {walk : Walk}
    {tokens behind : List Token} (inner : walk.scopes.inner = scopes)
    (stands : walk.StandsOn current)
    (upcoming_eq : walk.cursor.upcoming = tokens ++ behind)
    (spelled : (front ++ middle).Forall₂ Item.Spells tokens)
    (followed : rest.Forall₂ Item.Spells behind) :
    ∃ between after, walk.Passes rule between ∧ between.Passes next after ∧
      Walk.Takes (front ++ middle) tokens behind walk after := by
  obtain ⟨taken, further, rfl, taken_spelled, further_spelled⟩ :=
    exists_of_forall₂_append spelled
  rw [List.append_assoc] at upcoming_eq
  obtain ⟨between, passes, takes⟩ := first walk taken _ inner stands upcoming_eq
    taken_spelled (List.rel_append further_spelled followed)
  obtain ⟨after, passes_next, takes_next⟩ := second between further behind
    (takes.inner.trans inner) between.standsOn_none takes.upcoming
    further_spelled followed
  exact ⟨between, after, passes, passes_next, takes.trans takes_next⟩

theorem take (takes : Takes rule item) :
    Succeeds scopes current rule [item] rest := by
  intro walk tokens behind inner stands upcoming_eq spelled followed
  obtain ⟨token, further, reached, rfl, spells, nothing, next_eq, reached_eq⟩ :=
    exists_next upcoming_eq spelled
  cases nothing
  exact ⟨_, Walk.passes_of_takes takes spells next_eq,
    .moveTo takes.mark spells reached_eq⟩

theorem takeThen (takes : Takes rule item)
    (succeeds : Succeeds scopes (some item) next front rest) :
    Succeeds scopes current (.seq rule next) ([item] ++ front) rest := by
  intro walk tokens behind inner stands upcoming_eq spelled followed
  obtain ⟨token, further, reached, rfl, spells, later, next_eq, reached_eq⟩ :=
    exists_next upcoming_eq spelled
  obtain ⟨after, passes, body⟩ := succeeds (walk.moveTo reached) further behind
    inner (Walk.standsOn_moveTo spells next_eq) reached_eq later followed
  exact ⟨after, (Walk.passes_of_takes takes spells next_eq).seq passes,
    .trans (.moveTo takes.mark spells reached_eq) body⟩

theorem found {candidates : List Terminal} {terminal : Terminal}
    {missing : Rule} (member : terminal ∈ candidates)
    (succeeds : Succeeds scopes none rule front rest) :
    Succeeds scopes current (.accept candidates rule missing)
      (lone terminal ++ front) rest := by
  intro walk tokens behind inner stands upcoming_eq spelled followed
  obtain ⟨token, further, reached, rfl, spells, later, next_eq, reached_eq⟩ :=
    exists_next upcoming_eq spelled
  obtain ⟨found, take_eq⟩ := Walk.take?_of_next? member spells next_eq
  obtain ⟨after, passes, body⟩ := succeeds (walk.moveTo reached) further behind
    inner (Walk.standsOn_none _) reached_eq later followed
  exact ⟨after, .found take_eq passes,
    .trans (.moveTo rfl spells reached_eq) body⟩

theorem missing {candidates : List Terminal} {found : Rule}
    (apart : Apart candidates (front ++ rest))
    (succeeds : Succeeds scopes current rule front rest) :
    Succeeds scopes current (.accept candidates found rule) front rest := by
  intro walk tokens behind inner stands upcoming_eq spelled followed
  obtain ⟨after, passes, takes⟩ :=
    succeeds walk tokens behind inner stands upcoming_eq spelled followed
  refine ⟨after, passes.missing (Walk.take?_of_apart apart ?_), takes⟩
  rw [upcoming_eq]
  exact List.rel_append spelled followed

theorem branch {test : Test} {holds fails : Rule} {fits : Bool}
    (layout : test ≠ .lastOnLine) (fits_eq : test.fits item = fits)
    (succeeds : Succeeds scopes (some item) (if fits then holds else fails)
      front rest) :
    Succeeds scopes (some item) (.branch test holds fails) front rest := by
  intro walk tokens behind inner stands upcoming_eq spelled followed
  obtain ⟨token, there, spells⟩ := stands item rfl
  obtain ⟨after, passes, takes⟩ :=
    succeeds walk tokens behind inner stands upcoming_eq spelled followed
  exact ⟨after, .branch ((spells.holds there layout).trans fits_eq) passes,
    takes⟩

theorem strings (unquoted : ∀ item ∈ rest.head?, item.kind ≠ .string) :
    Succeeds scopes current .strings [] rest := by
  intro walk tokens behind inner stands upcoming_eq spelled followed
  cases spelled
  obtain rfl := upcoming_eq
  have still : walk.strings = walk := by
    rw [Walk.strings, TokenCursor.passStrings_eq_self]
    · rfl
    · generalize walk.cursor.upcoming = upcoming at followed
      cases followed with
      | nil => rintro _ ⟨⟩
      | cons spells _ =>
          rintro _ ⟨⟩
          rw [spells.kind]
          exact unquoted _ rfl
  exact ⟨walk, ⟨1, by rw [Walk.run, still]⟩, .refl walk⟩

theorem resolve (identifier : Literal.isIdentifier item.text) :
    Succeeds scopes (some item) .resolve [] rest := by
  intro walk tokens behind inner stands upcoming_eq spelled followed
  cases spelled
  obtain rfl := upcoming_eq
  obtain ⟨token, there, spells⟩ := stands item rfl
  rw [← spells.text] at identifier
  exact ⟨walk.resolve, ⟨1, rfl⟩, Walk.takes_resolve there identifier⟩

section Names

variable {kind : TokenKind} {modifiers : Modifiers} (name : Name)
  (plain : modifiers.declaration = false)
include plain

theorem define
    (succeeds : Succeeds (name.within kind scopes) none rule front rest) :
    Succeeds scopes current (.define kind modifiers rule)
      ([name.declaration scopes kind modifiers] ++ front) rest := by
  intro walk tokens behind inner stands upcoming_eq spelled followed
  obtain ⟨token, further, reached, rfl, spells, later, next_eq, reached_eq⟩ :=
    exists_next upcoming_eq spelled
  obtain ⟨between, define_eq, named⟩ :=
    Walk.takes_define inner plain spells next_eq reached_eq
  have kept := named.inner.trans inner
  unfold Name.within at succeeds
  cases opens : kind.opensScope with
  | false =>
      rw [opens] at succeeds
      obtain ⟨after, passes, body⟩ := succeeds between further behind kept
        between.standsOn_none named.upcoming later followed
      exact ⟨after, .define opens define_eq passes, named.trans body⟩
  | true =>
      rw [opens] at succeeds
      obtain ⟨after, passes, body⟩ := succeeds
        (between.openScope (Literal.nameOf name.text) kind) further behind
        (congrArg (List.cons _) kept) (Walk.standsOn_none _) named.upcoming
        later followed
      exact ⟨after.closeScope, .scope opens define_eq passes,
        named.trans body.closeScope⟩

theorem signature (apart : Apart [Operator.leftParen] rest) :
    Succeeds scopes current (.signature kind modifiers)
      [name.declaration scopes kind modifiers] rest := by
  intro walk tokens behind inner stands upcoming_eq spelled followed
  obtain ⟨token, further, reached, rfl, spells, nothing, next_eq, reached_eq⟩ :=
    exists_next upcoming_eq spelled
  cases nothing
  obtain ⟨after, define_eq, named⟩ :=
    Walk.takes_define inner plain spells next_eq reached_eq
  refine ⟨after, Walk.passes_signature define_eq ?_, named⟩
  apply Walk.take?_of_apart apart
  rw [named.upcoming]
  exact followed

theorem parameters
    (succeeds : Succeeds (name.scope .nil :: scopes) none (.call .parameters)
      front rest) :
    Succeeds scopes current (.signature kind modifiers)
      ([name.declaration scopes kind modifiers] ++
        (lone Operator.leftParen ++ front)) rest := by
  intro walk tokens behind inner stands upcoming_eq spelled followed
  obtain ⟨token, further, reached, rfl, spells, later, next_eq, reached_eq⟩ :=
    exists_next upcoming_eq spelled
  obtain ⟨between, define_eq, named⟩ :=
    Walk.takes_define inner plain spells next_eq reached_eq
  obtain ⟨opening, inside, opened, rfl, opens, within, opening_eq, opened_eq⟩ :=
    exists_next named.upcoming later
  obtain ⟨found, take_eq⟩ :=
    Walk.take?_of_next? List.mem_cons_self opens opening_eq
  obtain ⟨after, passes, body⟩ := succeeds
    ((between.moveTo opened).openScope (Literal.nameOf name.text) .nil) inside
    behind (congrArg (List.cons _) (named.inner.trans inner))
    (Walk.standsOn_none _) opened_eq within followed
  refine ⟨after.closeScope, .parameters define_eq take_eq passes, ?_⟩
  exact named.trans (.trans (.moveTo rfl opens opened_eq) body.closeScope)

end Names

theorem statement {block : Block} {word : Keyword} {statement : Statement}
    (apart : Apart Statement.followers (front ++ rest))
    (selected : Statement.select block (fun _ => false) word = some statement)
    (succeeds : Succeeds scopes none statement.rule front rest) :
    Succeeds scopes (some (.terminal word)) (.statement block) front rest := by
  intro walk tokens behind inner stands upcoming_eq spelled followed
  obtain ⟨token, there, spells⟩ := stands _ rfl
  obtain ⟨after, passes, takes⟩ := succeeds walk tokens behind inner
    walk.standsOn_none upcoming_eq spelled followed
  have begins := Walk.beginning_of_word there spells apart
    (upcoming_eq ▸ List.rel_append spelled followed) selected
  exact ⟨after, .statement begins passes, takes⟩

end Succeeds

theorem Accepts.succeeds (accepts : Accepts scopes current rule front rest) :
    Succeeds scopes current rule front rest := by
  induction accepts with
  | done =>
      intro walk tokens behind inner stands upcoming_eq spelled followed
      cases spelled
      obtain rfl := upcoming_eq
      exact ⟨walk, ⟨1, rfl⟩, .refl walk⟩
  | seq _ _ front_ih middle_ih =>
      intro walk tokens behind inner stands upcoming_eq spelled followed
      obtain ⟨between, after, front_passes, back_passes, takes⟩ :=
        front_ih.trans middle_ih inner stands upcoming_eq spelled followed
      exact ⟨after, front_passes.seq back_passes, takes⟩
  | take takes => exact .take takes
  | takeThen takes _ induction => exact .takeThen takes induction
  | found member _ induction => exact .found member induction
  | missing apart _ induction => exact .missing apart induction
  | holds layout fits _ induction => exact .branch layout fits induction
  | fails layout unfit _ induction => exact .branch layout unfit induction
  | strings unquoted => exact .strings unquoted
  | resolve identifier => exact .resolve identifier
  | define name plain _ induction => exact .define name plain induction
  | signature name plain apart => exact .signature name plain apart
  | parameters name plain _ induction => exact .parameters name plain induction
  | recover _ _ front_ih middle_ih =>
      intro walk tokens behind inner stands upcoming_eq spelled followed
      obtain ⟨between, after, front_passes, back_passes, takes⟩ :=
        front_ih.trans middle_ih inner stands upcoming_eq spelled followed
      exact ⟨after, front_passes.recover back_passes, takes⟩
  | statement apart selected _ induction =>
      exact .statement apart selected induction
  | call _ induction =>
      intro walk tokens behind inner stands upcoming_eq spelled followed
      obtain ⟨after, passes, takes⟩ :=
        induction walk tokens behind inner stands upcoming_eq spelled followed
      exact ⟨after, passes.call, takes⟩

end Rule

end ComponentLang
