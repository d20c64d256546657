import ComponentLang.Proofs.Symbol.Tables
import ComponentLang.Proofs.Walk.ReportOrder
import Mathlib.Data.List.Forall2
import Mathlib.Data.List.Induction

namespace ComponentLang

namespace Token

def name (token : Token) : String :=
  Literal.nameOf token.text

end Token

/-- Of the tokens that are declarations, the first one of each name. -/
def firstDeclarations (tokens : List Token) : List Token :=
  (tokens.filter Token.isDeclaration).eraseDupsBy fun later earlier =>
    later.name == earlier.name

section FirstDeclarations

variable {tokens : List Token} {token : Token}

theorem firstDeclarations_concat_reference
    (reference : token.isDeclaration = false) :
    firstDeclarations (tokens ++ [token]) = firstDeclarations tokens := by
  simp [firstDeclarations, reference]

theorem firstDeclarations_concat (declares : token.isDeclaration) :
    firstDeclarations (tokens ++ [token]) =
      if (firstDeclarations tokens).any fun first => token.name == first.name
      then firstDeclarations tokens
      else firstDeclarations tokens ++ [token] := by
  unfold firstDeclarations
  rw [List.filter_append, List.filter_cons_of_pos declares, List.filter_nil,
    eraseDupsBy_concat]

theorem of_mem_firstDeclarations (member : token ∈ firstDeclarations tokens) :
    token ∈ tokens ∧ token.isDeclaration :=
  List.mem_filter.mp (mem_of_mem_eraseDupsBy member)

theorem exists_firstDeclaration (member : token ∈ tokens)
    (declares : token.isDeclaration) :
    ∃ first ∈ firstDeclarations tokens, first.name = token.name := by
  induction tokens using List.reverseRecOn with
  | nil => nomatch member
  | append_singleton front last induction =>
      have kept : ∀ first ∈ firstDeclarations front,
          first ∈ firstDeclarations (front ++ [last]) := by
        intro first among
        cases last_declares : last.isDeclaration with
        | false => rwa [firstDeclarations_concat_reference last_declares]
        | true =>
            rw [firstDeclarations_concat last_declares]
            split
            · exact among
            · exact List.mem_append_left _ among
      rcases List.mem_append.mp member with among | here
      · obtain ⟨first, found, same⟩ := induction among
        exact ⟨first, kept first found, same⟩
      · obtain rfl := List.mem_singleton.mp here
        by_cases known : (firstDeclarations front).any
            fun first => token.name == first.name
        · obtain ⟨first, found, same⟩ := List.any_eq_true.mp known
          exact ⟨first, kept first found, (beq_iff_eq.mp same).symm⟩
        · refine ⟨token, ?_, rfl⟩
          rw [firstDeclarations_concat declares, if_neg known]
          exact List.mem_concat_self

theorem nodup_name_firstDeclarations (tokens : List Token) :
    ((firstDeclarations tokens).map Token.name).Nodup := by
  induction tokens using List.reverseRecOn with
  | nil => exact .nil
  | append_singleton front last induction =>
      cases declares : last.isDeclaration with
      | false => rwa [firstDeclarations_concat_reference declares]
      | true =>
          rw [firstDeclarations_concat declares]
          split
          · exact induction
          · next unknown =>
              rw [List.map_append, List.nodup_append]
              refine ⟨induction, List.pairwise_singleton _ _, ?_⟩
              intro name known other here same
              obtain ⟨first, among, rfl⟩ := List.mem_map.mp known
              obtain rfl := List.mem_singleton.mp here
              exact unknown (List.any_eq_true.mpr
                ⟨first, among, beq_iff_eq.mpr same.symm⟩)

end FirstDeclarations

namespace Symbol

def place (symbol : Symbol) : Position :=
  ⟨symbol.line, symbol.column⟩

/-- The symbol is what the token, a declaration, declares. -/
structure MadeBy (symbol : Symbol) (token : Token) : Prop
    extends symbol.DeclaredBy token where
  kind : symbol.kind = token.kind
  modifiers : symbol.modifiers = token.modifiers.withoutDeclaration

theorem MadeBy.place_eq {symbol : Symbol} {token : Token}
    (made : symbol.MadeBy token) : symbol.place = token.start := by
  rw [place, Token.start, made.line, made.column]

theorem map_name_of_made {symbols : List Symbol} {tokens : List Token}
    (made : List.Forall₂ MadeBy symbols tokens) :
    symbols.map name = tokens.map Token.name := by
  induction made with
  | nil => rfl
  | cons first _ induction =>
      rw [List.map_cons, List.map_cons, induction, first.name]
      rfl

theorem exists_of_made {symbols : List Symbol} {tokens : List Token}
    (made : List.Forall₂ MadeBy symbols tokens) {symbol : Symbol}
    (member : symbol ∈ symbols) : ∃ token ∈ tokens, symbol.MadeBy token := by
  obtain ⟨index, bound, rfl⟩ := List.getElem_of_mem member
  have within := made.length_eq ▸ bound
  exact ⟨_, List.getElem_mem within, made.get bound within⟩

/-- The token refers to the symbol, declared before it. -/
structure ReferredBy (symbol : Symbol) (token : Token) : Prop where
  name : symbol.name = token.name
  kind : token.kind = symbol.kind
  modifiers : token.modifiers = symbol.modifiers
  before : symbol.place < token.start

end Symbol

namespace SymbolTable

theorem contains_of_made {table : SymbolTable} {tokens : List Token}
    (made : List.Forall₂ Symbol.MadeBy table.toList tokens) (name : String) :
    table.contains name = tokens.any fun token => name == token.name := by
  rw [contains_eq_any]
  generalize table.toList = symbols at made
  induction made with
  | nil => rfl
  | cons first _ induction =>
      rw [List.any_cons, List.any_cons, induction, first.name]
      congr 1
      exact Bool.beq_comm

end SymbolTable

namespace Walk

open TokenCursor

/-- What a walk knows about names: the first argument tells whether the current
token is fresh, and then it is not yet classified. -/
structure Precedence (tokens : List Token) (fresh : Bool) (walk : Walk) :
    Prop where
  follows : walk.cursor.Follows tokens
  symbols : List.Forall₂ Symbol.MadeBy walk.symbols.toList
    (firstDeclarations walk.classified.reverse)
  references : ∀ token ∈ walk.classified, token.isDeclaration = false →
    ∃ symbol ∈ walk.symbols.toList, symbol.ReferredBy token
  passed : ∀ token ∈ walk.classified,
    token.start ≤ walk.here ∧ (fresh → token.start < walk.here)
  unknown : ∀ finding ∈ walk.findings,
    finding.cause.code = .unknownIdentifier →
    finding.anchor.start ≤ walk.here ∧
      ∀ token ∈ walk.classified, token.isDeclaration →
        token.name = finding.anchor.name →
        ¬token.start < finding.anchor.start

section Precedence

variable {tokens : List Token} {walk : Walk} {fresh : Bool}
  {current token : Token} {reached : TokenCursor}

theorem Precedence.weaken (knows : Precedence tokens true walk) :
    Precedence tokens false walk where
  follows := knows.follows
  symbols := knows.symbols
  references := knows.references
  passed token member := ⟨(knows.passed token member).1, nofun⟩
  unknown := knows.unknown

theorem Precedence.report {cause : Cause} {anchor : Token}
    (knows : Precedence tokens fresh walk)
    (other : cause.code ≠ .unknownIdentifier) :
    Precedence tokens fresh (walk.report cause anchor) where
  follows := knows.follows
  symbols := knows.symbols
  references := knows.references
  passed := knows.passed
  unknown := List.forall_mem_cons.mpr
    ⟨fun unknown => absurd unknown other, knows.unknown⟩

theorem Precedence.goOn (knows : Precedence tokens false walk)
    (follows : reached.Follows tokens)
    (there : walk.cursor.current? = some current)
    (reached_eq : reached.current? = some token)
    (before : current.Before token) :
    Precedence tokens true (walk.moveTo reached) := by
  have further : walk.here < (walk.moveTo reached).here := by
    rw [here_of_current? there, here_of_current? reached_eq]
    exact before.start_lt
  refine ⟨follows, knows.symbols, knows.references, ?passed, ?unknown⟩
  case passed =>
    intro other member
    have behind := Position.lt_of_le_of_lt (knows.passed other member).1 further
    exact ⟨Position.le_of_lt behind, fun _ => behind⟩
  case unknown =>
    intro finding member unknown
    obtain ⟨behind, first⟩ := knows.unknown finding member unknown
    exact ⟨Position.le_trans behind (Position.le_of_lt further), first⟩

theorem Precedence.made (knows : Precedence tokens fresh walk)
    {symbol : Symbol} (member : symbol ∈ walk.symbols.toList) :
    ∃ token ∈ walk.classified, token.isDeclaration ∧ symbol.MadeBy token := by
  obtain ⟨token, first, made⟩ := Symbol.exists_of_made knows.symbols member
  obtain ⟨among, declares⟩ := of_mem_firstDeclarations first
  exact ⟨token, List.mem_reverse.mp among, declares, made⟩

theorem Precedence.contains (knows : Precedence tokens fresh walk)
    (member : token ∈ walk.classified) (declares : token.isDeclaration) :
    walk.symbols.contains token.name := by
  rw [SymbolTable.contains_of_made knows.symbols, List.any_eq_true]
  obtain ⟨first, among, same⟩ :=
    exists_firstDeclaration (List.mem_reverse.mpr member) declares
  exact ⟨first, among, beq_iff_eq.mpr same.symm⟩

/-- Classifying the current token, along with a table of symbols that takes
this into account. -/
theorem Precedence.classify {table : SymbolTable} {kind : TokenKind}
    {modifiers : Modifiers} (knows : Precedence tokens true walk)
    (there : walk.cursor.current? = some token)
    (symbols : List.Forall₂ Symbol.MadeBy table.toList
      (firstDeclarations
        (walk.classified.reverse ++ [token.reclassify kind modifiers])))
    (kept : ∀ symbol ∈ walk.symbols.toList, symbol ∈ table.toList)
    (refers : modifiers.declaration = false → ∃ symbol ∈ table.toList,
      symbol.ReferredBy (token.reclassify kind modifiers)) :
    Precedence tokens false
      ({ walk with symbols := table }.classify kind modifiers) := by
  have here_eq := here_of_current? there
  have reached :
      ({ walk with symbols := table }.classify kind modifiers).cursor.current? =
        some (token.reclassify kind modifiers) := by
    simp only [Walk.classify, current?_reclassify, there, Option.map_some]
  have same :
      ({ walk with symbols := table }.classify kind modifiers).here =
        walk.here := by
    rw [here_of_current? reached, Token.start_reclassify, here_eq]
  have classified_eq :
      ({ walk with symbols := table }.classify kind modifiers).classified =
        token.reclassify kind modifiers :: walk.classified := by
    simp only [Walk.classify, current?_reclassify, there, Option.map_some,
      Option.toList_some, List.singleton_append]
  refine ⟨knows.follows.reclassify _ _, ?symbols, ?references, ?passed,
    ?unknown⟩
  case symbols =>
    rw [classified_eq, List.reverse_cons]
    exact symbols
  case references =>
    rw [classified_eq]
    refine List.forall_mem_cons.mpr ⟨refers, ?_⟩
    intro other member reference
    obtain ⟨symbol, among, referred⟩ := knows.references other member reference
    exact ⟨symbol, kept symbol among, referred⟩
  case passed =>
    rw [classified_eq, same]
    refine List.forall_mem_cons.mpr ⟨⟨?_, by simp⟩, ?_⟩
    · rw [Token.start_reclassify, here_eq]
      exact Position.le_refl _
    · intro other member
      exact ⟨(knows.passed other member).1, by simp⟩
  case unknown =>
    rw [classified_eq, same]
    intro finding member unknown
    obtain ⟨behind, first⟩ := knows.unknown finding member unknown
    refine ⟨behind, List.forall_mem_cons.mpr ⟨?_, first⟩⟩
    intro _ _
    rw [Token.start_reclassify, ← here_eq]
    exact Position.not_lt.mpr behind

theorem Precedence.refer {symbol : Symbol}
    (knows : Precedence tokens true walk)
    (there : walk.cursor.current? = some token)
    (found : walk.symbols.lookup? token.name = some symbol) :
    Precedence tokens false (walk.classify symbol.kind symbol.modifiers) := by
  obtain ⟨member, named⟩ := SymbolTable.mem_of_lookup? found
  obtain ⟨first, among, -, made⟩ := knows.made member
  have plain : (token.reclassify symbol.kind symbol.modifiers).isDeclaration =
      false := by
    rw [Token.isDeclaration, Token.reclassify, made.modifiers]
    rfl
  refine knows.classify there ?_ (fun _ => id) fun _ => ?_
  · rw [firstDeclarations_concat_reference plain]
    exact knows.symbols
  · refine ⟨symbol, member, named, rfl, rfl, ?_⟩
    rw [made.place_eq, Token.start_reclassify, ← here_of_current? there]
    exact (knows.passed first among).2 rfl

theorem Precedence.reportUnknown (knows : Precedence tokens true walk)
    (there : walk.cursor.current? = some token)
    (absent : walk.symbols.lookup? token.name = none) :
    Precedence tokens true
      (walk.report (.unknownIdentifier walk.symbols.names) token) := by
  refine ⟨knows.follows, knows.symbols, knows.references, knows.passed,
    List.forall_mem_cons.mpr ⟨fun _ => ⟨?_, ?_⟩, knows.unknown⟩⟩
  · rw [← here_of_current? there]
    exact Position.le_refl _
  · intro other member declares same
    have known := knows.contains member declares
    rw [same, SymbolTable.contains, absent] at known
    cases known

theorem Precedence.resolve (knows : Precedence tokens true walk) :
    Precedence tokens false walk.resolve := by
  unfold Walk.resolve
  split
  · exact knows.weaken
  · next token there =>
      split
      · split
        · next symbol found => exact knows.refer there found
        · next absent => exact (knows.reportUnknown there absent).weaken
      · exact .weaken (knows.report nofun)

theorem classify_reportDuplicate (walk : Walk) (registration : Registration)
    (kind : TokenKind) (token : Token) (modifiers : Modifiers) :
    (walk.reportDuplicate registration kind token).classify kind modifiers =
      (walk.classify kind modifiers).reportDuplicate registration kind
        token := by
  unfold Walk.reportDuplicate
  split
  · split <;> rfl
  · rfl

theorem Precedence.reportDuplicate (knows : Precedence tokens fresh walk)
    (registration : Registration) (kind : TokenKind) (token : Token) :
    Precedence tokens fresh
      (walk.reportDuplicate registration kind token) := by
  unfold Walk.reportDuplicate
  split
  · split
    · exact knows
    · exact knows.report nofun
  · exact knows

theorem Precedence.register {kind : TokenKind} {modifiers : Modifiers}
    {symbol : Symbol} (knows : Precedence tokens true walk)
    (there : walk.cursor.current? = some token)
    (declares : (token.reclassify kind modifiers).isDeclaration)
    (made : { symbol with
      modifiers := symbol.modifiers.withoutDeclaration }.MadeBy
        (token.reclassify kind modifiers)) :
    Precedence tokens false
      ({ walk with symbols := (walk.symbols.declare symbol).2 }.classify
        kind modifiers) := by
  have listed := walk.symbols.toList_declare symbol
  have named : symbol.name = (token.reclassify kind modifiers).name := made.name
  rw [SymbolTable.contains_of_made knows.symbols] at listed
  apply knows.classify there
  · rw [firstDeclarations_concat declares, ← named, listed]
    split
    · exact knows.symbols
    · exact List.rel_append knows.symbols (.cons made .nil)
  · intro other member
    rw [listed]
    split
    · exact member
    · exact List.mem_append_left _ member
  · intro reference
    nomatch declares.symm.trans reference

theorem Precedence.declare (knows : Precedence tokens true walk)
    (kind : TokenKind) (modifiers : Modifiers) :
    Precedence tokens false (walk.declare kind modifiers).2 := by
  unfold Walk.declare
  split
  · exact knows.weaken
  · next token there =>
      split
      · next identifier =>
          simp only
          rw [classify_reportDuplicate]
          apply Precedence.reportDuplicate
          refine knows.register there rfl ?_
          exact ⟨⟨rfl, rfl, identifier, rfl⟩, rfl, rfl⟩
      · exact .weaken (knows.report nofun)

theorem invariant_precedence {tokens : List Token}
    (ordered : tokens.Pairwise Token.Before) :
    Invariant (Precedence tokens) where
  weaken := .weaken
  scopes knows := ⟨knows.follows, knows.symbols, knows.references,
    knows.passed, knows.unknown⟩
  next knows next_eq := by
    obtain ⟨current, there⟩ := knows.follows.stands
    exact knows.goOn (knows.follows.next next_eq) there
      (current?_of_next? next_eq).1
      (knows.follows.before_next ordered there next_eq)
  ended knows _ := knows.report nofun
  abandoned knows _ := knows.report nofun
  report := by
    intro walk token cause knows _ other
    apply knows.report
    cases cause with
    | unknownIdentifier known => exact absurd rfl (other known)
    | _ => nofun
  rescue knows found := by
    obtain ⟨current, there⟩ := knows.follows.stands
    obtain ⟨later, reached_eq, before⟩ :=
      knows.follows.before_rescue ordered there found
    exact .weaken (knows.weaken.goOn (knows.follows.rescue found) there
      reached_eq before)
  strings := by
    intro walk knows
    obtain ⟨current, there⟩ := knows.follows.stands
    rcases knows.follows.before_passStrings ordered there with
      same | ⟨later, reached_eq, before⟩
    · rw [Walk.strings, same]
      exact knows.weaken
    · exact .weaken (knows.weaken.goOn knows.follows.passStrings there
        reached_eq before)
  resolve := .resolve
  declare _ knows := knows.declare _ _

theorem precedence_start {tokens : List Token} (some_token : ¬tokens.isEmpty) :
    Precedence tokens true (start tokens) where
  follows := .ofList some_token
  symbols := .nil
  references _ member := absurd member List.not_mem_nil
  passed _ member := absurd member List.not_mem_nil
  unknown _ member := absurd member List.not_mem_nil

end Precedence

end Walk

theorem Visit.result_resolve (visit : Visit) (rule_eq : visit.rule = .resolve)
    (unexhausted : visit.result.1 ≠ .exhausted) :
    visit.result.2 = visit.walk.resolve := by
  obtain ⟨_ | fuel, rule, walk⟩ := visit
  · exact absurd rfl unexhausted
  · cases rule_eq
    rfl

namespace Walk

theorem precedence_document {tokens : List Token}
    (ordered : tokens.Pairwise Token.Before) (some_token : ¬tokens.isEmpty)
    (stop : Walk → Bool) :
    Precedence tokens false (document stop tokens).2 :=
  (invariant_precedence ordered).document stop (precedence_start some_token)

/-- The symbols of a document are the first declarations of each name, and all
references are to them. -/
theorem symbols_document {tokens : List Token}
    (ordered : tokens.Pairwise Token.Before) (stop : Walk → Bool) :
    List.Forall₂ Symbol.MadeBy (document stop tokens).2.symbols.toList
      (firstDeclarations (document stop tokens).2.classified.reverse) ∧
    ∀ token ∈ (document stop tokens).2.classified,
      token.isDeclaration = false →
      ∃ symbol ∈ (document stop tokens).2.symbols.toList,
        symbol.ReferredBy token := by
  by_cases empty : tokens.isEmpty
  · rw [document, if_pos empty]
    exact ⟨.nil, fun _ member => absurd member List.not_mem_nil⟩
  · have ended := precedence_document ordered empty stop
    exact ⟨ended.symbols, ended.references⟩

/-- A name that is looked up is found to be unknown if and only if no token
before it declares the name. -/
theorem unknown_iff {tokens : List Token} {visit : Visit} {token : Token}
    (ordered : tokens.Pairwise Token.Before)
    (member : visit ∈ visits tokens) (rule_eq : visit.rule = .resolve)
    (there : visit.walk.cursor.current? = some token)
    (identifier : Literal.isIdentifier token.text) :
    (∃ finding ∈ (document (fun _ => false) tokens).2.findings,
      finding.cause.code = .unknownIdentifier ∧
        finding.anchor.site = token.site) ↔
    ∀ other ∈ (document (fun _ => false) tokens).2.classified,
      other.isDeclaration → other.name = token.name →
      ¬other.start < token.start := by
  have some_token : ¬tokens.isEmpty := by
    obtain ⟨whole, among, -⟩ := List.mem_flatMap.mp member
    exact (mem_statementVisits among).1
  have ended := precedence_document ordered some_token fun _ => false
  constructor
  · rintro ⟨finding, found, unknown, same⟩ other among declares named
    rw [← Token.start_eq_of_site same]
    refine (ended.unknown finding found unknown).2 other among declares ?_
    rw [named, Token.name, Token.name, (Token.site_eq_iff.mp same).2.2]
  · intro undeclared
    obtain ⟨fresh, speaks, knows⟩ := (invariant_precedence ordered)
      |>.meets_of_mem_visits (precedence_start some_token) member
    rw [rule_eq] at speaks
    obtain rfl : fresh = true := speaks
    have resolved : Grows visit.walk.resolve
        (document (fun _ => false) tokens).2 := by
      rw [← visit.result_resolve rule_eq (unexhausted_of_mem_visits member)]
      exact related_result_of_mem_visits keptBySteps_grows
        (fun _ => .of_eq rfl rfl) grows_settle member
    have absent : visit.walk.symbols.lookup? token.name = none := by
      by_contra known
      obtain ⟨symbol, found⟩ := Option.ne_none_iff_exists'.mp known
      obtain ⟨listed, named⟩ := SymbolTable.mem_of_lookup? found
      obtain ⟨first, among, declares, made⟩ := knows.made listed
      apply undeclared first _ declares
      · rw [← named, made.name]
        rfl
      · rw [← here_of_current? there]
        exact (knows.passed first among).2 rfl
      · have grown := (keptBySteps_grows.resolve visit.walk).trans resolved
        exact grown.classified.mem among
    refine ⟨⟨.unknownIdentifier visit.walk.symbols.names, token⟩, ?_, rfl, rfl⟩
    apply resolved.findings.mem
    unfold Walk.resolve
    rw [Token.name] at absent
    simp only [there, identifier, if_true, absent]
    exact List.mem_cons_self

end Walk

end ComponentLang
