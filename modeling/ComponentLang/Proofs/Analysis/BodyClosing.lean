import ComponentLang.Analysis
import ComponentLang.Proofs.Scan.Kinds
import ComponentLang.Proofs.Scan.Layout
import ComponentLang.Proofs.Walk.Declarations
import ComponentLang.Proofs.Walk.Endings

namespace ComponentLang

open Nesting Walk

namespace Visit

/-- The visit stands on the opening brace of a pair of braces of the document. -/
structure Spans (visit : Visit) (tokens front : List Token) (opening : Token)
    (inner : List Token) (close : Token) (back : List Token) : Prop where
  tokens_eq : tokens = front ++ opening :: inner ++ close :: back
  opens : opening.brace? = some .opening
  nested : isNested inner
  closes : close.brace? = some .closing
  there : ∃ token, visit.walk.cursor.current? = some token ∧
    token.text = opening.text
  behind : visit.walk.cursor.behind = inner ++ close :: back

theorem holds_of_isBody {visit : Visit} (body : visit.isBody) :
    ∃ nonterminal, visit.rule = .call nonterminal ∧ nonterminal.isBraced ∧
      visit.walk.holds (.spelled Operator.leftBrace) := by
  unfold isBody at body
  split at body
  · next nonterminal rule_eq =>
      rw [Bool.and_eq_true] at body
      exact ⟨nonterminal, rule_eq, body.1, body.2⟩
  · nomatch body

theorem exists_spans {tokens : List Token} {visit : Visit}
    (nested : isNested tokens) (operators : BracesAreOperators tokens)
    (member : visit ∈ visits tokens) (body : visit.isBody) :
    ∃ front opening inner close back,
      visit.Spans tokens front opening inner close back := by
  obtain ⟨front, opening, current, tokens_eq, there, text_eq⟩ :=
    standsIn_of_mem_visits member
  obtain ⟨-, -, -, spelled⟩ := holds_of_isBody body
  rw [holds, TokenCursor.holds, there] at spelled
  have opens : opening.brace? = some .opening := by
    rw [operators opening (by simp [tokens_eq]), ← text_eq,
      beq_iff_eq.mp spelled]
    rfl
  rw [tokens_eq] at nested
  obtain ⟨inner, close, back, behind_eq, inner_nested, closes⟩ :=
    exists_partner_of_isNested nested opens
  refine ⟨front, opening, inner, close, back, ?_, opens, inner_nested, closes,
    ⟨current, there, text_eq⟩, behind_eq⟩
  rw [tokens_eq, behind_eq, List.append_assoc, List.cons_append]

section Spans

variable {tokens front inner back : List Token} {opening close : Token}
  {visit : Visit}

theorem Spans.closes_of_orderly
    (spans : visit.Spans tokens front opening inner close back)
    (operators : BracesAreOperators tokens) (member : visit ∈ visits tokens)
    (body : visit.isBody) (orderly : visit.Orderly) :
    visit.result.1 = .finished ∧
      visit.result.2.cursor.ahead = close :: back := by
  have unexhausted := unexhausted_of_mem_visits member
  obtain ⟨fuel, rule, walk⟩ := visit
  obtain ⟨nonterminal, rule_eq, braced, -⟩ := holds_of_isBody body
  obtain rfl : rule = .call nonterminal := rule_eq
  have inside : Inside close back walk := by
    refine ⟨spans.closes, ?_, inner, spans.behind, spans.nested⟩
    intro token among
    have later : token ∈ inner ++ close :: back := spans.behind ▸ among
    apply operators
    rw [spans.tokens_eq, List.append_assoc, List.cons_append]
    exact List.mem_append_right _ (List.mem_cons_of_mem _ later)
  have closing := closes_body fuel braced inside orderly
  have finished := closing.outcome.resolve_right unexhausted
  exact ⟨finished, closing.ahead finished⟩

theorem nameless_of_brace? {token : Token} {brace : Brace}
    (found : token.brace? = some brace) :
    Literal.isIdentifier token.text = false := by
  rw [Token.text_of_brace? found]
  cases brace <;> decide +kernel

theorem Spans.symbols_eq
    (spans : visit.Spans tokens front opening inner close back)
    (member : visit ∈ visits tokens)
    (ahead : visit.result.2.cursor.ahead = close :: back) :
    ∃ late declared early,
      (document (fun _ => false) tokens).2.symbols.declarations =
          late ++ declared ++ early ∧
        (∀ symbol ∈ late, symbol.DeclaredAmong back) ∧
        (∀ symbol ∈ declared, symbol.BelongsTo visit.walk.scopes) ∧
        ∀ symbol ∈ early, symbol.DeclaredAmong front := by
  obtain ⟨before, early, towards⟩ := related_of_mem_visits keptBySteps_leads
    leads_openScope leads_settle member
  obtain ⟨-, declared, recorded, belong⟩ := keptBySteps_records.run
    visit.fuel visit.rule visit.walk (.inl fun _ => trivial)
  obtain ⟨after, late, onwards⟩ := related_result_of_mem_visits
    keptBySteps_leads leads_closeScope leads_settle member
  refine ⟨late, declared, early, ?_, ?_, belong, ?_⟩
  · rw [onwards.symbols, Visit.result, recorded, towards.symbols]
    simp [start]
  · intro symbol among
    have reached := onwards.names symbol among
    have behind_eq := onwards.behind
    simp only [TokenCursor.current?, TokenCursor.behind, ahead] at reached behind_eq
    have later := reached.of_cons (nameless_of_brace? spans.closes)
    rw [List.tail_cons] at behind_eq
    rw [behind_eq]
    exact Symbol.declaredAmong_append_iff.mpr (.inl later)
  · intro symbol among
    have passed_eq : (start tokens).cursor.current?.toList ++ before =
        front ++ [opening] := by
      have behind_eq := towards.behind
      rw [spans.behind] at behind_eq
      have whole : (start tokens).cursor.current?.toList ++ before ++
          (inner ++ close :: back) = tokens := by
        rw [List.append_assoc, ← behind_eq]
        cases tokens <;> rfl
      apply List.append_cancel_right
      rw [whole, spans.tokens_eq, List.append_assoc, List.append_assoc]
      rfl
    have reached := towards.names symbol among
    rw [passed_eq] at reached
    exact reached.of_concat (nameless_of_brace? spans.opens)

theorem not_declaredAmong_both {front back : List Token} {symbol : Symbol}
    (apart : ∀ first ∈ front, ∀ second ∈ back,
      first.line < second.line ∨
        first.line = second.line ∧ first.column < second.column)
    (here : symbol.DeclaredAmong front) : ¬symbol.DeclaredAmong back := by
  rintro ⟨second, second_member, second_declared⟩
  obtain ⟨first, first_member, first_declared⟩ := here
  have places := apart first first_member second second_member
  rw [← first_declared.line, ← first_declared.column, ← second_declared.line,
    ← second_declared.column] at places
  omega

theorem Spans.belongsTo
    (spans : visit.Spans tokens front opening inner close back)
    (ordered : tokens.Pairwise fun first second =>
      first.line < second.line ∨
        first.line = second.line ∧ first.column < second.column)
    (member : visit ∈ visits tokens)
    (ahead : visit.result.2.cursor.ahead = close :: back) {symbol : Symbol}
    (recorded : symbol ∈
      (document (fun _ => false) tokens).2.symbols.declarations)
    (between : symbol.DeclaredAmong inner) :
    symbol.BelongsTo visit.walk.scopes := by
  obtain ⟨late, declared, early, symbols_eq, behind, belong, before⟩ :=
    spans.symbols_eq member ahead
  rw [spans.tokens_eq, List.pairwise_append, List.pairwise_append] at ordered
  obtain ⟨⟨-, -, front_apart⟩, -, back_apart⟩ := ordered
  rw [symbols_eq, List.append_assoc, List.mem_append, List.mem_append] at recorded
  rcases recorded with is_late | is_declared | is_early
  · refine absurd (behind symbol is_late) (not_declaredAmong_both ?_ between)
    intro first first_member second second_member
    exact back_apart first
      (List.mem_append_right _ (List.mem_cons_of_mem _ first_member)) second
      (List.mem_cons_of_mem _ second_member)
  · exact belong symbol is_declared
  · refine absurd between (not_declaredAmong_both ?_ (before symbol is_early))
    intro first first_member second second_member
    exact front_apart first first_member second
      (List.mem_cons_of_mem _ second_member)

end Spans

theorem exists_symbol_of_mem_within {tokens : List Token} {visit part : Visit}
    {name : String} (member : visit ∈ visits tokens)
    (inside : part ∈ visit.within) (defined : part.defined? = some name) :
    ∃ symbol ∈ (document (fun _ => false) tokens).2.symbols.declarations,
      symbol.name = name ∧ symbol.scope = part.walk.scopes.path ∧
        symbol.BelongsTo visit.walk.scopes := by
  have among := mem_visits_of_mem_within member inside
  obtain ⟨symbol, recorded, name_eq, scope_eq⟩ :=
    exists_symbol_of_defined? defined (unexhausted_of_mem_visits among)
  refine ⟨symbol, ?_, name_eq, scope_eq, part.walk.scopes, ?_, scope_eq⟩
  · exact (related_result_of_mem_visits keptBySteps_leads leads_closeScope
      leads_settle among).mem recorded
  · exact related_of_mem_within keptBySteps_nests
      (fun _ _ _ => List.suffix_cons _ _) inside

end Visit

/-- In a text whose braces are nested and where no string is spelled like one, an
orderly body ends with the partner of its opening brace. All that is declared
between the two is recorded under the body's scopes. If all bodies are orderly,
none is found to lack its closing brace at the end of the text. -/
theorem orderly_bodies_closed (text : String)
    (nested : isNested (scan text).tokens)
    (strings : ∀ token ∈ (scan text).tokens, token.kind = .string →
      Brace.ofSpelling? token.text = none) :
    (∀ visit ∈ visits (scan text).tokens, visit.isBody → visit.Orderly →
      ∃ front opening inner close back,
        visit.Spans (scan text).tokens front opening inner close back ∧
        visit.result.1 = .finished ∧
        visit.result.2.cursor.ahead = close :: back ∧
        (∀ symbol ∈ (document (fun _ => false)
            (scan text).tokens).2.symbols.declarations,
          symbol.DeclaredAmong inner → symbol.BelongsTo visit.walk.scopes) ∧
        ∀ part ∈ visit.within, ∀ name, part.defined? = some name →
          ∃ symbol ∈ (document (fun _ => false)
              (scan text).tokens).2.symbols.declarations,
            symbol.name = name ∧ symbol.scope = part.walk.scopes.path ∧
              symbol.BelongsTo visit.walk.scopes) ∧
    ((∀ visit ∈ visits (scan text).tokens, visit.isBody → visit.Orderly) →
      ∀ finding ∈ (document (fun _ => false) (scan text).tokens).2.findings,
        finding.cause ≠ .endOfInput (.oneOf [Operator.rightBrace])) := by
  have operators := Scan.bracesAreOperators_scan strings
  refine ⟨?closed, ?unmissed⟩
  case closed =>
    intro visit member body orderly
    obtain ⟨front, opening, inner, close, back, spans⟩ :=
      Visit.exists_spans nested operators member body
    obtain ⟨finished, ahead⟩ :=
      spans.closes_of_orderly operators member body orderly
    refine ⟨front, opening, inner, close, back, spans, finished, ahead, ?_, ?_⟩
    · intro symbol recorded between
      exact spans.belongsTo (Scan.ordered_scan text) member ahead recorded
        between
    · intro part inside name defined
      exact Visit.exists_symbol_of_mem_within member inside defined
  case unmissed =>
    intro orderly finding found missing
    have ending (visit : Visit) (member : visit ∈ visits (scan text).tokens)
        (body : visit.isBody) : visit.result.1 ≠ .ended := by
      obtain ⟨front, opening, inner, close, back, spans⟩ :=
        Visit.exists_spans nested operators member body
      rw [(spans.closes_of_orderly operators member body
        (orderly visit member body)).1]
      nofun
    exact List.not_mem_nil
      (missesNo_document ending finding found _ missing rfl)

def brokenStatements : String :=
  "module M \x7b\n  x 3 y\n  constant a =\n  enum E \x7b P, Q \x7d\n" ++
    "  constant b = 1\n\x7d\nconstant c = 2\n"

theorem orderly_bodies_closed_brokenStatements :
    isNested (scan brokenStatements).tokens ∧
    (∃ visit ∈ visits (scan brokenStatements).tokens,
      visit.isBody ∧ visit.walk.scopes.path = "M" ∧
        visit.result.1 = .finished ∧
        ∃ symbol ∈ (document (fun _ => false)
            (scan brokenStatements).tokens).2.symbols.declarations,
          symbol.name = "b" ∧ symbol.BelongsTo visit.walk.scopes) ∧
    ∀ finding ∈ (document (fun _ => false)
        (scan brokenStatements).tokens).2.findings,
      finding.cause ≠ .endOfInput (.oneOf [Operator.rightBrace]) := by
  have facts : isNested (scan brokenStatements).tokens ∧
      (∀ token ∈ (scan brokenStatements).tokens,
        token.kind = .string → Brace.ofSpelling? token.text = none) ∧
      (∀ visit ∈ visits (scan brokenStatements).tokens,
        visit.isBody → visit.Orderly) ∧
      ∃ visit ∈ visits (scan brokenStatements).tokens,
        visit.isBody ∧ visit.walk.scopes.path = "M" ∧
          ∃ part ∈ visit.within, part.defined? = some "b" := by
    decide +kernel
  obtain ⟨nested, strings, orderly, defining⟩ := facts
  obtain ⟨closed, unmissed⟩ :=
    orderly_bodies_closed brokenStatements nested strings
  obtain ⟨visit, member, body, path, part, inside, defined⟩ := defining
  obtain ⟨_, _, _, _, _, _, finished, -, -, names⟩ :=
    closed visit member body (orderly visit member body)
  obtain ⟨symbol, recorded, name_eq, -, belongs⟩ :=
    names part inside "b" defined
  exact ⟨nested, ⟨visit, member, body, path, finished, symbol, recorded, name_eq,
    belongs⟩, unmissed orderly⟩

/-- A brace that no statement asks for is passed, and its partner closes the
module. -/
def takenBrace : String :=
  "module M \x7b\nx \x7b \x7d\nconstant a = 1\n\x7d"

/-- The way to the next colon in the line leads over a closing brace. -/
def jumpedBrace : String :=
  "module M \x7b\nstruct S \x7b a x \x7d constant c = [ 3 ] : U8\n\x7d\n"

/-- The list of constants is given up within its braces. -/
def abandonedList : String :=
  "module M \x7b\nenum E \x7b a =\nconstant b = 1 \x7d\nconstant c = 2\n\x7d\n"

/-- Of bodies that are not orderly all this is false: a name between the braces
of a module is recorded in the global scope, or a closing brace is found to be
missing at the end of a text that lacks none. -/
theorem bodies_not_closed :
    (isNested (scan takenBrace).tokens ∧
      ∃ symbol ∈ (analyzeSource {} takenBrace).symbols,
        symbol.name = "a" ∧ symbol.scope = Scope.global.name) ∧
    (isNested (scan jumpedBrace).tokens ∧
      ∃ finding ∈ (document (fun _ => false)
          (scan jumpedBrace).tokens).2.findings,
        finding.cause = .endOfInput (.oneOf [Operator.rightBrace])) ∧
    (isNested (scan abandonedList).tokens ∧
      ∃ symbol ∈ (analyzeSource {} abandonedList).symbols,
        symbol.name = "c" ∧ symbol.scope = Scope.global.name) := by
  decide +kernel

end ComponentLang
