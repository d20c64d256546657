import ComponentLang.Proofs.Symbol.Occurrences
import ComponentLang.Proofs.Walk.Declarations

namespace ComponentLang

def Finding.isDuplicate (finding : Finding) : Bool :=
  finding.cause.code == .duplicateDeclaration

namespace Walk

/-- The defining occurrence at the next token, if it is taken as a name and can
be one. -/
def occurrence? (walk : Walk) (kind : TokenKind) (modifiers : Modifiers) :
    Option Occurrence :=
  match walk.need .identifier with
  | (.finished, taken) =>
      (taken.cursor.current?.filter fun token =>
        Literal.isIdentifier token.text).map fun token =>
          ⟨token, kind, modifiers, walk.scopes.names⟩
  | _ => none

end Walk

namespace Visit

def occurrence? (visit : Visit) : Option Occurrence :=
  match visit with
  | ⟨_ + 1, .define kind modifiers _, walk⟩
  | ⟨_ + 1, .signature kind modifiers, walk⟩ =>
      walk.occurrence? kind modifiers
  | _ => none

/-- Where names are defined within the visit. -/
def occurrences (visit : Visit) : List Occurrence :=
  visit.within.filterMap occurrence?

theorem occurrences_eq (visit : Visit) :
    visit.occurrences =
      visit.occurrence?.toList ++ visit.parts.flatMap occurrences := by
  rw [occurrences, within_eq, List.filterMap_cons, List.filterMap_flatMap]
  cases visit.occurrence? <;> rfl

end Visit

namespace Walk

def occurrences (tokens : List Token) : List Occurrence :=
  (visits tokens).filterMap Visit.occurrence?

open TokenCursor

/-! What a part of a walk adds. -/

/-- On the way from one state of a walk to the other, names are defined at some
of the tokens that are passed there. -/
structure Defines (before after : Walk) (occurrences : List Occurrence) :
    Prop where
  symbols : after.symbols =
    before.symbols.declareAll (occurrences.map Occurrence.symbol)
  found : after.findings.filter Finding.isDuplicate =
    (before.symbols.duplicates occurrences).reverse ++
      before.findings.filter Finding.isDuplicate
  passed : ∃ passed, before.cursor.behind = passed ++ after.cursor.behind ∧
    (occurrences.map Occurrence.token).Sublist passed

namespace Defines

variable {first second third : Walk} {front back : List Occurrence}

theorem trans (before : Defines first second front) (after : Defines second third back) :
    Defines first third (front ++ back) where
  symbols := by
    rw [after.symbols, before.symbols, List.map_append,
      SymbolTable.declareAll_append]
  found := by
    rw [after.found, before.found, before.symbols,
      SymbolTable.duplicates_append, List.reverse_append, List.append_assoc]
  passed := by
    obtain ⟨passed, behind_eq, among⟩ := before.passed
    obtain ⟨further, further_eq, later⟩ := after.passed
    refine ⟨passed ++ further, ?_, ?_⟩
    · rw [behind_eq, further_eq, List.append_assoc]
    · rw [List.map_append]
      exact among.append later

theorem of_quiet {before after : Walk} (symbols : after.symbols = before.symbols)
    (found : after.findings.filter Finding.isDuplicate =
      before.findings.filter Finding.isDuplicate)
    (leads : Leads before after) : Defines before after [] where
  symbols := symbols
  found := found
  passed := by
    obtain ⟨passed, _, between⟩ := leads
    exact ⟨passed, between.behind, List.nil_sublist _⟩

theorem refl (walk : Walk) : Defines walk walk [] :=
  of_quiet rfl rfl (.refl walk)

theorem trans_quiet (before : Defines first second front)
    (after : Defines second third []) :
    Defines first third front := by
  have whole := before.trans after
  rwa [List.append_nil] at whole

end Defines

section Quiet

/-! Steps that define nothing. -/

theorem defines_report (walk : Walk) {cause : Cause} (anchor : Token)
    (other : (cause.code == .duplicateDeclaration) = false) :
    Defines walk (walk.report cause anchor) [] := by
  refine .of_quiet rfl ?_ (.of_still rfl rfl rfl)
  exact List.filter_cons_of_neg (by simpa [Finding.isDuplicate] using other)

theorem defines_next {walk : Walk} {token : Token} {reached : TokenCursor}
    (found : walk.cursor.next? = some (token, reached)) :
    Defines walk (walk.moveTo reached) [] :=
  .of_quiet rfl rfl (keptBySteps_leads.next found)

theorem defines_take {walk : Walk} {candidates : List Terminal}
    {terminal : Terminal} {reached : TokenCursor}
    (found : walk.cursor.take? candidates = some (terminal, reached)) :
    Defines walk (walk.moveTo reached) [] :=
  .of_quiet rfl rfl (keptBySteps_leads.take found)

theorem defines_advance (walk : Walk) (expected : Expected) :
    Defines walk (walk.advance expected).2 [] := by
  unfold advance
  split
  · next next_eq => exact defines_next next_eq
  · exact defines_report _ _ rfl

theorem defines_need (walk : Walk) (expected : Expected) :
    Defines walk (walk.need expected).2 [] := by
  unfold need
  split
  · exact defines_advance walk expected
  · next next_eq =>
      split
      · exact defines_next next_eq
      · exact defines_report _ _ rfl

theorem defines_rescue (walk : Walk) (candidates : List Terminal) :
    Defines walk (walk.rescue candidates) [] := by
  unfold rescue
  split
  · next found => exact .of_quiet rfl rfl (keptBySteps_leads.rescue found)
  · exact .refl walk

theorem defines_expect (walk : Walk) (candidates : List Terminal) :
    Defines walk (walk.expect candidates).2 [] := by
  have needed := defines_need walk (.oneOf candidates)
  unfold expect
  split
  · next after need_eq =>
      rw [need_eq] at needed
      split
      · exact needed
      · split
        · exact needed
        · apply needed.trans
          exact (defines_report _ _ rfl).trans (defines_rescue _ _)
  · exact needed

theorem defines_complain (walk : Walk) (complaint : Complaint) :
    Defines walk (walk.complain complaint) [] := by
  unfold complain
  split
  · exact .refl walk
  · cases complaint <;> exact defines_report _ _ rfl

theorem defines_classify (walk : Walk) (kind : TokenKind)
    (modifiers : Modifiers) : Defines walk (walk.classify kind modifiers) [] :=
  .of_quiet rfl rfl (.classify walk kind modifiers)

theorem defines_resolve (walk : Walk) : Defines walk walk.resolve [] := by
  unfold resolve
  split
  · exact .refl walk
  · split
    · split
      · exact defines_classify _ _ _
      · exact defines_report _ _ rfl
    · exact defines_report _ _ rfl

theorem defines_strings (walk : Walk) : Defines walk walk.strings [] :=
  .of_quiet rfl rfl (.passStrings walk)

theorem defines_openScope (walk : Walk) (name : String) (kind : TokenKind) :
    Defines walk (walk.openScope name kind) [] :=
  .of_quiet rfl rfl (leads_openScope walk name kind)

theorem defines_closeScope (walk : Walk) : Defines walk walk.closeScope [] :=
  .of_quiet rfl rfl (leads_closeScope walk)

theorem defines_settle (walk : Walk) : Defines walk walk.settle [] := by
  refine .of_quiet ?_ ?_ (leads_settle walk)
  all_goals
    unfold settle
    split <;> rfl

end Quiet

/-! A step that defines something. -/

theorem findings_reportDuplicate_declare (walk : Walk) (table : SymbolTable)
    (occurrence : Occurrence) :
    (walk.reportDuplicate (table.declare occurrence.symbol).1 occurrence.kind
      occurrence.token).findings =
        (table.duplicate? occurrence).toList ++ walk.findings := by
  unfold reportDuplicate SymbolTable.duplicate?
  cases (table.declare occurrence.symbol).1 with
  | duplicate earlier =>
      dsimp only
      split <;> rfl
  | _ => rfl

theorem filter_duplicate? (table : SymbolTable) (occurrence : Occurrence) :
    (table.duplicate? occurrence).toList.filter Finding.isDuplicate =
      (table.duplicate? occurrence).toList := by
  unfold SymbolTable.duplicate?
  split
  · split <;> rfl
  · rfl

theorem defines_declare {walk : Walk} {token : Token} {reached : TokenCursor}
    (found : walk.cursor.next? = some (token, reached))
    (identifier : Literal.isIdentifier token.text) (kind : TokenKind)
    (modifiers : Modifiers) :
    Defines walk ((walk.moveTo reached).declare kind modifiers).2
      [⟨token, kind, modifiers, walk.scopes.names⟩] := by
  have there := (current?_of_next? found).1
  obtain ⟨skipped, behind_eq, -⟩ := behind_of_next? found
  let occurrence : Occurrence := ⟨token, kind, modifiers, walk.scopes.names⟩
  have found_eq : (walk.symbols.duplicates [occurrence]).reverse =
      (walk.symbols.duplicate? occurrence).toList := by
    rw [SymbolTable.duplicates, SymbolTable.duplicates, List.append_nil]
    cases walk.symbols.duplicate? occurrence <;> rfl
  have behind_eq' := behind_declare (walk.moveTo reached) kind modifiers
  unfold declare at behind_eq' ⊢
  simp only [moveTo, there, identifier, if_true] at behind_eq' ⊢
  rw [ScopeStack.path_eq] at behind_eq' ⊢
  refine ⟨?_, ?_, skipped ++ [token], ?_, ?_⟩
  · exact symbols_reportDuplicate _ _ _ _
  · rw [found_eq, ← filter_duplicate?, ← List.filter_append]
    exact congrArg (List.filter _)
      (findings_reportDuplicate_declare _ walk.symbols occurrence)
  · rw [behind_eq, behind_eq', List.append_assoc]
    rfl
  · exact List.sublist_append_right _ _

theorem defines_define (walk : Walk) (kind : TokenKind)
    (modifiers : Modifiers) :
    Defines walk (walk.define kind modifiers).2.2
      (walk.occurrence? kind modifiers).toList := by
  have needed := defines_need walk .identifier
  unfold define occurrence?
  cases need_eq : walk.need .identifier with
  | mk outcome taken =>
      rw [need_eq] at needed
      cases outcome with
      | finished =>
          obtain ⟨token, reached, next_eq, rfl⟩ := next?_of_need need_eq
          have there := (current?_of_next? next_eq).1
          simp only [moveTo, there, Option.filter_some]
          cases identifier : Literal.isIdentifier token.text with
          | true => exact defines_declare next_eq identifier kind modifiers
          | false =>
              have invalid : Defines (walk.moveTo reached)
                  ((walk.moveTo reached).report .invalidIdentifier token) [] :=
                defines_report _ token rfl
              have nameless : ((walk.moveTo reached).declare kind
                  modifiers).2 =
                    (walk.moveTo reached).report .invalidIdentifier token := by
                simp only [declare, moveTo, there, identifier]
                rfl
              rw [← nameless] at invalid
              exact needed.trans invalid
      | _ => exact needed

end Walk

namespace Visit

open Walk

/-! What a visit adds. -/

section Parts

variable {fuel : Nat} (later : ∀ rule walk,
  Defines walk (run fuel rule walk).2 (occurrences ⟨fuel, rule, walk⟩))
include later

theorem defines_run_define (kind : TokenKind) (modifiers : Modifiers)
    (body : Rule) (walk : Walk) :
    Defines walk (run (fuel + 1) (.define kind modifiers body) walk).2
      (occurrences ⟨fuel + 1, .define kind modifiers body, walk⟩) := by
  have named := defines_define walk kind modifiers
  rw [occurrences_eq]
  simp only [run, parts, occurrence?]
  cases define_eq : walk.define kind modifiers with
  | mk outcome answer =>
      obtain ⟨name, after⟩ := answer
      rw [define_eq] at named
      cases outcome with
      | finished =>
          dsimp only
          cases openedScope kind name with
          | some scope =>
              have inner := later body (after.openScope scope kind)
              have whole := ((named.trans_quiet
                (defines_openScope after scope kind)).trans inner).trans_quiet
                  (defines_closeScope _)
              simpa using whole
          | none => simpa using named.trans (later body after)
      | _ => simpa using named

theorem defines_run_signature (kind : TokenKind) (modifiers : Modifiers)
    (walk : Walk) :
    Defines walk (run (fuel + 1) (.signature kind modifiers) walk).2
      (occurrences ⟨fuel + 1, .signature kind modifiers, walk⟩) := by
  have named := defines_define walk kind modifiers
  rw [occurrences_eq]
  simp only [run, parts, occurrence?]
  cases define_eq : walk.define kind modifiers with
  | mk outcome answer =>
      obtain ⟨name, after⟩ := answer
      rw [define_eq] at named
      cases outcome with
      | finished =>
          dsimp only
          cases take_eq : after.cursor.take? [Operator.leftParen] with
          | some taken =>
              have opened := (defines_take take_eq).trans
                (defines_openScope _ (parameterScope name) .nil)
              have inner := later (.call .parameters)
                ((after.moveTo taken.2).openScope (parameterScope name) .nil)
              have whole := ((named.trans_quiet opened).trans inner).trans_quiet
                (defines_closeScope _)
              simpa using whole
          | none => simpa using named
      | _ => simpa using named

theorem defines_run_recover (resumption : Resumption)
    (body next resumed : Rule) (walk : Walk) :
    Defines walk (run (fuel + 1) (.recover resumption body next resumed) walk).2
      (occurrences ⟨fuel + 1, .recover resumption body next resumed, walk⟩) := by
  have front := later body walk
  rw [occurrences_eq]
  simp only [run, parts, occurrence?]
  cases run_eq : run fuel body walk with
  | mk outcome after =>
      rw [run_eq] at front
      cases outcome with
      | finished => simpa using front.trans (later next after)
      | abandoned line =>
          dsimp only
          cases after.resumes resumption with
          | true => simpa using front.trans (later resumed after)
          | false => simpa using front
      | _ => simpa using front

end Parts

/-- A rule adds the symbols of the names that are defined within the visit, and
finds the duplicates among them. -/
theorem defines_run (fuel : Nat) (rule : Rule) (walk : Walk) :
    Defines walk (run fuel rule walk).2 (occurrences ⟨fuel, rule, walk⟩) := by
  induction fuel generalizing rule walk with
  | zero => exact .refl walk
  | succ fuel later =>
      cases rule with
      | define kind modifiers body =>
          exact defines_run_define later kind modifiers body walk
      | signature kind modifiers =>
          exact defines_run_signature later kind modifiers walk
      | recover resumption body next resumed =>
          exact defines_run_recover later resumption body next resumed walk
      | need expected => exact defines_need walk expected
      | expect candidates => exact defines_expect walk candidates
      | advance => exact defines_advance walk _
      | complain complaint => exact defines_complain walk complaint
      | strings => exact defines_strings walk
      | resolve => exact defines_resolve walk
      | done => exact .refl walk
      | seq first next =>
          have front := later first walk
          rw [occurrences_eq]
          simp only [run, parts, occurrence?]
          cases run_eq : run fuel first walk with
          | mk outcome after =>
              rw [run_eq] at front
              cases outcome with
              | finished => simpa using front.trans (later next after)
              | _ => simpa using front
      | accept candidates found missing =>
          rw [occurrences_eq]
          simp only [run, parts, occurrence?]
          cases take_eq : walk.cursor.take? candidates with
          | none => simpa using later missing walk
          | some taken =>
              simpa using (defines_take take_eq).trans
                (later found (walk.moveTo taken.2))
      | branch test holds fails =>
          rw [occurrences_eq]
          simp only [run, parts, occurrence?]
          cases walk.holds test with
          | true => simpa using later holds walk
          | false => simpa using later fails walk
      | statement block =>
          rw [occurrences_eq]
          simp only [run, parts, occurrence?]
          cases walk.beginning block with
          | nothing => exact .refl walk
          | statement statement => simpa using later statement.rule walk
          | unexpected => exact defines_complain walk .unexpectedToken
      | call nonterminal =>
          rw [occurrences_eq]
          simpa [parts, occurrence?, run] using later nonterminal.rule walk

end Visit

namespace Walk

theorem occurrences_eq_flatMap (tokens : List Token) :
    occurrences tokens = (statementVisits tokens).flatMap Visit.occurrences := by
  rw [occurrences, visits, List.filterMap_flatMap]
  rfl

theorem defines_statements (steps fuel : Nat) (walk : Walk) :
    Defines walk (statements (fun _ => false) steps fuel walk).2
      ((statementStarts steps fuel walk).flatMap fun first =>
        Visit.occurrences ⟨steps, .statement .document, first⟩) := by
  induction fuel generalizing walk with
  | zero => exact .refl walk
  | succ fuel induction =>
      have here := Visit.defines_run steps (.statement .document) walk
      rw [statements, if_neg Bool.false_ne_true, statementStarts,
        List.flatMap_cons]
      cases run_eq : run steps (.statement .document) walk with
      | mk outcome after =>
          rw [run_eq] at here
          have settled := here.trans_quiet (defines_settle after)
          cases outcome with
          | ended => simpa using settled
          | _ =>
              dsimp only
              cases next_eq : after.settle.cursor.next? with
              | none => simpa using settled
              | some found =>
                  have gone := settled.trans_quiet (defines_next next_eq)
                  exact gone.trans (induction (after.settle.moveTo found.2))

/-- The names defined in a document are its symbols, and the duplicates that are
found are those among them. -/
theorem defines_document (tokens : List Token) :
    Defines (start tokens) (document (fun _ => false) tokens).2
      (occurrences tokens) := by
  rw [occurrences_eq_flatMap, document, statementVisits]
  cases tokens with
  | nil => exact .refl _
  | cons first others =>
      rw [List.isEmpty_cons, if_neg Bool.false_ne_true,
        if_neg Bool.false_ne_true, List.flatMap_map]
      exact defines_statements _ _ _

/-! The names of open scopes. -/

def IsScoped (walk : Walk) : Prop :=
  ∀ scope ∈ walk.scopes.inner, IsScopeName scope.name

theorem IsScoped.of_balanced {before after : Walk}
    (balanced : Balanced before after) (known : before.IsScoped) :
    after.IsScoped := by
  rw [IsScoped, balanced.inner]
  exact known

theorem IsScoped.openScope {walk : Walk} {name : String}
    (known : walk.IsScoped) (valid : IsScopeName name) (kind : TokenKind) :
    (walk.openScope name kind).IsScoped :=
  List.forall_mem_cons.mpr ⟨valid, known⟩

theorem isScopeName_of_declare {walk after : Walk} {kind : TokenKind}
    {modifiers : Modifiers} {name : String}
    (declared : walk.declare kind modifiers = (some name, after)) :
    IsScopeName name := by
  unfold declare at declared
  split at declared
  · cases declared
  · split at declared
    · next identifier =>
        cases declared
        exact isScopeName_of_isPlainName (Literal.isPlainName_nameOf identifier)
    · cases declared

theorem isScopeName_of_define {walk after : Walk} {kind : TokenKind}
    {modifiers : Modifiers} {outcome : Outcome} {answer : Option String}
    (defined : walk.define kind modifiers = (outcome, answer, after)) :
    ∀ name ∈ answer, IsScopeName name := by
  rintro name rfl
  unfold define at defined
  split at defined
  · exact isScopeName_of_declare (Prod.mk.inj defined).2
  · cases defined

theorem balanced_define {walk after : Walk} {kind : TokenKind}
    {modifiers : Modifiers} {outcome : Outcome} {answer : Option String}
    (defined : walk.define kind modifiers = (outcome, answer, after)) :
    Balanced walk after := by
  have kept := keptBySteps_balanced.define walk kind modifiers (.inl trivial)
  rwa [defined] at kept

theorem name_of_openedScope {kind : TokenKind} {answer : Option String}
    {scope : String} (opens : openedScope kind answer = some scope) :
    answer = some scope := by
  unfold openedScope at opens
  split at opens
  · exact opens
  · cases opens

theorem isScoped_of_part {visit part : Visit} (member : part ∈ visit.parts)
    (known : visit.walk.IsScoped) : part.walk.IsScoped := by
  have ran {fuel : Nat} {rule : Rule} {walk after : Walk} {outcome : Outcome}
      (run_eq : run fuel rule walk = (outcome, after))
      (known : walk.IsScoped) : after.IsScoped := by
    have kept := balanced_run fuel rule walk
    rw [run_eq] at kept
    exact known.of_balanced kept
  cases Visit.Part.of_mem member with
  | next finished => exact ran finished known
  | further finished => exact ran finished known
  | resumed abandoned _ => exact ran abandoned known
  | opening defined opens =>
      apply (known.of_balanced (balanced_define defined)).openScope
      exact isScopeName_of_define defined _ (name_of_openedScope opens)
  | plain defined _ => exact known.of_balanced (balanced_define defined)
  | signature defined taken =>
      have moved := (balanced_define defined).trans
        (keptBySteps_balanced.take taken)
      apply (known.of_balanced moved).openScope
      exact isScopeName_parameterScope (isScopeName_of_define defined)
  | _ => exact known

theorem inner_of_mem_statementStarts {steps fuel : Nat} {walk first : Walk}
    (global : walk.scopes.inner = [])
    (member : first ∈ statementStarts steps fuel walk) :
    first.scopes.inner = [] := by
  induction fuel generalizing walk with
  | zero => cases member
  | succ fuel induction =>
      rcases List.mem_cons.mp member with rfl | later
      · exact global
      · split at later
        · cases later
        · next after _ _ =>
            split at later
            · refine induction ?_ later
              exact inner_settle after
            · cases later

theorem isScoped_of_mem_visits {tokens : List Token} {visit : Visit}
    (member : visit ∈ visits tokens) : visit.walk.IsScoped := by
  obtain ⟨whole, among, inside⟩ := List.mem_flatMap.mp member
  obtain ⟨-, -, -, begins⟩ := mem_statementVisits among
  have global := inner_of_mem_statementStarts rfl begins
  have outer : whole.walk.IsScoped := by
    rw [IsScoped, global]
    exact List.forall_mem_nil _
  have handed : ∀ visit : Visit, visit.walk.IsScoped →
      ∀ part ∈ visit.parts, part.walk.IsScoped :=
    fun _ known _ here => isScoped_of_part here known
  exact Visit.of_mem_within handed inside outer

theorem exists_of_occurrence? {walk : Walk} {kind : TokenKind}
    {modifiers : Modifiers} {occurrence : Occurrence}
    (found : walk.occurrence? kind modifiers = some occurrence) :
    ∃ token taken, walk.need .identifier = (.finished, taken) ∧
      taken.cursor.current? = some token ∧
      Literal.isIdentifier token.text ∧
      occurrence = ⟨token, kind, modifiers, walk.scopes.names⟩ := by
  unfold occurrence? at found
  split at found
  · next taken need_eq =>
      obtain ⟨token, token_eq, rfl⟩ := Option.map_eq_some_iff.mp found
      obtain ⟨there, identifier⟩ := Option.filter_eq_some_iff.mp token_eq
      exact ⟨token, taken, need_eq, there, identifier, rfl⟩
  · cases found

theorem isScopeName_of_mem_occurrences {tokens : List Token}
    {occurrence : Occurrence} (member : occurrence ∈ occurrences tokens) :
    ∀ name ∈ occurrence.scopes, IsScopeName name := by
  obtain ⟨visit, among, found⟩ := List.mem_filterMap.mp member
  have known := isScoped_of_mem_visits among
  have scopes_eq : occurrence.scopes = visit.walk.scopes.names := by
    unfold Visit.occurrence? at found
    split at found
    · obtain ⟨token, taken, -, -, -, rfl⟩ := exists_of_occurrence? found
      rfl
    · obtain ⟨token, taken, -, -, -, rfl⟩ := exists_of_occurrence? found
      rfl
    · cases found
  rw [scopes_eq, ScopeStack.names, List.forall_mem_map]
  exact fun scope within => known scope (List.mem_reverse.mp within)

/-- The duplicates that are found in a document, in their order. -/
theorem filter_findings_document (tokens : List Token) :
    (document (fun _ => false) tokens).2.findings.reverse.filter
        Finding.isDuplicate =
      (Occurrence.duplicates (occurrences tokens)).map Occurrence.finding := by
  have found := (defines_document tokens).found
  have named : ∀ other ∈ [] ++ occurrences tokens,
      ∀ name ∈ other.scopes, IsScopeName name :=
    fun other member => isScopeName_of_mem_occurrences member
  have duplicates_eq := Occurrence.duplicates_eq named
  rw [List.filter_reverse, found]
  change ((SymbolTable.duplicates {} (occurrences tokens)).reverse ++
    []).reverse = _
  rw [List.append_nil, List.reverse_reverse]
  exact duplicates_eq

/-- Names are defined at tokens of the document, in their order. -/
theorem occurrences_sublist (tokens : List Token) :
    ((occurrences tokens).map Occurrence.token).Sublist tokens := by
  obtain ⟨passed, behind_eq, among⟩ := (defines_document tokens).passed
  have within : passed.Sublist tokens.tail := by
    have all : tokens.tail = passed ++ _ := behind_eq
    rw [all]
    exact List.sublist_append_left _ _
  exact among.trans (within.trans (List.tail_sublist tokens))

end Walk

end ComponentLang
