import ComponentLang.Proofs.Symbol.Store
import ComponentLang.Visitor.Run
import ComponentLang.Walk.Reports

namespace ComponentLang

theorem Walk.diagnostics_report (walk : Walk) (cause : Cause) (anchor : Token)
    (options : Options) :
    (walk.report cause anchor).diagnostics options =
      walk.diagnostics options ++ (options.report? ⟨cause, anchor⟩).toList := by
  rw [diagnostics, report, List.reverse_cons, List.filterMap_append,
    List.filterMap_cons]
  cases options.report? ⟨cause, anchor⟩ <;> rfl

/-- The walk in the scope that the name opens, if it opens one. -/
def Walk.entered (walk : Walk) (kind : TokenKind) (name : Option String) :
    Walk :=
  match openedScope kind name with
  | some name => walk.openScope name kind
  | none => walk

namespace Visitor

/-- The visitor knows what the walk knows. It has reported, on top of what was
in its sink, those of the walk's findings that its options ask for. -/
structure Represents (options : Options) (sink : DiagnosticCollector)
    (visitor : Visitor) (walk : Walk) : Prop where
  options_eq : visitor.options = options
  cursor : visitor.cursor = walk.cursor
  scopes : visitor.scopes = walk.scopes
  symbols : visitor.symbols.Represents walk.symbols
  classified : visitor.classified = walk.classified
  resets : visitor.resets = walk.resets
  sink_eq : visitor.sink = (walk.diagnostics options).foldl .report sink

/-- Both ended alike, the one knowing what the other knows. -/
structure Answers (options : Options) (sink : DiagnosticCollector)
    (result : Outcome × Visitor) (answer : Outcome × Walk) : Prop where
  outcome : result.1 = answer.1
  represents : Represents options sink result.2 answer.2

section Steps

variable {options : Options} {sink : DiagnosticCollector} {visitor : Visitor}
  {walk : Walk}

theorem answers_ite {test : Prop} [Decidable test]
    {result other : Outcome × Visitor} {answer opposite : Outcome × Walk}
    (holds : Answers options sink result answer)
    (fails : Answers options sink other opposite) :
    Answers options sink (if test then result else other)
      (if test then answer else opposite) := by
  split
  · exact holds
  · exact fails

theorem need_of_end {expected : Expected}
    (next_eq : visitor.cursor.next? = none) :
    visitor.need expected = visitor.advance expected := by
  rw [need, advance, next_eq]

/-- To go ahead and back again comes to looking ahead. -/
theorem need_of_next? {expected : Expected} {token : Token}
    {cursor : TokenCursor} (next_eq : visitor.cursor.next? = some (token, cursor)) :
    visitor.need expected =
      if expected.accepts token || !visitor.cursor.canResumeAt token then
        (.finished, visitor.moveTo cursor)
      else
        (.abandoned token.line,
          visitor.error (.abandoned expected token.text)
            (if visitor.cursor.isLater token then .marker visitor.cursor.place
            else token)) := by
  have there := (TokenCursor.current?_of_next? next_eq).1
  rw [need, advance, next_eq]
  simp only [moveTo, there]
  rfl

theorem represents_start (options : Options) (sink : DiagnosticCollector)
    (tokens : List Token) :
    Represents options sink (start options sink tokens) (Walk.start tokens) :=
  ⟨rfl, rfl, rfl, SymbolStore.represents_empty, rfl, rfl, rfl⟩

namespace Represents

theorem report (represents : Represents options sink visitor walk)
    (cause : Cause) {severity : Severity}
    (severity_eq : options.severity? cause = some severity) (anchor : Token) :
    Represents options sink (visitor.report severity cause anchor)
      (walk.report cause anchor) := by
  refine { represents with sink_eq := ?_ }
  rw [Walk.diagnostics_report, Options.report?, severity_eq, List.foldl_append,
    ← represents.sink_eq]
  rfl

theorem silent (represents : Represents options sink visitor walk)
    (cause : Cause) (severity_eq : options.severity? cause = none) (anchor : Token) :
    Represents options sink visitor (walk.report cause anchor) := by
  refine { represents with sink_eq := ?_ }
  rw [Walk.diagnostics_report, Options.report?, severity_eq,
    represents.sink_eq]
  exact congrArg _ (List.append_nil _).symm

theorem error (represents : Represents options sink visitor walk)
    {cause : Cause} (severity_eq : options.severity? cause = some .error)
    (anchor : Token) :
    Represents options sink (visitor.error cause anchor)
      (walk.report cause anchor) :=
  represents.report cause severity_eq anchor

theorem moveTo (represents : Represents options sink visitor walk)
    (cursor : TokenCursor) :
    Represents options sink (visitor.moveTo cursor) (walk.moveTo cursor) :=
  { represents with cursor := rfl }

theorem advance (represents : Represents options sink visitor walk)
    (expected : Expected) :
    Answers options sink (visitor.advance expected) (walk.advance expected) := by
  unfold Visitor.advance Walk.advance
  rw [represents.cursor]
  cases walk.cursor.next? with
  | some taken => exact ⟨rfl, represents.moveTo taken.2⟩
  | none => exact ⟨rfl, represents.error rfl _⟩

theorem need (represents : Represents options sink visitor walk)
    (expected : Expected) :
    Answers options sink (visitor.need expected) (walk.need expected) := by
  cases next_eq : walk.cursor.next? with
  | none =>
      have ended := represents.advance expected
      have here : visitor.cursor.next? = none := represents.cursor ▸ next_eq
      rw [Walk.need, next_eq]
      rw [need_of_end here]
      exact ended
  | some taken =>
      obtain ⟨token, cursor⟩ := taken
      have here : visitor.cursor.next? = some (token, cursor) :=
        represents.cursor ▸ next_eq
      rw [need_of_next? here, Walk.need, next_eq, represents.cursor]
      refine answers_ite ?_ ?_
      · exact ⟨rfl, represents.moveTo cursor⟩
      · exact ⟨rfl, represents.error rfl _⟩

theorem rescue (represents : Represents options sink visitor walk)
    (candidates : List Terminal) :
    Represents options sink (visitor.rescue candidates)
      (walk.rescue candidates) := by
  unfold Visitor.rescue Walk.rescue
  rw [represents.cursor]
  cases walk.cursor.rescue? candidates with
  | some cursor => exact represents.moveTo cursor
  | none => exact represents

theorem expect (represents : Represents options sink visitor walk)
    (candidates : List Terminal) :
    Answers options sink (visitor.expect candidates)
      (walk.expect candidates) := by
  have needed := represents.need (.oneOf candidates)
  unfold Visitor.expect Walk.expect
  cases result_eq : visitor.need (.oneOf candidates) with
  | mk outcome after =>
      cases answer_eq : walk.need (.oneOf candidates) with
      | mk other behind =>
          rw [result_eq, answer_eq] at needed
          obtain ⟨rfl, represents⟩ := needed
          cases outcome with
          | finished =>
              dsimp only
              rw [represents.cursor]
              cases behind.cursor.current? with
              | none => exact ⟨rfl, represents⟩
              | some token =>
                  refine answers_ite ⟨rfl, represents⟩ ⟨rfl, ?_⟩
                  exact (represents.error rfl token).rescue candidates
          | _ => exact ⟨rfl, represents⟩

theorem strings (represents : Represents options sink visitor walk) :
    Represents options sink visitor.strings walk.strings := by
  unfold Visitor.strings Walk.strings
  rw [represents.cursor]
  exact represents.moveTo _

theorem classify (represents : Represents options sink visitor walk)
    (kind : TokenKind) (modifiers : Modifiers) :
    Represents options sink (visitor.classify kind modifiers)
      (walk.classify kind modifiers) := by
  refine { represents with cursor := ?_, classified := ?_ }
  · exact congrArg (·.reclassify kind modifiers) represents.cursor
  · simp only [Visitor.classify, Walk.classify, represents.cursor,
      represents.classified]

theorem openScope (represents : Represents options sink visitor walk)
    (name : String) (kind : TokenKind) :
    Represents options sink (visitor.openScope name kind)
      (walk.openScope name kind) :=
  { represents with scopes := congrArg (·.push ⟨name, kind⟩) represents.scopes }

theorem popScope (represents : Represents options sink visitor walk) :
    Represents options sink visitor.popScope walk.closeScope :=
  { represents with scopes := congrArg (·.pop.2) represents.scopes }

theorem settle (represents : Represents options sink visitor walk) :
    Represents options sink visitor.settle walk.settle := by
  unfold Visitor.settle Walk.settle
  rw [represents.scopes]
  split
  · exact represents
  · exact { represents with
      scopes := rfl, resets := congrArg (· + 1) represents.resets }

theorem names_eq (represents : Represents options sink visitor walk) :
    visitor.symbols.names = walk.symbols.names := by
  rw [SymbolStore.names, represents.symbols.listed, SymbolTable.names]

theorem complain (represents : Represents options sink visitor walk)
    (complaint : Complaint) :
    Represents options sink (visitor.complain complaint)
      (walk.complain complaint) := by
  unfold Visitor.complain Walk.complain
  rw [represents.cursor, represents.names_eq]
  cases walk.cursor.current? with
  | none => exact represents
  | some token => cases complaint <;> exact represents.error rfl token

/-- The options decide about a report in the midst of the step, and about
nothing else. -/
theorem resolve (represents : Represents options sink visitor walk) :
    Represents options sink visitor.resolve walk.resolve := by
  unfold Visitor.resolve Walk.resolve
  rw [represents.cursor]
  cases walk.cursor.current? with
  | none => exact represents
  | some token =>
      dsimp only
      split
      · rw [represents.symbols.found, represents.names_eq,
          represents.options_eq]
        cases walk.symbols.lookup? (Literal.nameOf token.text) with
        | some symbol => exact represents.classify symbol.kind symbol.modifiers
        | none =>
            cases severity_eq : options.unknownIdentifiers.severity? with
            | some severity =>
                exact represents.report (.unknownIdentifier walk.symbols.names)
                  severity_eq token
            | none =>
                exact represents.silent (.unknownIdentifier walk.symbols.names)
                  severity_eq token
      · exact represents.error rfl token

theorem refuse (represents : Represents options sink visitor walk)
    (earlier : Symbol) (kind : TokenKind) (token : Token) :
    Represents options sink (visitor.refuse earlier.clash kind token)
      (walk.reportDuplicate (.duplicate earlier) kind token) := by
  simp only [Visitor.refuse, Walk.reportDuplicate]
  change Represents options sink (if earlier.kind == _ && _ then _ else _) _
  split
  · exact represents
  · rw [represents.options_eq]
    cases severity_eq : options.duplicateDeclarations.severity? with
    | some severity =>
        exact represents.report (.duplicateDeclaration earlier.clash)
          severity_eq token
    | none =>
        exact represents.silent (.duplicateDeclaration earlier.clash)
          severity_eq token

/-- What the store answers is reported as the table tells it. -/
theorem register (represents : Represents options sink visitor walk)
    (symbol : Symbol) (token : Token) :
    Represents options sink (visitor.register symbol token)
      (Walk.reportDuplicate
        { walk with symbols := (walk.symbols.declare symbol).2 }
        (walk.symbols.declare symbol).1 symbol.kind token) := by
  obtain ⟨answer, symbols⟩ := represents.symbols.declare symbol
  have declared : Represents options sink
      { visitor with symbols := (visitor.symbols.declare symbol).2 }
      { walk with symbols := (walk.symbols.declare symbol).2 } :=
    { represents with symbols }
  unfold Visitor.register
  dsimp only
  rw [answer]
  cases (walk.symbols.declare symbol).1 with
  | added | elsewhere => exact declared
  | duplicate earlier => exact declared.refuse earlier symbol.kind token

end Represents

/-- The definition tells the name and whether that opened a scope, in which the
visitor is now. -/
structure Defines (options : Options) (sink : DiagnosticCollector)
    (kind : TokenKind) (defined : DefinedName × Visitor)
    (declared : Option String × Walk) : Prop where
  definition_eq : defined.1 =
    ⟨declared.1, (Walk.openedScope kind declared.1).isSome⟩
  represents : Represents options sink defined.2
    (declared.2.entered kind declared.1)

theorem Represents.defines_nothing
    (represents : Represents options sink visitor walk) (kind : TokenKind) :
    Defines options sink kind ({}, visitor) (none, walk) := by
  have closed : Walk.openedScope kind none = none := by
    unfold Walk.openedScope
    split <;> rfl
  refine ⟨?_, ?_⟩
  · simp only [closed]
    rfl
  · simp only [Walk.entered, closed]
    exact represents

theorem Represents.declare (represents : Represents options sink visitor walk)
    (kind : TokenKind) (modifiers : Modifiers) :
    Defines options sink kind (visitor.declare kind modifiers)
      (walk.declare kind modifiers) := by
  have current_eq : visitor.cursor.current? = walk.cursor.current? :=
    congrArg TokenCursor.current? represents.cursor
  have path_eq : visitor.scopes.path = walk.scopes.path :=
    congrArg ScopeStack.path represents.scopes
  unfold Visitor.declare Walk.declare
  rw [current_eq, path_eq]
  cases walk.cursor.current? with
  | none => exact represents.defines_nothing kind
  | some token =>
      dsimp only
      split
      · refine ⟨?_, ?_⟩
        · simp only [Walk.openedScope]
          cases kind.opensScope <;> rfl
        · simp only [Walk.entered, Walk.openedScope]
          split
          · exact ((represents.register _ token).classify kind _).openScope _ kind
          · exact (represents.register _ token).classify kind _
      · exact (represents.error rfl token).defines_nothing kind

theorem Represents.define (represents : Represents options sink visitor walk)
    (kind : TokenKind) (modifiers : Modifiers) :
    ∃ outcome defined declared,
      visitor.define kind modifiers = (outcome, defined) ∧
        walk.define kind modifiers = (outcome, declared) ∧
          Defines options sink kind defined declared := by
  have needed := represents.need .identifier
  unfold Visitor.define Walk.define
  cases result_eq : visitor.need .identifier with
  | mk outcome after =>
      cases answer_eq : walk.need .identifier with
      | mk other behind =>
          rw [result_eq, answer_eq] at needed
          obtain ⟨rfl, represents⟩ := needed
          cases outcome with
          | finished =>
              exact ⟨_, _, _, rfl, rfl, represents.declare kind modifiers⟩
          | _ => exact ⟨_, _, _, rfl, rfl, represents.defines_nothing kind⟩

end Steps

end Visitor

end ComponentLang
