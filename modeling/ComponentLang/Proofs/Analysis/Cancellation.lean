import ComponentLang.Proofs.Analysis.SameReading
import ComponentLang.Proofs.Walk.Stopping

namespace ComponentLang

open Walk

/-- Whether a flag is raised that goes up at the report of the given number;
the number 0 stands for a flag that is raised beforehand. -/
def raisedAt (number reports : Nat) : Bool :=
  number ≤ reports

def Options.reportsBehind (options : Options) (tokens : List Token)
    (count : Nat) : Nat :=
  (behindStatements tokens count).reportCount options

/-- What there is to tell behind the first `count` statements of a document,
with every report. -/
def Analysis.behindStatements (options : Options) (tokens : List Token)
    (count : Nat) : Analysis :=
  .ofWalk (Walk.behindStatements tokens count)
    ((Walk.behindStatements tokens count).diagnostics options)

/-- What one analysis lists, the other lists first. -/
structure Analysis.Precedes (part whole : Analysis) : Prop where
  diagnostics : part.diagnostics <+: whole.diagnostics
  classified : part.classified <+: whole.classified
  symbols : part.symbols <+: whole.symbols

theorem Walk.length_diagnostics (walk : Walk) (options : Options) :
    (walk.diagnostics options).length = walk.reportCount options := by
  rw [diagnostics, List.length_filterMap_eq_countP, List.countP_reverse,
    reportCount]

theorem Options.reportsBehind_le (options : Options) (tokens : List Token)
    {count more : Nat} (le : count ≤ more) :
    options.reportsBehind tokens count ≤ options.reportsBehind tokens more :=
  (related_behindStatements keptBySteps_grows grows_settle tokens
    le).findings.sublist.countP_le

namespace Analysis

theorem precedes_behindStatements (options : Options) (tokens : List Token)
    {count more : Nat} (le : count ≤ more) :
    Precedes (behindStatements options tokens count)
      (behindStatements options tokens more) := by
  have grows :=
    related_behindStatements keptBySteps_grows grows_settle tokens le
  refine ⟨?diagnostics, ?classified, ?symbols⟩
  case diagnostics =>
    exact (List.reverse_prefix.mpr grows.findings).filterMap _
  case classified => exact List.reverse_prefix.mpr grows.classified
  case symbols =>
    exact related_behindStatements keptBySteps_listed listed_settle tokens le

end Analysis

theorem analyzeWhile_never (options : Options) (tokens : List Token) :
    analyzeWhile options (fun _ => false) tokens =
      (true, .behindStatements options tokens (statementCount tokens)) := by
  rw [analyzeWhile_eq_ofWalk, document_eq_behindStatements]
  rfl

theorem analyze_eq_behindStatements (options : Options) (tokens : List Token) :
    analyze options tokens =
      { Analysis.behindStatements options tokens (statementCount tokens) with
        diagnostics := options.keep
          (Analysis.behindStatements options tokens
            (statementCount tokens)).diagnostics } := by
  rw [analyze_eq_ofWalk, document_eq_behindStatements]
  rfl

/-- A flag that depends on the reports alone is met in front of the first
statement behind the report that raises it, or not at all. -/
theorem analyzeWhile_cases (options : Options) (cancelled : Nat → Bool)
    (tokens : List Token) :
    (∃ count < statementCount tokens,
      cancelled (options.reportsBehind tokens count) ∧
      (∀ earlier < count,
        ¬cancelled (options.reportsBehind tokens earlier)) ∧
      analyzeWhile options cancelled tokens =
        (false, .behindStatements options tokens count)) ∨
    (∀ count < statementCount tokens,
      ¬cancelled (options.reportsBehind tokens count)) ∧
    analyzeWhile options cancelled tokens =
      analyzeWhile options (fun _ => false) tokens := by
  rw [analyzeWhile_eq_ofWalk, analyzeWhile_eq_ofWalk]
  cases stopsAt_document (fun walk => cancelled (walk.reportCount options))
      tokens with
  | stopped count within met first ended_eq =>
      refine .inl ⟨count, within, met, first, ?_⟩
      rw [ended_eq]
      rfl
  | unmet never ended_eq =>
      refine .inr ⟨never, ?_⟩
      rw [ended_eq]

theorem analyzeUnless_of_unmet {options : Options} {cancelled : Nat → Bool}
    {tokens : List Token}
    (unmet : analyzeWhile options cancelled tokens =
      analyzeWhile options (fun _ => false) tokens) :
    analyzeUnless options cancelled tokens = .ok (analyze options tokens) := by
  rw [analyzeUnless_eq, unmet, analyzeWhile_never, analyze_eq_behindStatements]

/-- An analysis with a flag tells what there is to tell behind a whole number of
statements. -/
theorem cancelled_between_statements (options : Options)
    (tokens : List Token) :
    -- Without a flag this is all statements, and so it is without a limit.
    analyzeWhile options (fun _ => false) tokens =
      (true, .behindStatements options tokens (statementCount tokens)) ∧
    analyze options tokens =
      { Analysis.behindStatements options tokens (statementCount tokens) with
        diagnostics :=
          (Analysis.behindStatements options tokens
            (statementCount tokens)).diagnostics.take
              options.maxDiagnostics } ∧
    -- A flag that a report raises is met in front of the next statement.
    (∀ number,
      (analyzeWhile options (raisedAt number) tokens).2.Precedes
        (analyzeWhile options (fun _ => false) tokens).2 ∧
      ((∃ count < statementCount tokens,
        number ≤ options.reportsBehind tokens count ∧
        (∀ earlier < count, options.reportsBehind tokens earlier < number) ∧
        analyzeWhile options (raisedAt number) tokens =
          (false, .behindStatements options tokens count)) ∨
      (∀ count < statementCount tokens,
        options.reportsBehind tokens count < number) ∧
      analyzeWhile options (raisedAt number) tokens =
        analyzeWhile options (fun _ => false) tokens)) ∧
    -- Where it is raised beforehand, nothing has happened.
    (tokens ≠ [] → analyzeWhile options (raisedAt 0) tokens =
      (false, ⟨tokens, [], [], [], 1, 0⟩)) ∧
    -- Where it is never raised, it makes no difference.
    (∀ number,
      (analyzeWhile options (fun _ => false) tokens).2.diagnostics.length <
        number →
      analyzeWhile options (raisedAt number) tokens =
        analyzeWhile options (fun _ => false) tokens ∧
      analyzeUnless options (raisedAt number) tokens =
        .ok (analyze options tokens)) ∧
    -- Cancelled is what is found cancelled in front of a statement.
    (∀ cancelled : Nat → Bool,
      (analyzeUnless options cancelled tokens = .error ⟨⟩ ↔
        ∃ count < statementCount tokens,
          cancelled (options.reportsBehind tokens count)) ∧
      (analyzeUnless options cancelled tokens = .ok (analyze options tokens) ↔
        ∀ count < statementCount tokens,
          ¬cancelled (options.reportsBehind tokens count))) ∧
    -- The same holds of a flag that is raised from outside, at any time.
    (∀ stop : Walk → Bool,
      StopsAt stop (behindStatements tokens) (statementCount tokens)
        (document (fun _ => false) tokens) (document stop tokens)) := by
  refine ⟨analyzeWhile_never options tokens, ?limited, fun number => ?flagged,
    fun some_token => ?beforehand, fun number unraised => ?unraised,
    fun cancelled => ?answer, fun stop => stopsAt_document stop tokens⟩
  case limited =>
    rw [analyze_eq_behindStatements, options.keep_eq_take]
  case flagged =>
    rw [analyzeWhile_never]
    rcases analyzeWhile_cases options (raisedAt number) tokens with
      ⟨count, within, met, first, cancelled_eq⟩ | ⟨never, unmet⟩
    · rw [cancelled_eq]
      refine ⟨Analysis.precedes_behindStatements options tokens
        (Nat.le_of_lt within), .inl ⟨count, within, of_decide_eq_true met,
          fun earlier less => ?_, rfl⟩⟩
      exact Nat.lt_of_not_le fun raised =>
        first earlier less (decide_eq_true raised)
    · rw [unmet, analyzeWhile_never]
      refine ⟨Analysis.precedes_behindStatements options tokens (Nat.le_refl _),
        .inr ⟨fun count within => ?_, rfl⟩⟩
      exact Nat.lt_of_not_le fun raised =>
        never count within (decide_eq_true raised)
  case beforehand =>
    rcases analyzeWhile_cases options (raisedAt 0) tokens with
      ⟨count, within, met, first, cancelled_eq⟩ | ⟨never, unmet⟩
    · cases count with
      | zero =>
          rw [cancelled_eq]
          simp only [Analysis.behindStatements, behindStatements, statements,
            Analysis.ofWalk, start, diagnostics, TokenCursor.toList_ofList]
          rfl
      | succ count =>
          exact absurd (decide_eq_true (Nat.zero_le _))
            (first 0 (Nat.succ_pos _))
    · have some_statement : 0 < statementCount tokens :=
        Nat.pos_of_ne_zero (mt statementCount_eq_zero_iff.mp some_token)
      exact absurd (decide_eq_true (Nat.zero_le _)) (never 0 some_statement)
  case unraised =>
    rcases analyzeWhile_cases options (raisedAt number) tokens with
      ⟨count, within, met, first, cancelled_eq⟩ | ⟨never, unmet⟩
    · have raised : number ≤ options.reportsBehind tokens count :=
        of_decide_eq_true met
      have fewer := options.reportsBehind_le tokens (Nat.le_of_lt within)
      rw [analyzeWhile_never] at unraised
      change (Walk.diagnostics _ _).length < number at unraised
      rw [length_diagnostics] at unraised
      change options.reportsBehind _ _ < number at unraised
      omega
    · exact ⟨unmet, analyzeUnless_of_unmet unmet⟩
  case answer =>
    rcases analyzeWhile_cases options cancelled tokens with
      ⟨count, within, met, first, cancelled_eq⟩ | ⟨never, unmet⟩
    · have answer_eq : analyzeUnless options cancelled tokens = .error ⟨⟩ := by
        rw [analyzeUnless_eq, cancelled_eq]
      rw [answer_eq]
      refine ⟨⟨fun _ => ⟨count, within, met⟩, fun _ => rfl⟩,
        ⟨fun finished => ?_, fun never => absurd met (never count within)⟩⟩
      cases finished
    · rw [analyzeUnless_of_unmet unmet]
      refine ⟨⟨fun cancelled => ?_, ?_⟩, ⟨fun _ => never, fun _ => rfl⟩⟩
      · cases cancelled
      · rintro ⟨count, within, met⟩
        exact absurd met (never count within)

def straySigns : List Token :=
  (scan ";\nconstant a = 1\n;").tokens

theorem cancelled_between_statements_straySigns :
    analyzeWhile {} (raisedAt 0) straySigns =
      (false, ⟨straySigns, [], [], [], 1, 0⟩) ∧
    (∃ count, 0 < count ∧ count < statementCount straySigns ∧
      analyzeWhile {} (raisedAt 1) straySigns =
        (false, .behindStatements {} straySigns count)) ∧
    analyzeUnless {} (raisedAt 3) straySigns = .ok (analyze {} straySigns) := by
  have facts : straySigns ≠ [] ∧
      (analyzeWhile {} (raisedAt 1) straySigns).1 = false ∧
      Options.reportsBehind {} straySigns 0 = 0 ∧
      (analyzeWhile {} (fun _ => false) straySigns).2.diagnostics.length <
        3 := by
    decide +kernel
  obtain ⟨some_token, stopped, none_yet, fewer⟩ := facts
  obtain ⟨-, -, flagged, beforehand, unraised, -⟩ :=
    cancelled_between_statements {} straySigns
  refine ⟨beforehand some_token, ?_, (unraised 3 fewer).2⟩
  rcases (flagged 1).2 with ⟨count, within, raised, -, cancelled_eq⟩ |
    ⟨-, unmet⟩
  · refine ⟨count, Nat.pos_of_ne_zero ?_, within, cancelled_eq⟩
    rintro rfl
    rw [none_yet] at raised
    exact Nat.not_succ_le_zero 0 raised
  · rw [unmet, analyzeWhile_never] at stopped
    cases stopped

end ComponentLang
