import ComponentLang.Analysis
import ComponentLang.Proofs.Visitor.Enactment
import ComponentLang.Walk.Allowance

namespace ComponentLang

namespace Visitor

section Documents

variable {options : Options} {sink : DiagnosticCollector} {stop : Visitor → Bool}
  {ask : Walk → Bool}

theorem answers_statement {size : Nat} {visitor : Visitor} {walk : Walk}
    (represents : Represents options sink visitor walk)
    (within : walk.remaining < size) :
    Answers options sink
      (run (depthFor size) (.statement .document) visitor)
      (Walk.run (Walk.allowance size) (.statement .document) walk) :=
  answers_run (fun depth => enacts _ depth (.statement .document))
    (Nat.le_refl _) rfl represents
    (Walk.run_statement_ne_exhausted within .document)

theorem represents_statements
    (same : ∀ visitor walk, Represents options sink visitor walk →
      stop visitor = ask walk) {size : Nat} (turns : Nat) {visitor : Visitor}
    {walk : Walk} (represents : Represents options sink visitor walk)
    (within : walk.remaining < size) :
    (statements stop (depthFor size) turns visitor).1 =
        (Walk.statements ask (Walk.allowance size) turns walk).1 ∧
      Represents options sink
        (statements stop (depthFor size) turns visitor).2
        (Walk.statements ask (Walk.allowance size) turns walk).2 := by
  induction turns generalizing visitor walk with
  | zero => exact ⟨rfl, represents⟩
  | succ turns induction =>
      rw [statements, Walk.statements, same visitor walk represents]
      by_cases stopped : ask walk
      · rw [if_pos stopped, if_pos stopped]
        exact ⟨rfl, represents⟩
      · rw [if_neg stopped, if_neg stopped]
        have answers := answers_statement represents within
        have forward := (Walk.remaining_run (Walk.allowance size)
          (.statement .document) walk).1
        cases walked_eq :
            Walk.run (Walk.allowance size) (.statement .document) walk with
        | mk outcome behind =>
        cases visited_eq :
            run (depthFor size) (.statement .document) visitor with
        | mk other after =>
        rw [walked_eq] at forward
        rw [walked_eq, visited_eq] at answers
        obtain rfl : other = outcome := answers.outcome
        have settled : Represents options sink after.settle behind.settle :=
          answers.represents.settle
        have kept := Walk.remaining_settle behind
        have onward : ∀ found, behind.settle.cursor.next? = some found →
            (behind.settle.moveTo found.2).remaining < size := by
          intro found next_eq
          have taken := TokenCursor.remaining_lt_of_next? next_eq
          simp only [Walk.remaining, Walk.moveTo] at *
          omega
        have cursor_eq : after.settle.cursor.next? = behind.settle.cursor.next? :=
          congrArg TokenCursor.next? settled.cursor
        cases next_eq : behind.settle.cursor.next? with
        | none =>
            rw [next_eq] at cursor_eq
            have ends : true = true ∧
                Represents options sink after.settle behind.settle :=
              ⟨rfl, settled⟩
            cases other <;> simpa only [cursor_eq, next_eq] using ends
        | some found =>
            rw [next_eq] at cursor_eq
            have further := induction (settled.moveTo found.2)
              (onward found next_eq)
            cases other with
            | ended => exact ⟨rfl, settled⟩
            | _ => simpa only [cursor_eq, next_eq] using further

theorem represents_document
    (same : ∀ visitor walk, Represents options sink visitor walk →
      stop visitor = ask walk) (tokens : List Token) :
    (document stop (start options sink tokens)).1 =
        (Walk.document ask tokens).1 ∧
      Represents options sink (document stop (start options sink tokens)).2
        (Walk.document ask tokens).2 := by
  have started := represents_start options sink tokens
  cases tokens with
  | nil => exact ⟨rfl, started⟩
  | cons token rest =>
      have size_eq : (start options sink (token :: rest)).cursor.size =
          (token :: rest).length := Nat.zero_add _
      rw [document, Walk.document, size_eq]
      exact represents_statements same _ started (Nat.lt_succ_self rest.length)

end Documents

end Visitor

namespace DiagnosticCollector

theorem received_report (collector : DiagnosticCollector)
    (diagnostic : Diagnostic) :
    (collector.report diagnostic).received = collector.received + 1 := by
  unfold report received size
  split
  · rfl
  · rw [List.length_cons, Nat.add_right_comm]

theorem received_foldl_report (collector : DiagnosticCollector)
    (diagnostics : List Diagnostic) :
    (diagnostics.foldl report collector).received =
      collector.received + diagnostics.length := by
  induction diagnostics generalizing collector with
  | nil => rfl
  | cons diagnostic rest induction =>
      rw [List.foldl_cons, induction, received_report, List.length_cons,
        Nat.add_assoc, Nat.add_comm 1]

theorem toList_foldl_report_unlimited (kept diagnostics : List Diagnostic) :
    (diagnostics.foldl report { kept }).toList =
      kept.reverse ++ diagnostics := by
  induction diagnostics generalizing kept with
  | nil => exact (List.append_nil _).symm
  | cons diagnostic rest induction =>
      have kept_eq : report { kept } diagnostic =
        { kept := diagnostic :: kept } := rfl
      rw [List.foldl_cons, kept_eq, induction, List.reverse_cons,
        List.append_assoc]
      rfl

end DiagnosticCollector

namespace Visitor

variable {options : Options} {sink : DiagnosticCollector} {visitor : Visitor}
  {walk : Walk}

theorem Represents.ofVisitor_eq
    (represents : Represents options sink visitor walk) :
    Analysis.ofVisitor visitor = .ofWalk walk visitor.sink.toList := by
  simp only [Analysis.ofVisitor, Analysis.ofWalk, represents.cursor,
    represents.classified, represents.symbols.listed, represents.scopes,
    represents.resets]

theorem Represents.received_eq
    (represents : Represents options sink visitor walk)
    (empty : sink.received = 0) :
    visitor.sink.received = walk.reportCount options := by
  rw [represents.sink_eq, DiagnosticCollector.received_foldl_report, empty,
    Nat.zero_add, Walk.diagnostics, List.length_filterMap_eq_countP,
    List.countP_reverse]
  rfl

end Visitor

open Visitor

/-- What an analysis reports is what its options admit of the findings of a walk
that knows no options, and all else is what that walk leaves. -/
theorem analyze_eq_ofWalk (options : Options) (tokens : List Token) :
    analyze options tokens =
      .ofWalk (Walk.document (fun _ => false) tokens).2
        (options.keep
          ((Walk.document (fun _ => false) tokens).2.diagnostics options)) := by
  obtain ⟨-, represents⟩ := @represents_document options (.limited options)
    (fun _ => false) (fun _ => false) (fun _ _ _ => rfl) tokens
  rw [analyze, represents.ofVisitor_eq, represents.sink_eq]
  rfl

theorem analyzeWhile_eq_ofWalk (options : Options) (cancelled : Nat → Bool)
    (tokens : List Token) :
    analyzeWhile options cancelled tokens =
      let walked := Walk.document
        (fun walk => cancelled (walk.reportCount options)) tokens
      (walked.1, .ofWalk walked.2 (walked.2.diagnostics options)) := by
  obtain ⟨complete, represents⟩ := @represents_document options {}
    (fun visitor => cancelled visitor.sink.received)
    (fun walk => cancelled (walk.reportCount options))
    (fun _ _ represents => congrArg cancelled (represents.received_eq rfl))
    tokens
  simp only [analyzeWhile, represents.ofVisitor_eq, complete, represents.sink_eq,
    DiagnosticCollector.toList_foldl_report_unlimited]
  rfl

theorem analyzeUnless_eq (options : Options) (cancelled : Nat → Bool)
    (tokens : List Token) :
    analyzeUnless options cancelled tokens =
      match analyzeWhile options cancelled tokens with
      | (true, analysis) =>
          .ok { analysis with diagnostics := options.keep analysis.diagnostics }
      | (false, _) => .error ⟨⟩ := by
  obtain ⟨complete, represents⟩ := @represents_document options
    (.limited options) (fun visitor => cancelled visitor.sink.received)
    (fun walk => cancelled (walk.reportCount options))
    (fun _ _ represents => congrArg cancelled (represents.received_eq rfl))
    tokens
  rw [analyzeWhile_eq_ofWalk, analyzeUnless]
  dsimp only
  generalize document _ (start options (.limited options) tokens) = visited at *
  generalize Walk.document _ tokens = walked at *
  obtain ⟨reached, visitor⟩ := visited
  obtain ⟨_, walk⟩ := walked
  obtain rfl := complete
  cases reached with
  | false => rfl
  | true =>
      dsimp only at represents ⊢
      rw [represents.ofVisitor_eq, represents.sink_eq]
      rfl

theorem foldl_report_lexical (options : Options)
    (errors : List Scan.LexicalError) (sink : DiagnosticCollector) :
    errors.foldl (fun sink error =>
        sink.report ((Finding.ofLexicalError error).diagnostic .error)) sink =
      ((errors.map Finding.ofLexicalError).filterMap options.report?).foldl
        .report sink := by
  induction errors generalizing sink with
  | nil => rfl
  | cons error rest induction => exact induction (sink.report _)

theorem analyzeSource_eq_ofWalk (options : Options) (text : String) :
    analyzeSource options text =
      let walk := (Walk.document (fun _ => false) (scan text).tokens).2
      let lexical :=
        ((scan text).errors.map Finding.ofLexicalError).filterMap
          options.report?
      .ofWalk walk
        (Diagnostic.sortByPosition
          (options.keep (lexical ++ walk.diagnostics options))) := by
  obtain ⟨-, represents⟩ := @represents_document options
    ((((scan text).errors.map Finding.ofLexicalError).filterMap
      options.report?).foldl .report (.limited options))
    (fun _ => false) (fun _ => false) (fun _ _ _ => rfl) (scan text).tokens
  rw [analyzeSource]
  dsimp only
  rw [foldl_report_lexical, represents.ofVisitor_eq, represents.sink_eq,
    ← List.foldl_append]
  rfl

/-! The parts of an analysis that the options have no part in. -/

section Parts

variable (options : Options) (tokens : List Token) (text : String)

theorem tokens_analyze :
    (analyze options tokens).tokens =
      (Walk.document (fun _ => false) tokens).2.cursor.toList := by
  rw [analyze_eq_ofWalk]
  rfl

theorem classified_analyze :
    (analyze options tokens).classified =
      (Walk.document (fun _ => false) tokens).2.classified.reverse := by
  rw [analyze_eq_ofWalk]
  rfl

theorem tokens_analyzeSource :
    (analyzeSource options text).tokens =
      (Walk.document (fun _ => false) (scan text).tokens).2.cursor.toList := by
  rw [analyzeSource_eq_ofWalk]
  rfl

theorem classified_analyzeSource :
    (analyzeSource options text).classified =
      (Walk.document (fun _ => false)
        (scan text).tokens).2.classified.reverse := by
  rw [analyzeSource_eq_ofWalk]
  rfl

theorem symbols_analyzeSource :
    (analyzeSource options text).symbols =
      (Walk.document (fun _ => false) (scan text).tokens).2.symbols.toList := by
  rw [analyzeSource_eq_ofWalk]
  rfl

end Parts

end ComponentLang
