import ComponentLang.Analysis
import ComponentLang.Proofs.Grammar.Scopes

namespace ComponentLang

namespace Visitor

/-- The same scopes are open, and none had to be closed between statements. -/
structure Balanced (before after : Visitor) : Prop where
  inner : after.scopes.inner = before.scopes.inner
  resets : after.resets = before.resets

namespace Balanced

variable {before visitor after : Visitor}

theorem refl (visitor : Visitor) : Balanced visitor visitor :=
  ⟨rfl, rfl⟩

theorem trans (front : Balanced before visitor)
    (back : Balanced visitor after) : Balanced before after :=
  ⟨back.inner.trans front.inner, back.resets.trans front.resets⟩

theorem popScope (balanced : Balanced before after) :
    Balanced before.popScope after.popScope := by
  refine ⟨?_, balanced.resets⟩
  simp only [Visitor.popScope, ScopeStack.pop, balanced.inner]
  split
  · next inner_eq => rw [inner_eq, balanced.inner, inner_eq]
  · rfl

theorem closeScope (balanced : Balanced before after) (opened : Bool) :
    Balanced (before.closeScope opened) (after.closeScope opened) := by
  cases opened with
  | false => exact balanced
  | true => exact balanced.popScope

end Balanced

section Steps

variable (visitor : Visitor)

theorem balanced_report (severity : Severity) (cause : Cause) (anchor : Token) :
    Balanced visitor (visitor.report severity cause anchor) :=
  ⟨rfl, rfl⟩

theorem balanced_moveTo (cursor : TokenCursor) :
    Balanced visitor (visitor.moveTo cursor) :=
  ⟨rfl, rfl⟩

theorem balanced_advance (expected : Expected) :
    Balanced visitor (visitor.advance expected).2 := by
  unfold advance
  split <;> exact ⟨rfl, rfl⟩

theorem balanced_need (expected : Expected) :
    Balanced visitor (visitor.need expected).2 := by
  have ahead := visitor.balanced_advance expected
  unfold need
  split
  · next advanced =>
      rw [advanced] at ahead
      split
      · exact ahead
      · split
        · exact ahead
        · exact ahead.trans ⟨rfl, rfl⟩
  · exact ahead

theorem balanced_rescue (candidates : List Terminal) :
    Balanced visitor (visitor.rescue candidates) := by
  unfold rescue
  split <;> exact ⟨rfl, rfl⟩

theorem balanced_expect (candidates : List Terminal) :
    Balanced visitor (visitor.expect candidates).2 := by
  have needed := visitor.balanced_need (.oneOf candidates)
  unfold expect
  split
  · next need_eq =>
      rw [need_eq] at needed
      split
      · exact needed
      · split
        · exact needed
        · exact needed.trans
            ((balanced_report _ _ _ _).trans (balanced_rescue _ _))
  · exact needed

theorem balanced_complain (complaint : Complaint) :
    Balanced visitor (visitor.complain complaint) := by
  unfold complain
  split
  · exact .refl visitor
  · cases complaint <;> exact ⟨rfl, rfl⟩

theorem balanced_resolve : Balanced visitor visitor.resolve := by
  unfold resolve
  split
  · exact .refl visitor
  · split
    · split
      · exact ⟨rfl, rfl⟩
      · split <;> exact ⟨rfl, rfl⟩
    · exact ⟨rfl, rfl⟩

theorem balanced_register (symbol : Symbol) (token : Token) :
    Balanced visitor (visitor.register symbol token) := by
  unfold register refuse
  dsimp only
  repeat' split
  all_goals exact ⟨rfl, rfl⟩

theorem balanced_classify (kind : TokenKind) (modifiers : Modifiers) :
    Balanced visitor (visitor.classify kind modifiers) :=
  ⟨rfl, rfl⟩

theorem balanced_openScope (name : String) (kind : TokenKind) :
    Balanced visitor (visitor.openScope name kind).popScope :=
  ⟨rfl, rfl⟩

theorem balanced_declare (kind : TokenKind) (modifiers : Modifiers) :
    Balanced visitor
      ((visitor.declare kind modifiers).2.closeScope
        (visitor.declare kind modifiers).1.opened) := by
  unfold declare
  split
  · exact .refl visitor
  · split
    · next token _ _ =>
        have classified (symbol : Symbol) :=
          (visitor.balanced_register symbol token).trans
            (balanced_classify _ kind symbol.modifiers)
        cases kind.opensScope with
        | false => exact classified _
        | true => exact (classified _).trans (balanced_openScope _ _ kind)
    · exact ⟨rfl, rfl⟩

/-- What a definition opens is what is closed for it. -/
theorem balanced_define (kind : TokenKind) (modifiers : Modifiers) :
    Balanced visitor
      ((visitor.define kind modifiers).2.2.closeScope
        (visitor.define kind modifiers).2.1.opened) := by
  have needed := visitor.balanced_need .identifier
  unfold define
  split
  · next need_eq =>
      rw [need_eq] at needed
      exact needed.trans (balanced_declare _ kind modifiers)
  · next need_eq =>
      rw [need_eq] at needed
      exact needed

theorem opened_of_define {kind : TokenKind} {modifiers : Modifiers}
    (stopped : (visitor.define kind modifiers).1 ≠ .finished) :
    (visitor.define kind modifiers).2.1.opened = false := by
  unfold define at *
  split
  · next need_eq =>
      rw [need_eq] at stopped
      exact absurd rfl stopped
  · rfl

theorem opened_of_not_opensScope {kind : TokenKind} (modifiers : Modifiers)
    (plain : kind.opensScope = false) :
    (visitor.define kind modifiers).2.1.opened = false := by
  unfold define declare
  split
  · split
    · rfl
    · split
      · exact plain
      · rfl
  · rfl

end Steps

/-- The visitor behind the steps that close what is pending. -/
def discharge (visitor : Visitor) (definition : DefinedName) : Pending → Visitor
  | .nothing => visitor
  | .definition => visitor.closeScope definition.opened
  | .parameters => visitor.popScope

theorem Balanced.discharge {before after : Visitor}
    (balanced : Balanced before after) (definition : DefinedName)
    (pending : Pending) :
    Balanced (before.discharge definition pending)
      (after.discharge definition pending) := by
  cases pending with
  | nothing => exact balanced
  | definition => exact balanced.closeScope definition.opened
  | parameters => exact balanced.popScope

/-- A procedure that finished has opened what is pending behind it, and one that
ended otherwise has closed all that it opened. -/
structure Settles (before : Visitor) (left : Pending)
    (followed : Outcome × Locals × Visitor) : Prop where
  finished : followed.1 = .finished →
    Balanced before (followed.2.2.discharge followed.2.1.definition left)
  stopped : followed.1 ≠ .finished → Balanced before followed.2.2

section Follow

variable {enter : Procedure → Visitor → Outcome × Visitor} {left : Pending}
  {before visitor : Visitor} {locals : Locals}

theorem settles_seq {middle : Pending} {first next : Procedure}
    (front : Settles before middle (follow enter first locals visitor))
    (back : ∀ kept after,
      Balanced before (after.discharge kept.definition middle) →
        Settles before left (follow enter next kept after)) :
    Settles before left (follow enter (.seq first next) locals visitor) := by
  rw [follow]
  cases first_eq : follow enter first locals visitor with
  | mk outcome rest =>
      obtain ⟨kept, after⟩ := rest
      rw [first_eq] at front
      cases outcome with
      | finished => exact back kept after (front.finished rfl)
      | _ =>
          refine ⟨fun finished => ?_, front.stopped⟩
          cases finished

/-- Nothing is pending around a step that may end early. -/
theorem settles_step {pending : Pending} (outcome : Outcome) {after : Visitor}
    (step : Balanced visitor after)
    (owed : Balanced before (visitor.discharge locals.definition pending))
    (leaves_eq : (if pending = .nothing then some .nothing else none) =
      some left) :
    Settles before left (outcome, locals, after) := by
  split at leaves_eq
  · next none_pending =>
      subst none_pending
      cases leaves_eq
      exact ⟨fun _ => owed.trans step, fun _ => owed.trans step⟩
  · cases leaves_eq

theorem settles_finished {after : Visitor} {kept : Locals}
    (step : Balanced visitor after)
    (owed : Balanced before (visitor.discharge kept.definition left)) :
    Settles before left (.finished, kept, after) :=
  ⟨fun _ => owed.trans (step.discharge _ _), fun stopped => absurd rfl stopped⟩

theorem settles_define {kind : TokenKind} (modifiers : Modifiers)
    (owed : Balanced before visitor) :
    Settles before (if kind.opensScope then .definition else .nothing)
      (follow enter (.define kind modifiers) locals visitor) := by
  have closed := owed.trans (visitor.balanced_define kind modifiers)
  refine ⟨fun _ => ?_, fun stopped => ?_⟩
  · cases opens : kind.opensScope with
    | true => exact closed
    | false =>
        rw [visitor.opened_of_not_opensScope modifiers opens] at closed
        exact closed
  · rw [visitor.opened_of_define stopped] at closed
    exact closed

/-- What is pending behind a procedure is told by the procedure alone, if the
productions that it enters are balanced. -/
theorem settles_follow
    (enters : ∀ procedure, procedure.IsBalanced → ∀ visitor,
      Balanced visitor (enter procedure visitor).2)
    {procedure : Procedure} {pending : Pending}
    (leaves_eq : procedure.leaves pending = some left)
    (owed : Balanced before (visitor.discharge locals.definition pending)) :
    Settles before left (follow enter procedure locals visitor) := by
  induction procedure generalizing pending left before locals visitor with
  | seq first next front back =>
      obtain ⟨middle, first_eq, next_eq⟩ := Option.bind_eq_some_iff.mp leaves_eq
      exact settles_seq (front first_eq owed) fun kept after settled =>
        back next_eq settled
  | accept candidates found missing there absent =>
      obtain ⟨found_eq, missing_eq⟩ := Procedure.leaves_of_agree leaves_eq
      rw [follow]
      split
      · exact there found_eq (owed.trans ((balanced_moveTo _ _).discharge _ _))
      · exact absent missing_eq owed
  | branch test holds fails here other =>
      obtain ⟨holds_eq, fails_eq⟩ := Procedure.leaves_of_agree leaves_eq
      rw [follow]
      split
      · exact here holds_eq owed
      · exact other fails_eq owed
  | attempt body induction =>
      rw [Procedure.leaves] at leaves_eq
      split at leaves_eq
      · next balanced =>
          cases leaves_eq
          have settled := @induction .nothing visitor visitor {} .nothing
            balanced (.refl visitor)
          have kept : Balanced visitor (follow enter body {} visitor).2.2 := by
            by_cases finished : (follow enter body {} visitor).1 = .finished
            · exact settled.finished finished
            · exact settled.stopped finished
          exact settles_finished kept owed
      · cases leaves_eq
  | define kind modifiers =>
      cases pending with
      | nothing =>
          cases leaves_eq
          exact settles_define modifiers owed
      | _ => cases leaves_eq
  | openParameters =>
      cases pending with
      | nothing =>
          cases leaves_eq
          exact ⟨fun _ => owed.trans (balanced_openScope _ _ _),
            fun stopped => absurd rfl stopped⟩
      | _ => cases leaves_eq
  | closeScope =>
      cases pending with
      | definition =>
          cases leaves_eq
          exact ⟨fun _ => owed, fun stopped => absurd rfl stopped⟩
      | _ => cases leaves_eq
  | popScope =>
      cases pending with
      | parameters =>
          cases leaves_eq
          exact ⟨fun _ => owed, fun stopped => absurd rfl stopped⟩
      | _ => cases leaves_eq
  | need expected =>
      exact settles_step _ (balanced_need _ _) owed leaves_eq
  | expect candidates =>
      exact settles_step _ (balanced_expect _ _) owed leaves_eq
  | advance => exact settles_step _ (balanced_advance _ _) owed leaves_eq
  | conclude => exact settles_step _ (.refl _) owed leaves_eq
  | statement block =>
      rw [follow]
      split
      · exact settles_step _ (.refl _) owed leaves_eq
      · next statement _ =>
          exact settles_step _ (enters _ statement.isBalanced_procedure _) owed
            leaves_eq
      · exact settles_step _ (balanced_complain _ _) owed leaves_eq
  | call nonterminal =>
      exact settles_step _ (enters _ nonterminal.isBalanced_procedure _) owed
        leaves_eq
  | done | absorb =>
      cases leaves_eq
      exact settles_finished (.refl _) owed
  | complain complaint =>
      cases leaves_eq
      exact settles_finished (balanced_complain _ _) owed
  | strings =>
      cases leaves_eq
      exact settles_finished (balanced_moveTo _ _) owed
  | resolve =>
      cases leaves_eq
      exact settles_finished (balanced_resolve _) owed

/-- However a production ends, all that was opened for it is closed. -/
theorem balanced_follow
    (enters : ∀ procedure, procedure.IsBalanced → ∀ visitor,
      Balanced visitor (enter procedure visitor).2)
    {procedure : Procedure} (balanced : procedure.IsBalanced) (locals : Locals)
    (visitor : Visitor) :
    Balanced visitor (follow enter procedure locals visitor).2.2 := by
  have settled := @settles_follow _ _ visitor visitor locals enters _ .nothing
    balanced (.refl visitor)
  by_cases finished : (follow enter procedure locals visitor).1 = .finished
  · exact settled.finished finished
  · exact settled.stopped finished

end Follow

theorem balanced_run (depth : Nat) (procedure : Procedure)
    (balanced : procedure.IsBalanced) (visitor : Visitor) :
    Balanced visitor (run depth procedure visitor).2 := by
  induction depth generalizing procedure visitor with
  | zero => exact .refl visitor
  | succ depth induction => exact balanced_follow induction balanced {} visitor

/-! Between statements. -/

theorem inner_settle (visitor : Visitor) : visitor.settle.scopes.inner = [] := by
  unfold settle
  split
  · next one => simpa [ScopeStack.depth] using one
  · rfl

theorem settle_of_inner {visitor : Visitor}
    (global : visitor.scopes.inner = []) : visitor.settle = visitor := by
  have one : visitor.scopes.depth = 1 := by
    rw [ScopeStack.depth, global]
    rfl
  rw [settle, one]
  rfl

theorem balanced_statement (depth : Nat) (block : Block) (visitor : Visitor) :
    Balanced visitor (run depth (.statement block) visitor).2 :=
  balanced_run depth _ (Procedure.IsProduction.member block).isBalanced visitor

/-- Nothing is to be settled behind a statement of the document. -/
theorem settle_run (depth : Nat) {visitor : Visitor}
    (global : visitor.scopes.inner = []) :
    (run depth (.statement .document) visitor).2.settle =
      (run depth (.statement .document) visitor).2 :=
  settle_of_inner ((balanced_statement depth .document visitor).inner.trans global)

theorem balanced_statements (stop : Visitor → Bool) (depth turns : Nat)
    (visitor : Visitor) (global : visitor.scopes.inner = []) :
    Balanced visitor (statements stop depth turns visitor).2 := by
  fun_induction statements stop depth turns visitor with
  | case1 | case2 => exact ⟨rfl, rfl⟩
  | case3 turns visitor _ after run_eq =>
      have kept := balanced_statement depth .document visitor
      rw [run_eq] at kept
      rwa [settle_of_inner (kept.inner.trans global)]
  | case4 turns visitor _ outcome after _ run_eq token cursor next_eq induction =>
      have kept := balanced_statement depth .document visitor
      rw [run_eq] at kept
      have settled := settle_of_inner (kept.inner.trans global)
      rw [settled] at induction ⊢
      have rest := induction (kept.inner.trans global)
      exact kept.trans ⟨rest.inner, rest.resets⟩
  | case5 turns visitor _ outcome after _ run_eq _ =>
      have kept := balanced_statement depth .document visitor
      rw [run_eq] at kept
      rwa [settle_of_inner (kept.inner.trans global)]

theorem balanced_document (stop : Visitor → Bool) (visitor : Visitor)
    (global : visitor.scopes.inner = []) :
    Balanced visitor (document stop visitor).2 := by
  unfold document
  dsimp only
  split
  · exact .refl visitor
  · exact balanced_statements stop _ _ visitor global

end Visitor

/-- Every production leaves the scopes open that were open in front of it, in
every state, under all options, and however it ends. So there is nothing to
settle behind a statement of a document, and no analysis counts a reset. -/
theorem scopes_balanced :
    (∀ procedure : Procedure, procedure.IsProduction →
      ∀ depth locals visitor,
        (Visitor.follow (Visitor.run depth) procedure locals
          visitor).2.2.scopes.inner = visitor.scopes.inner) ∧
    (∀ depth visitor,
      (Visitor.run depth (.statement .document)
          (Visitor.settle visitor)).2.settle =
        (Visitor.run depth (.statement .document) (Visitor.settle visitor)).2) ∧
    (∀ options sink stop tokens,
      let visitor := Visitor.start options sink tokens
      (visitor.document stop).2.scopes.inner = [] ∧
        (visitor.document stop).2.resets = 0) ∧
    (∀ options tokens, (analyze options tokens).scopeResets = 0) ∧
    (∀ options cancelled tokens,
      (analyzeWhile options cancelled tokens).2.scopeResets = 0) ∧
    (∀ options cancelled tokens analysis,
      analyzeUnless options cancelled tokens = .ok analysis →
        analysis.scopeResets = 0) ∧
    ∀ options text, (analyzeSource options text).scopeResets = 0 := by
  refine ⟨?productions, ?settled, ?document, ?tokens, ?stopped, ?cancelled,
    ?text⟩
  case productions =>
    intro procedure production depth locals visitor
    exact (Visitor.balanced_follow (Visitor.balanced_run depth)
      production.isBalanced locals visitor).inner
  case settled =>
    intro depth visitor
    exact Visitor.settle_run depth visitor.inner_settle
  case document =>
    intro options sink stop tokens visitor
    have balanced := visitor.balanced_document stop rfl
    exact ⟨balanced.inner, balanced.resets⟩
  case tokens =>
    intro options tokens
    exact (Visitor.balanced_document _ _ rfl).resets
  case stopped =>
    intro options cancelled tokens
    exact (Visitor.balanced_document _ _ rfl).resets
  case cancelled =>
    intro options cancelled tokens analysis analysis_eq
    unfold analyzeUnless at analysis_eq
    dsimp only at analysis_eq
    split at analysis_eq
    · next visitor document_eq =>
        cases analysis_eq
        have balanced := Visitor.balanced_document
          (fun visitor => cancelled visitor.sink.received)
          (.start options (.limited options) tokens) rfl
        rw [document_eq] at balanced
        exact balanced.resets
    · cases analysis_eq
  case text =>
    intro options text
    exact (Visitor.balanced_document _ _ rfl).resets

/-- A port that breaks off among its parameters, two scopes deep. -/
def brokenOff : String :=
  "module M \x7b\nport P(a: U8"

theorem scopes_balanced_brokenOff :
    let visitor := Visitor.start {} {} (scan brokenOff).tokens
    let followed :=
      Visitor.follow (Visitor.run 20) (.statement .document) {} visitor
    followed.1 = .ended ∧ followed.2.2.scopes.peak = 3 ∧
      followed.2.2.scopes.inner = visitor.scopes.inner ∧
      ∃ analysis, analyzeUnless {} (fun _ => false) (scan brokenOff).tokens =
          .ok analysis ∧
        analysis.scopeResets = 0 := by
  intro visitor followed
  have facts : followed.1 = .ended ∧ followed.2.2.scopes.peak = 3 ∧
      (analyzeUnless {} (fun _ => false)
        (scan brokenOff).tokens).toOption.isSome := by
    decide +kernel
  obtain ⟨ended, peak, answered⟩ := facts
  obtain ⟨productions, -, -, -, -, answers, -⟩ := scopes_balanced
  refine ⟨ended, peak, productions _ (.member .document) 20 {} visitor, ?_⟩
  cases analysis_eq :
      analyzeUnless {} (fun _ => false) (scan brokenOff).tokens with
  | ok analysis => exact ⟨analysis, rfl, answers _ _ _ _ analysis_eq⟩
  | error cancelled =>
      rw [analysis_eq] at answered
      cases answered

end ComponentLang
