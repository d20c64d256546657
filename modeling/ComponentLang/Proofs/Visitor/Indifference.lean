import ComponentLang.Analysis

namespace ComponentLang

namespace Visitor

/-- The other visitor differs in its options and its reports at most. -/
inductive Concurs (visitor : Visitor) : Visitor → Prop where
  | intro (options : Options) (sink : DiagnosticCollector) :
    Concurs visitor { visitor with options, sink }

/-- The two steps are answered alike, and leave visitors that concur. -/
inductive Agree {α : Type} : α × Visitor → α × Visitor → Prop where
  | intro (answer : α) {after behind : Visitor}
    (concurs : Concurs after behind) : Agree (answer, after) (answer, behind)

namespace Concurs

variable {visitor other : Visitor}

theorem cursor_eq (concurs : Concurs visitor other) :
    other.cursor = visitor.cursor := by
  cases concurs
  rfl

theorem moveTo (concurs : Concurs visitor other) (cursor : TokenCursor) :
    Concurs (visitor.moveTo cursor) (other.moveTo cursor) := by
  cases concurs
  exact .intro _ _

theorem error (concurs : Concurs visitor other) (cause : Cause)
    (anchor : Token) :
    Concurs (visitor.error cause anchor) (other.error cause anchor) := by
  cases concurs
  exact .intro _ _

theorem advance (concurs : Concurs visitor other) (expected : Expected) :
    Agree (visitor.advance expected) (other.advance expected) := by
  obtain ⟨options, sink⟩ := concurs
  unfold Visitor.advance
  dsimp only
  cases visitor.cursor.next? <;> exact .intro _ (.intro _ _)

theorem need (concurs : Concurs visitor other) (expected : Expected) :
    Agree (visitor.need expected) (other.need expected) := by
  obtain ⟨options, sink⟩ := concurs
  unfold Visitor.need Visitor.advance
  dsimp only
  cases visitor.cursor.next? with
  | none => exact .intro _ (.intro _ _)
  | some taken =>
      dsimp only [Visitor.moveTo]
      cases taken.2.current? with
      | none => exact .intro _ (.intro _ _)
      | some token =>
          dsimp only
          split <;> exact .intro _ (.intro _ _)

theorem rescue (concurs : Concurs visitor other) (candidates : List Terminal) :
    Concurs (visitor.rescue candidates) (other.rescue candidates) := by
  obtain ⟨options, sink⟩ := concurs
  unfold Visitor.rescue
  dsimp only
  cases visitor.cursor.rescue? candidates <;> exact .intro _ _

theorem expect (concurs : Concurs visitor other) (candidates : List Terminal) :
    Agree (visitor.expect candidates) (other.expect candidates) := by
  unfold Visitor.expect
  have needed := concurs.need (.oneOf candidates)
  generalize visitor.need (.oneOf candidates) = step at needed ⊢
  generalize other.need (.oneOf candidates) = again at needed ⊢
  obtain ⟨outcome, concurs⟩ := needed
  cases outcome with
  | finished =>
      dsimp only
      rw [concurs.cursor_eq]
      split
      · exact .intro _ concurs
      · split
        · exact .intro _ concurs
        · exact .intro _ ((concurs.error _ _).rescue candidates)
  | _ => exact .intro _ concurs

theorem strings (concurs : Concurs visitor other) :
    Concurs visitor.strings other.strings := by
  cases concurs
  exact .intro _ _

theorem classify (concurs : Concurs visitor other) (kind : TokenKind)
    (modifiers : Modifiers) :
    Concurs (visitor.classify kind modifiers)
      (other.classify kind modifiers) := by
  cases concurs
  exact .intro _ _

theorem complain (concurs : Concurs visitor other) (complaint : Complaint) :
    Concurs (visitor.complain complaint) (other.complain complaint) := by
  obtain ⟨options, sink⟩ := concurs
  unfold Visitor.complain
  dsimp only
  cases visitor.cursor.current? with
  | none => exact .intro _ _
  | some token => cases complaint <;> exact .intro _ _

theorem resolve (concurs : Concurs visitor other) :
    Concurs visitor.resolve other.resolve := by
  obtain ⟨options, sink⟩ := concurs
  unfold Visitor.resolve
  dsimp only
  cases visitor.cursor.current? with
  | none => exact .intro _ _
  | some token =>
      dsimp only
      split
      · cases visitor.symbols.lookup? (Literal.nameOf token.text) with
        | some symbol => exact .intro _ _
        | none =>
            dsimp only
            cases visitor.options.unknownIdentifiers.severity? <;>
              cases options.unknownIdentifiers.severity? <;> exact .intro _ _
      · exact .intro _ _

theorem refuse (concurs : Concurs visitor other) (clash : Clash)
    (kind : TokenKind) (token : Token) :
    Concurs (visitor.refuse clash kind token) (other.refuse clash kind token) := by
  obtain ⟨options, sink⟩ := concurs
  unfold Visitor.refuse
  dsimp only
  split
  · exact .intro _ _
  · cases visitor.options.duplicateDeclarations.severity? <;>
      cases options.duplicateDeclarations.severity? <;> exact .intro _ _

theorem openScope (concurs : Concurs visitor other) (name : String)
    (kind : TokenKind) :
    Concurs (visitor.openScope name kind) (other.openScope name kind) := by
  cases concurs
  exact .intro _ _

theorem popScope (concurs : Concurs visitor other) :
    Concurs visitor.popScope other.popScope := by
  cases concurs
  exact .intro _ _

theorem closeScope (concurs : Concurs visitor other) (opened : Bool) :
    Concurs (visitor.closeScope opened) (other.closeScope opened) := by
  cases opened with
  | false => exact concurs
  | true => exact concurs.popScope

theorem settle (concurs : Concurs visitor other) :
    Concurs visitor.settle other.settle := by
  obtain ⟨options, sink⟩ := concurs
  unfold Visitor.settle
  dsimp only
  split <;> exact .intro _ _

theorem register (concurs : Concurs visitor other) (symbol : Symbol)
    (token : Token) :
    Concurs (visitor.register symbol token) (other.register symbol token) := by
  obtain ⟨options, sink⟩ := concurs
  unfold Visitor.register
  dsimp only
  cases (visitor.symbols.declare symbol).1 with
  | ok => exact .intro _ _
  | error clash => exact refuse (.intro options sink) clash symbol.kind token

theorem declare (concurs : Concurs visitor other) (kind : TokenKind)
    (modifiers : Modifiers) :
    Agree (visitor.declare kind modifiers) (other.declare kind modifiers) := by
  have registered := concurs.register
  obtain ⟨options, sink⟩ := concurs
  unfold Visitor.declare
  dsimp only
  cases visitor.cursor.current? with
  | none => exact .intro _ (.intro _ _)
  | some token =>
      dsimp only
      split
      · apply Agree.intro
        split
        · exact ((registered _ token).classify kind _).openScope _ kind
        · exact (registered _ token).classify kind _
      · exact .intro _ (.intro _ _)

theorem define (concurs : Concurs visitor other) (kind : TokenKind)
    (modifiers : Modifiers) :
    (other.define kind modifiers).1 = (visitor.define kind modifiers).1 ∧
      Agree (visitor.define kind modifiers).2
        (other.define kind modifiers).2 := by
  unfold Visitor.define
  have needed := concurs.need .identifier
  generalize visitor.need .identifier = step at needed ⊢
  generalize other.need .identifier = again at needed ⊢
  obtain ⟨outcome, concurs⟩ := needed
  cases outcome with
  | finished => exact ⟨rfl, concurs.declare kind modifiers⟩
  | _ => exact ⟨rfl, .intro _ concurs⟩

end Concurs

section Follow

variable {enter : Procedure → Visitor → Outcome × Visitor}
  {visitor other : Visitor}

/-- The two ways through a procedure are alike, and so is what is kept on them. -/
inductive Accord : Outcome × Locals × Visitor → Outcome × Locals × Visitor →
    Prop where
  | intro (outcome : Outcome) (locals : Locals) {after behind : Visitor}
    (concurs : Concurs after behind) :
    Accord (outcome, locals, after) (outcome, locals, behind)

theorem Agree.accord {step other : Outcome × Visitor}
    (agree : Agree step other) (locals : Locals) :
    Accord (step.1, locals, step.2) (other.1, locals, other.2) := by
  obtain ⟨outcome, concurs⟩ := agree
  exact .intro outcome locals concurs

theorem accord_follow
    (enters : ∀ procedure visitor other, Concurs visitor other →
      Agree (enter procedure visitor) (enter procedure other))
    (procedure : Procedure) (locals : Locals)
    (concurs : Concurs visitor other) :
    Accord (follow enter procedure locals visitor)
      (follow enter procedure locals other) := by
  induction procedure generalizing locals visitor other with
  | seq first next front back =>
      have accord := front locals concurs
      rw [follow, follow]
      generalize follow enter first locals visitor = followed at accord ⊢
      generalize follow enter first locals other = again at accord ⊢
      obtain ⟨outcome, kept, concurs⟩ := accord
      cases outcome with
      | finished => exact back kept concurs
      | _ => exact .intro _ kept concurs
  | accept candidates found missing there absent =>
      rw [follow, follow, concurs.cursor_eq]
      cases visitor.cursor.take? candidates with
      | some taken => exact there locals (concurs.moveTo taken.2)
      | none => exact absent locals concurs
  | branch test holds fails here away =>
      rw [follow, follow, concurs.cursor_eq]
      split
      · exact here locals concurs
      · exact away locals concurs
  | attempt body induction =>
      have accord := induction {} concurs
      rw [follow, follow]
      generalize follow enter body {} visitor = followed at accord ⊢
      generalize follow enter body {} other = again at accord ⊢
      obtain ⟨outcome, kept, concurs⟩ := accord
      exact .intro _ _ concurs
  | define kind modifiers =>
      obtain ⟨outcome_eq, agree⟩ := concurs.define kind modifiers
      rw [follow, follow]
      generalize visitor.define kind modifiers = defined at outcome_eq agree ⊢
      generalize other.define kind modifiers = again at outcome_eq agree ⊢
      obtain ⟨outcome, step⟩ := defined
      obtain ⟨same, step'⟩ := again
      obtain rfl : same = outcome := outcome_eq
      obtain ⟨definition, concurs⟩ := agree
      exact .intro _ _ concurs
  | absorb resumption =>
      rw [follow, follow, concurs.cursor_eq]
      exact .intro _ _ concurs
  | statement block =>
      rw [follow, follow, concurs.cursor_eq]
      split
      · exact .intro _ _ concurs
      · exact (enters _ _ _ concurs).accord locals
      · exact .intro _ _ (concurs.complain _)
  | call nonterminal => exact (enters _ _ _ concurs).accord locals
  | need expected => exact (concurs.need expected).accord locals
  | expect candidates => exact (concurs.expect candidates).accord locals
  | advance => exact (concurs.advance _).accord locals
  | complain complaint => exact .intro _ _ (concurs.complain complaint)
  | strings => exact .intro _ _ concurs.strings
  | resolve => exact .intro _ _ concurs.resolve
  | openParameters => exact .intro _ _ (concurs.openScope _ _)
  | closeScope => exact .intro _ _ (concurs.closeScope _)
  | popScope => exact .intro _ _ concurs.popScope
  | done | conclude => exact .intro _ _ concurs

end Follow

/-- Under all options the same steps are made. -/
theorem agree_run (depth : Nat) (procedure : Procedure) {visitor other : Visitor}
    (concurs : Concurs visitor other) :
    Agree (run depth procedure visitor) (run depth procedure other) := by
  induction depth generalizing procedure visitor other with
  | zero => exact .intro _ concurs
  | succ depth induction =>
      have accord := accord_follow (fun procedure _ _ => induction procedure)
        procedure {} concurs
      rw [run, run]
      generalize follow (run depth) procedure {} visitor = followed at accord ⊢
      generalize follow (run depth) procedure {} other = again at accord ⊢
      obtain ⟨outcome, kept, concurs⟩ := accord
      exact .intro _ concurs

theorem agree_statements (depth turns : Nat) {visitor other : Visitor}
    (concurs : Concurs visitor other) :
    Agree (statements (fun _ => false) depth turns visitor)
      (statements (fun _ => false) depth turns other) := by
  induction turns generalizing visitor other with
  | zero => exact .intro _ concurs
  | succ turns induction =>
      have agree := agree_run depth (.statement .document) concurs
      rw [statements, statements, if_neg Bool.false_ne_true,
        if_neg Bool.false_ne_true]
      generalize run depth (.statement .document) visitor = step at agree ⊢
      generalize run depth (.statement .document) other = again at agree ⊢
      obtain ⟨outcome, concurs⟩ := agree
      have settled := concurs.settle
      cases outcome with
      | ended => exact .intro _ settled
      | _ =>
          dsimp only
          rw [settled.cursor_eq]
          split
          · exact induction (settled.moveTo _)
          · exact .intro _ settled

theorem agree_document {visitor other : Visitor}
    (concurs : Concurs visitor other) :
    Agree (document (fun _ => false) visitor)
      (document (fun _ => false) other) := by
  unfold document
  dsimp only
  rw [concurs.cursor_eq]
  split
  · exact .intro _ concurs
  · exact agree_statements _ _ concurs

theorem Concurs.ofVisitor_eq {visitor other : Visitor}
    (concurs : Concurs visitor other) :
    Analysis.ofVisitor other =
      { Analysis.ofVisitor visitor with diagnostics := other.sink.toList } := by
  cases concurs
  rfl

end Visitor

/-- Options decide about nothing but the diagnostics. -/
theorem analyze_eq_with_diagnostics (first second : Options)
    (tokens : List Token) :
    analyze second tokens =
      { analyze first tokens with
        diagnostics := (analyze second tokens).diagnostics } := by
  have started : Visitor.Concurs (.start first (.limited first) tokens)
      (.start second (.limited second) tokens) := .intro second _
  have agree := Visitor.agree_document started
  unfold analyze
  dsimp only
  generalize Visitor.document _ (.start first _ tokens) = visited at agree ⊢
  generalize Visitor.document _ (.start second _ tokens) = again at agree ⊢
  obtain ⟨_, concurs⟩ := agree
  exact concurs.ofVisitor_eq

end ComponentLang
