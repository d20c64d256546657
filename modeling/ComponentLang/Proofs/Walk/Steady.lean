import ComponentLang.Proofs.Grammar.Lookahead
import ComponentLang.Proofs.Walk.Invariants

namespace ComponentLang.Walk

structure SteadyInvariant (holds : Bool → Walk → Prop) : Prop extends
    Invariant holds where
  reported : holds fresh walk → holds fresh (walk.report cause anchor)
  passed : holds false walk → holds false walk.strings

theorem steady_const (fact : Prop) : SteadyInvariant fun _ _ => fact where
  weaken := id
  scopes := id
  next here _ := here
  ended here _ := here
  abandoned here _ := here
  report here _ _ := here
  rescue here _ := here
  strings := id
  resolve := id
  declare _ := id
  reported := id
  passed := id

namespace SteadyInvariant

variable {holds : Bool → Walk → Prop} {walk : Walk} {fresh : Bool}
  {step : Outcome × Walk}

/-- What is known already without regard to the current token stays true when a
rule leaves that token as it is. -/
theorem forgo (inv : SteadyInvariant holds) {rule : Rule}
    (forgoes : rule.forgoes) (here : holds false walk) (fuel : Nat) :
    holds false (Walk.run fuel rule walk).2 := by
  unfold Rule.forgoes at forgoes
  split at forgoes
  · cases fuel with
    | zero => exact here
    | succ fuel => exact inv.passed here
  · next next =>
      rcases fuel with _ | _ | fuel
      · exact here
      · exact here
      · exact inv.any (inv.run (fuel + 1) next walk.strings false forgoes
          (inv.passed here))
  · exact inv.any (inv.run fuel rule walk false forgoes here)

theorem seq (inv : SteadyInvariant holds) {fuel : Nat} {next : Rule}
    (speaks : next.speaksFresh fresh)
    (here : holds (fresh && step.1 == .finished) step.2) :
    holds false
      (match step with
        | (.finished, after) => Walk.run fuel next after
        | stopped => stopped).2 := by
  obtain ⟨outcome, after⟩ := step
  cases outcome with
  | finished =>
      rw [show (Outcome.finished == Outcome.finished) = true from rfl,
        Bool.and_true] at here
      exact inv.any (inv.run fuel next after fresh speaks here)
  | abandoned line => exact inv.any here
  | ended => exact inv.any here
  | exhausted => exact inv.any here

theorem resume (inv : SteadyInvariant holds) (fuel line : Nat)
    (resumption : Resumption) {resumed : Rule}
    (speaks : resumed.speaksFresh false) (here : holds false walk) :
    holds false
      (if walk.resumes resumption then Walk.run fuel resumed walk
        else (.abandoned line, walk)).2 := by
  split
  · exact inv.any (inv.run fuel resumed walk false speaks here)
  · exact here

theorem recover (inv : SteadyInvariant holds) {fuel : Nat}
    {resumption : Resumption} {next resumed : Rule}
    (next_speaks : next.speaksFresh false)
    (resumed_speaks : resumed.speaksFresh false) (here : holds fresh step.2) :
    holds false
      (match step with
        | (.finished, after) => Walk.run fuel next after
        | (.abandoned line, after) =>
            if after.resumes resumption then Walk.run fuel resumed after
            else (.abandoned line, after)
        | stopped => stopped).2 := by
  obtain ⟨outcome, after⟩ := step
  have stays := inv.any here
  cases outcome with
  | finished => exact inv.any (inv.run fuel next after false next_speaks stays)
  | abandoned line => exact inv.resume fuel line resumption resumed_speaks stays
  | ended => exact stays
  | exhausted => exact stays

theorem parameters (inv : SteadyInvariant holds) (fuel : Nat)
    (name : Option String) (here : holds false walk) :
    holds false
      (match walk.cursor.take? [Operator.leftParen] with
        | some (_, cursor) =>
            let listed := Walk.run fuel (.call .parameters)
              ((walk.moveTo cursor).openScope (parameterScope name) .nil)
            (listed.1, listed.2.closeScope)
        | none => (.finished, walk)).2 := by
  split
  · next terminal cursor take_eq =>
      have taken := inv.openScope (inv.take here take_eq) (parameterScope name)
        .nil
      exact inv.closeScope (inv.any (inv.run fuel (.call .parameters) _ true rfl
        taken))
  · exact here

theorem begins (inv : SteadyInvariant holds) (fuel : Nat) (block : Block)
    (here : holds false walk) :
    holds false (Walk.run fuel (.statement block) walk).2 := by
  cases fuel with
  | zero => exact here
  | succ fuel =>
      rw [Walk.run]
      cases walk.beginning block with
      | nothing => exact here
      | statement statement =>
          exact inv.any (inv.run fuel statement.rule walk false
            statement.speaksFresh_rule here)
      | unexpected =>
          simp only [Walk.complain]
          split
          · exact here
          · exact inv.reported here

theorem goOn (inv : SteadyInvariant holds) (here : holds false walk)
    (steps fuel : Nat) :
    holds false
      (match walk.cursor.next? with
        | some (_, cursor) =>
            Walk.statements (fun _ => false) steps fuel (walk.moveTo cursor)
        | none => (true, walk)).2 := by
  split
  · next token cursor next_eq =>
      exact inv.statements _ steps fuel (inv.next here next_eq)
  · exact here

theorem turn (inv : SteadyInvariant holds) (here : holds false step.2)
    (steps fuel : Nat) :
    holds false
      (if step.1 = .ended then (true, step.2.settle)
        else furtherStatements steps fuel step.2).2 := by
  have settled := inv.settle here
  split
  · exact settled
  · exact inv.goOn settled steps fuel

end SteadyInvariant

end ComponentLang.Walk
