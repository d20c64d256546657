import ComponentLang.Grammar.Procedure
import ComponentLang.Visitor.State

namespace ComponentLang

/-- What is kept while a procedure is followed. -/
structure Locals where
  definition : DefinedName := {}
  /-- How the body that was attempted last ended. -/
  body : Outcome := .finished
  deriving DecidableEq, Repr

/-- The body that was given up counts as finished if it can be resumed. -/
def Outcome.absorb (outcome : Outcome) (resumes : Bool) : Outcome :=
  match outcome with
  | .abandoned line => if resumes then .finished else .abandoned line
  | other => other

namespace Visitor

def anonymousParameters : String :=
  "<params>"

/-- Follows a procedure step by step. `enter` follows the procedures that it
calls. -/
def follow (enter : Procedure → Visitor → Outcome × Visitor) :
    Procedure → Locals → Visitor → Outcome × Locals × Visitor
  | .done, locals, visitor => (.finished, locals, visitor)
  | .seq first next, locals, visitor =>
      match follow enter first locals visitor with
      | (.finished, locals, visitor) => follow enter next locals visitor
      | stopped => stopped
  | .need expected, locals, visitor =>
      let (outcome, visitor) := visitor.need expected
      (outcome, locals, visitor)
  | .expect candidates, locals, visitor =>
      let (outcome, visitor) := visitor.expect candidates
      (outcome, locals, visitor)
  | .accept candidates found missing, locals, visitor =>
      match visitor.cursor.take? candidates with
      | some (_, cursor) => follow enter found locals (visitor.moveTo cursor)
      | none => follow enter missing locals visitor
  | .advance, locals, visitor =>
      let (outcome, visitor) :=
        visitor.advance (.oneOf [Operator.rightBrace])
      (outcome, locals, visitor)
  | .branch test holds fails, locals, visitor =>
      if visitor.cursor.holds test then follow enter holds locals visitor
      else follow enter fails locals visitor
  | .complain complaint, locals, visitor =>
      (.finished, locals, visitor.complain complaint)
  | .strings, locals, visitor => (.finished, locals, visitor.strings)
  | .resolve, locals, visitor => (.finished, locals, visitor.resolve)
  | .define kind modifiers, locals, visitor =>
      let (outcome, definition, visitor) := visitor.define kind modifiers
      (outcome, { locals with definition }, visitor)
  | .openParameters, locals, visitor =>
      (.finished, locals,
        visitor.openScope (locals.definition.name.getD anonymousParameters)
          .nil)
  | .attempt body, locals, visitor =>
      let (outcome, _, visitor) := follow enter body {} visitor
      (.finished, { locals with body := outcome }, visitor)
  | .absorb resumption, locals, visitor =>
      (.finished,
        { locals with
          body := locals.body.absorb (visitor.cursor.resumes resumption) },
        visitor)
  | .closeScope, locals, visitor =>
      (.finished, locals, visitor.closeScope locals.definition.opened)
  | .popScope, locals, visitor => (.finished, locals, visitor.popScope)
  | .conclude, locals, visitor => (locals.body, locals, visitor)
  | .statement block, locals, visitor =>
      match visitor.cursor.beginning block with
      | .nothing => (.finished, locals, visitor)
      | .statement statement =>
          let (outcome, visitor) := enter statement.procedure visitor
          (outcome, locals, visitor)
      | .unexpected =>
          (.finished, locals, visitor.complain .unexpectedToken)
  | .call nonterminal, locals, visitor =>
      let (outcome, visitor) := enter nonterminal.procedure visitor
      (outcome, locals, visitor)

theorem follow_seq {enter : Procedure → Visitor → Outcome × Visitor}
    {first : Procedure} {locals kept : Locals} {visitor after : Visitor}
    {outcome : Outcome}
    (first_eq : follow enter first locals visitor = (outcome, kept, after))
    (next : Procedure) :
    follow enter (.seq first next) locals visitor =
      if outcome = .finished then follow enter next kept after
      else (outcome, kept, after) := by
  rw [follow, first_eq]
  cases outcome <;> rfl

/-- Follows a procedure, with calls at most `depth` deep. -/
def run : Nat → Procedure → Visitor → Outcome × Visitor
  | 0, _, visitor => (.exhausted, visitor)
  | depth + 1, procedure, visitor =>
      let (outcome, _, visitor) := follow (run depth) procedure {} visitor
      (outcome, visitor)

/-- A depth that no statement of a document with `size` tokens goes beyond. -/
def depthFor (size : Nat) : Nat :=
  64 * (3 * size + 4)

/-- Visits the statements of a document from the current token on. `stop` is
asked before each; the answer tells whether the end was reached. Every turn takes
a token, so `turns` need only be as large as the number of tokens. -/
def statements (stop : Visitor → Bool) (depth : Nat) :
    Nat → Visitor → Bool × Visitor
  | 0, visitor => (true, visitor)
  | turns + 1, visitor =>
      if stop visitor then (false, visitor)
      else
        match run depth (.statement .document) visitor with
        | (.ended, visitor) => (true, visitor.settle)
        | (_, visitor) =>
            match visitor.settle.cursor.next? with
            | some (_, cursor) =>
                statements stop depth turns (visitor.settle.moveTo cursor)
            | none => (true, visitor.settle)

/-- Visits a whole document. Without tokens there is nothing to stop. -/
def document (stop : Visitor → Bool) (visitor : Visitor) : Bool × Visitor :=
  let size := visitor.cursor.size
  if visitor.cursor.isEmpty then (true, visitor)
  else statements stop (depthFor size) size visitor

end Visitor

end ComponentLang
