import ComponentLang.Grammar.Procedure

namespace ComponentLang

/-- What a production has opened and is still to close. -/
inductive Pending where
  | nothing
  /-- The scope of the definition that is kept, if that opened one. -/
  | definition
  | parameters
  deriving DecidableEq, Repr

namespace Procedure

/-- What is pending behind a procedure. There is no answer if it can end early
with something pending, closes what is not, or leaves it open on one way only. -/
def leaves : Procedure → Pending → Option Pending
  | .seq first next, pending => (first.leaves pending).bind next.leaves
  | .accept _ found missing, pending =>
      if found.leaves pending = missing.leaves pending then
        found.leaves pending
      else none
  | .branch _ holds fails, pending =>
      if holds.leaves pending = fails.leaves pending then holds.leaves pending
      else none
  | .attempt body, pending =>
      if body.leaves .nothing = some .nothing then some pending else none
  | .define kind _, .nothing =>
      some (if kind.opensScope then .definition else .nothing)
  | .closeScope, .definition => some .nothing
  | .openParameters, .nothing => some .parameters
  | .popScope, .parameters => some .nothing
  | .define _ _, _ | .closeScope, _ | .openParameters, _ | .popScope, _ => none
  | .done, pending | .complain _, pending | .strings, pending
  | .resolve, pending | .absorb _, pending => some pending
  | .need _, pending | .expect _, pending | .advance, pending
  | .conclude, pending | .statement _, pending | .call _, pending =>
      if pending = .nothing then some .nothing else none

def IsBalanced (procedure : Procedure) : Prop :=
  procedure.leaves .nothing = some .nothing

instance (procedure : Procedure) : Decidable procedure.IsBalanced :=
  inferInstanceAs (Decidable (_ = _))

/-- The bodies that are attempted on the way. -/
def attempted : Procedure → List Procedure
  | .attempt body => body :: body.attempted
  | .seq first next => first.attempted ++ next.attempted
  | .accept _ found missing => found.attempted ++ missing.attempted
  | .branch _ holds fails => holds.attempted ++ fails.attempted
  | _ => []

/-- A production of the grammar, from its first step to its last. -/
inductive IsProduction : Procedure → Prop
  | statement (statement : Statement) : IsProduction statement.procedure
  | nonterminal (nonterminal : Nonterminal) : IsProduction nonterminal.procedure
  | member (block : Block) : IsProduction (.statement block)
  /-- The body of a definition, and the element of a list. -/
  | body {whole body : Procedure} (production : whole.IsProduction)
      (attempts : body ∈ whole.attempted) : IsProduction body
  | parameters : IsProduction parameterList
  | typeName : IsProduction typeName
  | string : IsProduction string
  | reference : IsProduction reference
  | qualifiedName : IsProduction qualifiedName
  | connectionEnd : IsProduction connectionEnd

theorem leaves_of_agree {found missing : Option Pending} {left : Pending}
    (agree : (if found = missing then found else none) = some left) :
    found = some left ∧ missing = some left := by
  split at agree
  · next same => exact ⟨agree, same ▸ agree⟩
  · cases agree

/-- Whatever a procedure attempts is balanced in itself. -/
theorem isBalanced_of_mem_attempted {procedure body : Procedure}
    {pending left : Pending} (leaves_eq : procedure.leaves pending = some left)
    (attempts : body ∈ procedure.attempted) : body.IsBalanced := by
  induction procedure generalizing pending left with
  | seq first next front back =>
      obtain ⟨middle, first_eq, next_eq⟩ := Option.bind_eq_some_iff.mp leaves_eq
      rcases List.mem_append.mp attempts with there | there
      · exact front first_eq there
      · exact back next_eq there
  | accept _ found missing one other =>
      obtain ⟨found_eq, missing_eq⟩ := leaves_of_agree leaves_eq
      rcases List.mem_append.mp attempts with there | there
      · exact one found_eq there
      · exact other missing_eq there
  | branch _ holds fails one other =>
      obtain ⟨holds_eq, fails_eq⟩ := leaves_of_agree leaves_eq
      rcases List.mem_append.mp attempts with there | there
      · exact one holds_eq there
      · exact other fails_eq there
  | attempt inner induction =>
      rw [leaves] at leaves_eq
      split at leaves_eq
      · next balanced =>
          rcases List.mem_cons.mp attempts with rfl | there
          · exact balanced
          · exact induction balanced there
      · cases leaves_eq
  | _ => cases attempts

end Procedure

open Procedure

theorem Statement.isBalanced_procedure (statement : Statement) :
    statement.procedure.IsBalanced := by
  cases statement with
  | command async => cases async <;> decide
  | componentInstance isPrivate => cases isPrivate <;> decide
  | portInstance role =>
      cases role with
      | input async => cases async <;> decide
      | _ => decide
  | _ => decide

theorem Nonterminal.isBalanced_procedure (nonterminal : Nonterminal) :
    nonterminal.procedure.IsBalanced := by
  cases nonterminal with
  | members block => cases block <;> decide
  | _ => decide

theorem Procedure.IsProduction.isBalanced {procedure : Procedure}
    (production : procedure.IsProduction) : procedure.IsBalanced := by
  induction production with
  | statement statement => exact statement.isBalanced_procedure
  | nonterminal nonterminal => exact nonterminal.isBalanced_procedure
  | body _ attempts induction =>
      exact isBalanced_of_mem_attempted induction attempts
  | member => rfl
  | parameters | typeName | string | reference | qualifiedName
  | connectionEnd => decide

end ComponentLang
