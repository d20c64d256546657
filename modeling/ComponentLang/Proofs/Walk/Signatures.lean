import ComponentLang.Proofs.Grammar.Signatures
import ComponentLang.Proofs.Walk.Occurrences

namespace ComponentLang

/-- A name with a list of parameters: the token that stands for the name, the
scopes that are open there, outermost first, and where the parameters are
defined. -/
structure Signature where
  token : Token
  scopes : List String
  parameters : List Occurrence
  deriving DecidableEq, Repr

def Signature.name? (signature : Signature) : Option String :=
  if Literal.isIdentifier signature.token.text then
    some (Literal.nameOf signature.token.text)
  else none

theorem Signature.isPlainName_of_name? {signature : Signature} {name : String}
    (named : signature.name? = some name) :
    Literal.isPlainName name.toList := by
  unfold name? at named
  split at named
  · next identifier =>
      cases named
      exact Literal.isPlainName_nameOf identifier
  · cases named

theorem Signature.name?_eq_of_parameterScope {first second : Signature}
    (same : Walk.parameterScope first.name? =
      Walk.parameterScope second.name?) : first.name? = second.name? := by
  have shared {signature : Signature} {name : String}
      (named : signature.name? = some name) :
      name ≠ Walk.parameterScope none := by
    rintro rfl
    exact absurd (isPlainName_of_name? named) (by decide)
  cases first_eq : first.name? with
  | none =>
      cases second_eq : second.name? with
      | none => rfl
      | some name =>
          rw [first_eq, second_eq] at same
          exact absurd same.symm (shared second_eq)
  | some name =>
      cases second_eq : second.name? with
      | none =>
          rw [first_eq, second_eq] at same
          exact absurd same (shared first_eq)
      | some other =>
          rw [first_eq, second_eq] at same
          exact congrArg some same

namespace Visit

open Walk

def signature? (visit : Visit) : Option Signature :=
  match visit with
  | ⟨fuel + 1, .signature kind modifiers, walk⟩ =>
      match walk.need .identifier with
      | (.finished, taken) =>
          taken.cursor.current?.map fun token =>
            ⟨token, walk.scopes.names,
              (parts ⟨fuel + 1, .signature kind modifiers, walk⟩).flatMap
                occurrences⟩
      | _ => none
  | _ => none

end Visit

def Walk.signatures (tokens : List Token) : List Signature :=
  (visits tokens).filterMap Visit.signature?

namespace Visit

open Walk

/-! What is defined in a list of parameters. -/

theorem each_of_part {test : Rule → Bool}
    (calls : ∀ nonterminal, test (.call nonterminal) →
      nonterminal.rule.each test)
    (statements : ∀ block, test (.statement block) →
      ∀ statement : Statement, statement.rule.each test)
    (parameters : ∀ kind modifiers, test (.signature kind modifiers) →
      test (.call .parameters))
    {visit part : Visit} (member : part ∈ visit.parts)
    (all : visit.rule.each test) : part.rule.each test := by
  cases Part.of_mem member with
  | statement => exact statements _ all _
  | call => exact calls _ all
  | signature => exact parameters _ _ all
  | _ =>
      simp only [Rule.each, Bool.and_eq_true] at all
      simp only [all]

/-- Parameters alone are defined here, in these scopes. -/
def IsAmongParameters (scopes : List Scope) (visit : Visit) : Prop :=
  visit.rule.each Rule.definesParameters ∧ visit.walk.scopes.inner = scopes

theorem isAmongParameters_of_part {scopes : List Scope} {visit part : Visit}
    (among : IsAmongParameters scopes visit) (member : part ∈ visit.parts) :
    IsAmongParameters scopes part := by
  obtain ⟨all, inner_eq⟩ := among
  have part_all : part.rule.each Rule.definesParameters := by
    refine each_of_part ?_ ?_ ?_ member all
    · exact fun _ => Nonterminal.definesParameters_rule
    · exact fun _ none => by cases none
    · exact fun _ _ none => by cases none
  have ran {fuel : Nat} {rule : Rule} {walk after : Walk} {outcome : Outcome}
      (run_eq : run fuel rule walk = (outcome, after)) :
      after.scopes.inner = walk.scopes.inner := by
    have kept := (balanced_run fuel rule walk).inner
    rwa [run_eq] at kept
  refine ⟨part_all, ?_⟩
  rw [← inner_eq]
  cases Part.of_mem member with
  | next finished => exact ran finished
  | further finished => exact ran finished
  | resumed abandoned _ => exact ran abandoned
  | @opening _ kind _ _ _ _ _ _ defined opens =>
      have parameter : (kind == .parameter) = true := Rule.test_of_each all
      rw [beq_iff_eq.mp parameter] at opens
      cases opens
  | plain defined _ => exact (balanced_define defined).inner
  | signature =>
      have none := Rule.test_of_each all
      cases none
  | _ => rfl

theorem of_mem_occurrences {scopes : List Scope} {visit : Visit}
    (among : IsAmongParameters scopes visit) {occurrence : Occurrence}
    (member : occurrence ∈ visit.occurrences) :
    occurrence.kind = .parameter ∧
      occurrence.scopes = scopes.reverse.map (·.name) := by
  obtain ⟨inner, within, found⟩ := List.mem_filterMap.mp member
  have handed : ∀ visit, IsAmongParameters scopes visit →
      ∀ part ∈ visit.parts, IsAmongParameters scopes part :=
    fun _ among _ => isAmongParameters_of_part among
  obtain ⟨all, inner_eq⟩ := of_mem_within handed within among
  have test := Rule.test_of_each all
  unfold occurrence? at found
  split at found
  · obtain ⟨token, taken, -, -, -, rfl⟩ := exists_of_occurrence? found
    exact ⟨beq_iff_eq.mp test, by rw [ScopeStack.names, inner_eq]⟩
  · cases test
  · cases found

end Visit

namespace Walk

open TokenCursor

variable {tokens : List Token} {signature : Signature}

theorem define_of_need {walk taken : Walk} {token : Token}
    (need_eq : walk.need .identifier = (.finished, taken))
    (there : taken.cursor.current? = some token) (kind : TokenKind)
    (modifiers : Modifiers) :
    (walk.define kind modifiers).2.1 =
      if Literal.isIdentifier token.text then some (Literal.nameOf token.text)
      else none := by
  simp only [define, need_eq, declare, there]
  cases Literal.isIdentifier token.text <;> rfl

theorem exists_of_mem_signatures (member : signature ∈ signatures tokens) :
    ∃ fuel kind modifiers walk taken,
      ⟨fuel + 1, .signature kind modifiers, walk⟩ ∈ visits tokens ∧
      walk.need .identifier = (.finished, taken) ∧
      taken.cursor.current? = some signature.token ∧
      signature.scopes = walk.scopes.names ∧
      signature.parameters = (Visit.parts ⟨fuel + 1,
        .signature kind modifiers, walk⟩).flatMap Visit.occurrences := by
  obtain ⟨visit, among, found⟩ := List.mem_filterMap.mp member
  unfold Visit.signature? at found
  split at found
  · next fuel kind modifiers walk =>
      split at found
      · next taken need_eq =>
          obtain ⟨token, there, rfl⟩ := Option.map_eq_some_iff.mp found
          exact ⟨fuel, kind, modifiers, walk, taken, among, need_eq, there,
            rfl, rfl⟩
      · cases found
  · cases found

theorem of_mem_parameters (member : signature ∈ signatures tokens)
    {occurrence : Occurrence} (parameter : occurrence ∈ signature.parameters) :
    occurrence ∈ occurrences tokens ∧ occurrence.kind = .parameter ∧
      occurrence.scopes =
        signature.scopes ++ [parameterScope signature.name?] := by
  obtain ⟨fuel, kind, modifiers, walk, taken, among, need_eq, there,
    scopes_eq, parameters_eq⟩ := exists_of_mem_signatures member
  rw [parameters_eq] at parameter
  obtain ⟨part, here, inside⟩ := List.mem_flatMap.mp parameter
  refine ⟨?_, ?_⟩
  · obtain ⟨inner, within, found⟩ := List.mem_filterMap.mp inside
    refine List.mem_filterMap.mpr ⟨inner, ?_, found⟩
    exact mem_visits_of_mem_within among
      (Visit.within_of_mem_parts here within)
  · cases Visit.Part.of_mem here with
    | @signature _ _ _ _ after name _ cursor defined _ =>
        have name_eq : name = signature.name? := by
          have answer := define_of_need need_eq there kind modifiers
          rwa [defined] at answer
        have inner_eq : after.scopes.inner = walk.scopes.inner :=
          (balanced_define defined).inner
        have opened : Visit.IsAmongParameters
            (⟨parameterScope name, .nil⟩ :: walk.scopes.inner)
            ⟨fuel, .call .parameters, (after.moveTo cursor).openScope
              (parameterScope name) .nil⟩ :=
          ⟨rfl, congrArg _ inner_eq⟩
        obtain ⟨kind_eq, names_eq⟩ := Visit.of_mem_occurrences opened inside
        refine ⟨kind_eq, ?_⟩
        rw [names_eq, scopes_eq, ScopeStack.names, List.reverse_cons,
          List.map_append, name_eq]
        rfl

theorem signsNoModule_of_mem_visits {visit : Visit}
    (member : visit ∈ visits tokens) :
    visit.rule.each Rule.signsNoModule := by
  obtain ⟨whole, among, inside⟩ := List.mem_flatMap.mp member
  obtain ⟨-, -, rule_eq, -⟩ := mem_statementVisits among
  have outer : whole.rule.each Rule.signsNoModule := by
    rw [rule_eq]
    rfl
  have handed : ∀ visit : Visit, visit.rule.each Rule.signsNoModule →
      ∀ part ∈ visit.parts, part.rule.each Rule.signsNoModule := by
    intro visit all part here
    refine Visit.each_of_part ?_ ?_ ?_ here all
    · exact fun nonterminal _ => nonterminal.signsNoModule_rule
    · exact fun _ _ statement => statement.signsNoModule_rule
    · exact fun _ _ _ => rfl
  exact Visit.of_mem_within handed inside outer

theorem exists_of_name? (member : signature ∈ signatures tokens) {name : String}
    (named : signature.name? = some name) :
    ∃ occurrence ∈ occurrences tokens, occurrence.token = signature.token ∧
      occurrence.name = name ∧ occurrence.scopes = signature.scopes ∧
      occurrence.kind ≠ .namespace := by
  obtain ⟨fuel, kind, modifiers, walk, taken, among, need_eq, there,
    scopes_eq, -⟩ := exists_of_mem_signatures member
  have no_module := Rule.test_of_each (signsNoModule_of_mem_visits among)
  unfold Signature.name? at named
  split at named
  · next identifier =>
      refine ⟨⟨signature.token, kind, modifiers, walk.scopes.names⟩, ?_, rfl,
        Option.some.inj named, scopes_eq.symm, bne_iff_ne.mp no_module⟩
      refine List.mem_filterMap.mpr ⟨_, among, ?_⟩
      simp only [Visit.occurrence?, occurrence?, need_eq, there,
        Option.filter_some, identifier]
      rfl
  · cases named

end Walk

end ComponentLang
