import ComponentLang.Proofs.Token.Passing
import ComponentLang.Proofs.Walk.Steps
import Mathlib.Data.List.Basic

namespace ComponentLang

/-- A rule that is followed from a walk on. -/
structure Visit where
  fuel : Nat
  rule : Rule
  walk : Walk

namespace Visit

open Walk

def result (visit : Visit) : Outcome × Walk :=
  run visit.fuel visit.rule visit.walk

def parts (visit : Visit) : List Visit :=
  match visit with
  | ⟨0, _, _⟩ => []
  | ⟨fuel + 1, rule, walk⟩ =>
      match rule with
      | .seq first next =>
          ⟨fuel, first, walk⟩ ::
            match run fuel first walk with
            | (.finished, after) => [⟨fuel, next, after⟩]
            | _ => []
      | .accept candidates found missing =>
          match walk.cursor.take? candidates with
          | some (_, cursor) => [⟨fuel, found, walk.moveTo cursor⟩]
          | none => [⟨fuel, missing, walk⟩]
      | .branch test holds fails =>
          [⟨fuel, if walk.holds test then holds else fails, walk⟩]
      | .define kind modifiers body =>
          match walk.define kind modifiers with
          | (.finished, name, after) =>
              match openedScope kind name with
              | some name => [⟨fuel, body, after.openScope name kind⟩]
              | none => [⟨fuel, body, after⟩]
          | _ => []
      | .signature kind modifiers =>
          match walk.define kind modifiers with
          | (.finished, name, after) =>
              match after.cursor.take? [Operator.leftParen] with
              | some (_, cursor) =>
                  [⟨fuel, .call .parameters,
                    (after.moveTo cursor).openScope (parameterScope name)
                      .nil⟩]
              | none => []
          | _ => []
      | .recover resumption body next resumed =>
          ⟨fuel, body, walk⟩ ::
            match run fuel body walk with
            | (.finished, after) => [⟨fuel, next, after⟩]
            | (.abandoned _, after) =>
                if after.resumes resumption then [⟨fuel, resumed, after⟩]
                else []
            | _ => []
      | .statement block =>
          match walk.beginning block with
          | .statement statement => [⟨fuel, statement.rule, walk⟩]
          | _ => []
      | .call nonterminal => [⟨fuel, nonterminal.rule, walk⟩]
      | _ => []

def withinTo (visit : Visit) : Nat → List Visit
  | 0 => [visit]
  | depth + 1 => visit :: visit.parts.flatMap fun part => part.withinTo depth

/-- The visit and all that happens within it. -/
def within (visit : Visit) : List Visit :=
  visit.withinTo visit.fuel

end Visit

namespace Walk

/-- The walks from which the statements of a document are visited. -/
def statementStarts (steps : Nat) : Nat → Walk → List Walk
  | 0, _ => []
  | fuel + 1, walk =>
      walk ::
        match run steps (.statement .document) walk with
        | (.ended, _) => []
        | (_, after) =>
            match after.settle.cursor.next? with
            | some (_, cursor) =>
                statementStarts steps fuel (after.settle.moveTo cursor)
            | none => []

def statementVisits (tokens : List Token) : List Visit :=
  if tokens.isEmpty then []
  else
    (statementStarts (allowance tokens.length) tokens.length
      (start tokens)).map fun walk =>
        ⟨allowance tokens.length, .statement .document, walk⟩

/-- All that is visited in a document. -/
def visits (tokens : List Token) : List Visit :=
  (statementVisits tokens).flatMap Visit.within

end Walk

namespace Visit

open Walk

/-- How a visit comes to each of its parts. -/
inductive Part : Visit → Visit → Prop where
  | first {fuel : Nat} {front back : Rule} {walk : Walk} :
      Part ⟨fuel + 1, .seq front back, walk⟩ ⟨fuel, front, walk⟩
  | next {fuel : Nat} {front back : Rule} {walk after : Walk}
      (finished : run fuel front walk = (.finished, after)) :
      Part ⟨fuel + 1, .seq front back, walk⟩ ⟨fuel, back, after⟩
  | found {fuel : Nat} {candidates : List Terminal} {found missing : Rule}
      {walk : Walk} {terminal : Terminal} {cursor : TokenCursor}
      (taken : walk.cursor.take? candidates = some (terminal, cursor)) :
      Part ⟨fuel + 1, .accept candidates found missing, walk⟩
        ⟨fuel, found, walk.moveTo cursor⟩
  | missing {fuel : Nat} {candidates : List Terminal} {found missing : Rule}
      {walk : Walk} (absent : walk.cursor.take? candidates = none) :
      Part ⟨fuel + 1, .accept candidates found missing, walk⟩
        ⟨fuel, missing, walk⟩
  | holding {fuel : Nat} {test : Test} {holds fails : Rule} {walk : Walk}
      (here : walk.holds test) :
      Part ⟨fuel + 1, .branch test holds fails, walk⟩ ⟨fuel, holds, walk⟩
  | failing {fuel : Nat} {test : Test} {holds fails : Rule} {walk : Walk}
      (away : ¬walk.holds test) :
      Part ⟨fuel + 1, .branch test holds fails, walk⟩ ⟨fuel, fails, walk⟩
  | opening {fuel : Nat} {kind : TokenKind} {modifiers : Modifiers}
      {body : Rule} {walk after : Walk} {name : Option String} {scope : String}
      (defined : walk.define kind modifiers = (.finished, name, after))
      (opens : openedScope kind name = some scope) :
      Part ⟨fuel + 1, .define kind modifiers body, walk⟩
        ⟨fuel, body, after.openScope scope kind⟩
  | plain {fuel : Nat} {kind : TokenKind} {modifiers : Modifiers}
      {body : Rule} {walk after : Walk} {name : Option String}
      (defined : walk.define kind modifiers = (.finished, name, after))
      (opens : openedScope kind name = none) :
      Part ⟨fuel + 1, .define kind modifiers body, walk⟩ ⟨fuel, body, after⟩
  | signature {fuel : Nat} {kind : TokenKind} {modifiers : Modifiers}
      {walk after : Walk} {name : Option String} {terminal : Terminal}
      {cursor : TokenCursor}
      (defined : walk.define kind modifiers = (.finished, name, after))
      (taken : after.cursor.take? [Operator.leftParen] =
        some (terminal, cursor)) :
      Part ⟨fuel + 1, .signature kind modifiers, walk⟩
        ⟨fuel, .call .parameters,
          (after.moveTo cursor).openScope (parameterScope name) .nil⟩
  | body {fuel : Nat} {resumption : Resumption} {body further resumed : Rule}
      {walk : Walk} :
      Part ⟨fuel + 1, .recover resumption body further resumed, walk⟩
        ⟨fuel, body, walk⟩
  | further {fuel : Nat} {resumption : Resumption}
      {body further resumed : Rule} {walk after : Walk}
      (finished : run fuel body walk = (.finished, after)) :
      Part ⟨fuel + 1, .recover resumption body further resumed, walk⟩
        ⟨fuel, further, after⟩
  | resumed {fuel line : Nat} {resumption : Resumption}
      {body further resumed : Rule} {walk after : Walk}
      (abandoned : run fuel body walk = (.abandoned line, after))
      (here : after.resumes resumption) :
      Part ⟨fuel + 1, .recover resumption body further resumed, walk⟩
        ⟨fuel, resumed, after⟩
  | statement {fuel : Nat} {block : Block} {statement : Statement}
      {walk : Walk} (begins : walk.beginning block = .statement statement) :
      Part ⟨fuel + 1, .statement block, walk⟩ ⟨fuel, statement.rule, walk⟩
  | call {fuel : Nat} {nonterminal : Nonterminal} {walk : Walk} :
      Part ⟨fuel + 1, .call nonterminal, walk⟩ ⟨fuel, nonterminal.rule, walk⟩

theorem Part.mem {visit part : Visit} (way : Part visit part) :
    part ∈ visit.parts := by
  cases way <;> simp [parts, *]

theorem Part.of_mem {visit part : Visit} (member : part ∈ visit.parts) :
    Part visit part := by
  obtain ⟨fuel, rule, walk⟩ := visit
  cases fuel with
  | zero => nomatch member
  | succ fuel =>
      cases rule with
      | seq first next =>
          rcases List.mem_cons.mp member with rfl | later
          · exact .first
          · split at later
            · next after run_eq =>
                obtain rfl := List.mem_singleton.mp later
                exact .next run_eq
            · nomatch later
      | accept candidates found missing =>
          simp only [parts] at member
          split at member
          · next terminal cursor take_eq =>
              obtain rfl := List.mem_singleton.mp member
              exact .found take_eq
          · next take_eq =>
              obtain rfl := List.mem_singleton.mp member
              exact .missing take_eq
      | branch test holds fails =>
          obtain rfl := List.mem_singleton.mp member
          split
          · next here => exact .holding here
          · next away => exact .failing away
      | define kind modifiers body =>
          simp only [parts] at member
          split at member
          · next name after define_eq =>
              split at member
              · next scope scope_eq =>
                  obtain rfl := List.mem_singleton.mp member
                  exact .opening define_eq scope_eq
              · next scope_eq =>
                  obtain rfl := List.mem_singleton.mp member
                  exact .plain define_eq scope_eq
          · nomatch member
      | signature kind modifiers =>
          simp only [parts] at member
          split at member
          · next name after define_eq =>
              split at member
              · next terminal cursor take_eq =>
                  obtain rfl := List.mem_singleton.mp member
                  exact .signature define_eq take_eq
              · nomatch member
          · nomatch member
      | recover resumption body next resumed =>
          rcases List.mem_cons.mp member with rfl | later
          · exact .body
          · split at later
            · next after run_eq =>
                obtain rfl := List.mem_singleton.mp later
                exact .further run_eq
            · next line after run_eq =>
                split at later
                · next here =>
                    obtain rfl := List.mem_singleton.mp later
                    exact .resumed run_eq here
                · nomatch later
            · nomatch later
      | statement block =>
          simp only [parts] at member
          split at member
          · next statement begins =>
              obtain rfl := List.mem_singleton.mp member
              exact .statement begins
          · nomatch member
      | call nonterminal =>
          obtain rfl := List.mem_singleton.mp member
          exact .call
      | _ => nomatch member

theorem fuel_of_mem_parts {visit part : Visit} (member : part ∈ visit.parts) :
    visit.fuel = part.fuel + 1 := by
  cases Part.of_mem member <;> rfl

theorem self_mem_within (visit : Visit) : visit ∈ visit.within := by
  unfold within
  cases visit.fuel <;> exact List.mem_cons_self

theorem within_eq (visit : Visit) :
    visit.within = visit :: visit.parts.flatMap Visit.within := by
  unfold within
  cases fuel_eq : visit.fuel with
  | zero =>
      have none_left : visit.parts = [] := by
        apply List.eq_nil_iff_forall_not_mem.mpr
        intro part member
        have := fuel_of_mem_parts member
        omega
      rw [none_left]
      rfl
  | succ fuel =>
      rw [withinTo]
      congr 1
      apply List.flatMap_congr
      intro part member
      have := fuel_of_mem_parts member
      rw [show part.fuel = fuel by omega]

theorem mem_within_iff {visit inner : Visit} :
    inner ∈ visit.within ↔
      inner = visit ∨ ∃ part ∈ visit.parts, inner ∈ part.within := by
  rw [within_eq, List.mem_cons, List.mem_flatMap]

theorem within_of_mem_parts {visit part inner : Visit}
    (member : part ∈ visit.parts) (inside : inner ∈ part.within) :
    inner ∈ visit.within :=
  mem_within_iff.mpr (.inr ⟨part, member, inside⟩)

theorem mem_within_trans {visit part inner : Visit}
    (here : part ∈ visit.within) (inside : inner ∈ part.within) :
    inner ∈ visit.within := by
  rcases mem_within_iff.mp here with rfl | ⟨first, member, among⟩
  · exact inside
  · have := fuel_of_mem_parts member
    exact within_of_mem_parts member (mem_within_trans among inside)
termination_by visit.fuel

theorem of_mem_within {property : Visit → Prop}
    (handed : ∀ visit, property visit → ∀ part ∈ visit.parts, property part)
    {visit inner : Visit} (member : inner ∈ visit.within)
    (holds : property visit) : property inner := by
  rcases mem_within_iff.mp member with rfl | ⟨part, here, inside⟩
  · exact holds
  · have := fuel_of_mem_parts here
    exact of_mem_within handed inside (handed visit holds part here)
termination_by visit.fuel

theorem exhausted_of_part {visit part : Visit} (member : part ∈ visit.parts)
    (exhausted : part.result.1 = .exhausted) :
    visit.result.1 = .exhausted := by
  cases Part.of_mem member <;>
    simp only [result, run] at exhausted ⊢ <;> grind

theorem related_of_part {related : Walk → Walk → Prop}
    (kept : KeptBySteps (fun _ => True) related)
    (opened : ∀ walk name kind, related walk (walk.openScope name kind))
    {visit part : Visit} (member : part ∈ visit.parts) :
    related visit.walk part.walk := by
  have ran {fuel : Nat} {rule : Rule} {walk after : Walk} {outcome : Outcome}
      (run_eq : run fuel rule walk = (outcome, after)) :
      related walk after := by
    have whole := kept.run fuel rule walk (.inl fun _ => trivial)
    rwa [run_eq] at whole
  cases Part.of_mem member with
  | next finished => exact ran finished
  | found taken => exact kept.take taken
  | opening defined _ =>
      exact kept.trans (kept.defined defined (.inl trivial)) (opened _ _ _)
  | plain defined _ => exact kept.defined defined (.inl trivial)
  | signature defined taken =>
      apply kept.trans (kept.defined defined (.inl trivial))
      exact kept.trans (kept.take taken) (opened _ _ _)
  | further finished => exact ran finished
  | resumed abandoned _ => exact ran abandoned
  | _ => exact kept.refl

/-- What rules keep, the rest of a visit keeps behind each of its parts. -/
theorem related_result_of_part {related : Walk → Walk → Prop}
    (kept : KeptBySteps (fun _ => True) related)
    (closed : ∀ walk, related walk walk.closeScope)
    {visit part : Visit} (member : part ∈ visit.parts) :
    related part.result.2 visit.result.2 := by
  have ran (fuel : Nat) (rule : Rule) (walk : Walk) :=
    kept.run fuel rule walk (.inl fun _ => trivial)
  cases Part.of_mem member with
  | @first fuel front back walk =>
      simp only [result, run]
      cases run fuel front walk with
      | mk outcome after =>
          cases outcome with
          | finished => exact ran fuel back after
          | _ => exact kept.refl
  | @body fuel resumption body further resumed walk =>
      simp only [result, run]
      cases run fuel body walk with
      | mk outcome after =>
          cases outcome with
          | finished => exact ran fuel further after
          | abandoned line =>
              simp only
              split
              · exact ran fuel resumed after
              · exact kept.refl
          | _ => exact kept.refl
  | opening defined opens =>
      simp only [result, run, defined, opens]
      exact closed _
  | signature defined taken =>
      simp only [result, run, defined, taken]
      exact closed _
  | next finished =>
      simp only [result, run, finished]
      exact kept.refl
  | found taken =>
      simp only [result, run, taken]
      exact kept.refl
  | missing absent =>
      simp only [result, run, absent]
      exact kept.refl
  | holding here =>
      simp only [result, run, if_pos here]
      exact kept.refl
  | failing away =>
      simp only [result, run, if_neg away]
      exact kept.refl
  | plain defined opens =>
      simp only [result, run, defined, opens]
      exact kept.refl
  | further finished =>
      simp only [result, run, finished]
      exact kept.refl
  | resumed abandoned here =>
      simp only [result, run, abandoned, if_pos here]
      exact kept.refl
  | statement begins =>
      simp only [result, run, begins]
      exact kept.refl
  | call => exact kept.refl

theorem related_of_mem_within {related : Walk → Walk → Prop}
    (kept : KeptBySteps (fun _ => True) related)
    (opened : ∀ walk name kind, related walk (walk.openScope name kind))
    {visit inner : Visit} (member : inner ∈ visit.within) :
    related visit.walk inner.walk := by
  rcases mem_within_iff.mp member with rfl | ⟨part, here, inside⟩
  · exact kept.refl
  · have := fuel_of_mem_parts here
    exact kept.trans (related_of_part kept opened here)
      (related_of_mem_within kept opened inside)
termination_by visit.fuel

theorem related_result_of_mem_within {related : Walk → Walk → Prop}
    (kept : KeptBySteps (fun _ => True) related)
    (closed : ∀ walk, related walk walk.closeScope)
    {visit inner : Visit} (member : inner ∈ visit.within) :
    related inner.result.2 visit.result.2 := by
  rcases mem_within_iff.mp member with rfl | ⟨part, here, inside⟩
  · exact kept.refl
  · have := fuel_of_mem_parts here
    exact kept.trans (related_result_of_mem_within kept closed inside)
      (related_result_of_part kept closed here)
termination_by visit.fuel

end Visit

namespace Walk

open TokenCursor

/-! From the start of a document to each of its visits, and on to its end. -/

theorem mem_statementVisits {tokens : List Token} {visit : Visit}
    (member : visit ∈ statementVisits tokens) :
    ¬tokens.isEmpty ∧ visit.fuel = allowance tokens.length ∧
      visit.rule = .statement .document ∧
      visit.walk ∈ statementStarts (allowance tokens.length) tokens.length
        (start tokens) := by
  unfold statementVisits at member
  split at member
  · nomatch member
  · next some_token =>
      obtain ⟨first, among, rfl⟩ := List.mem_map.mp member
      exact ⟨some_token, rfl, rfl, among⟩

section Related

variable {related : Walk → Walk → Prop} {steps fuel : Nat} {walk first : Walk}
  {tokens : List Token} {visit : Visit}

theorem related_of_mem_statementStarts
    (kept : KeptBySteps (fun _ => True) related)
    (settled : ∀ walk, related walk walk.settle)
    (member : first ∈ statementStarts steps fuel walk) :
    related walk first := by
  induction fuel generalizing walk with
  | zero => nomatch member
  | succ fuel induction =>
      have ran := kept.run steps (.statement .document) walk
        (.inl fun _ => trivial)
      rcases List.mem_cons.mp member with rfl | later
      · exact kept.refl
      · split at later
        · nomatch later
        · next outcome after _ run_eq =>
            rw [run_eq] at ran
            split at later
            · next token cursor next_eq =>
                apply kept.trans ran
                apply kept.trans (settled after)
                exact kept.trans (kept.next next_eq) (induction later)
            · nomatch later

theorem related_statements {ends : Expected → Prop}
    (kept : KeptBySteps ends related)
    (settled : ∀ walk, related walk walk.settle)
    (each : ∀ first ∈ statementStarts steps fuel walk,
      related first (run steps (.statement .document) first).2) :
    related walk (statements (fun _ => false) steps fuel walk).2 := by
  induction fuel generalizing walk with
  | zero => exact kept.refl
  | succ fuel induction =>
      obtain ⟨here, later⟩ := List.forall_mem_cons.mp each
      rw [statements, if_neg Bool.false_ne_true]
      cases run_eq : run steps (.statement .document) walk with
      | mk outcome after =>
          rw [run_eq] at here later
          apply kept.trans here
          cases outcome with
          | ended => exact settled after
          | _ =>
              apply kept.trans (settled after)
              simp only at later ⊢
              cases next_eq : after.settle.cursor.next? with
              | none => exact kept.refl
              | some found =>
                  rw [next_eq] at later
                  exact kept.trans (kept.next next_eq) (induction later)

theorem related_result_of_mem_statementStarts
    (kept : KeptBySteps (fun _ => True) related)
    (settled : ∀ walk, related walk walk.settle)
    (member : first ∈ statementStarts steps fuel walk) :
    related (run steps (.statement .document) first).2
      (statements (fun _ => false) steps fuel walk).2 := by
  induction fuel generalizing walk with
  | zero => cases member
  | succ fuel induction =>
      rw [statements, if_neg Bool.false_ne_true]
      rcases List.mem_cons.mp member with rfl | later
      · cases run_eq : run steps (.statement .document) first with
        | mk outcome after =>
            cases outcome with
            | ended => exact settled after
            | _ =>
                apply kept.trans (settled after)
                simp only
                cases next_eq : after.settle.cursor.next? with
                | none => exact kept.refl
                | some found =>
                    apply kept.trans (kept.next next_eq)
                    apply related_statements kept settled
                    intro next _
                    exact kept.run _ _ _ (.inl fun _ => trivial)
      · cases run_eq : run steps (.statement .document) walk with
        | mk outcome after =>
            rw [run_eq] at later
            cases outcome with
            | ended => cases later
            | _ =>
                simp only at later ⊢
                cases next_eq : after.settle.cursor.next? with
                | none =>
                    rw [next_eq] at later
                    cases later
                | some found =>
                    rw [next_eq] at later
                    exact induction later

theorem related_of_mem_visits (kept : KeptBySteps (fun _ => True) related)
    (opened : ∀ walk name kind, related walk (walk.openScope name kind))
    (settled : ∀ walk, related walk walk.settle)
    (member : visit ∈ visits tokens) : related (start tokens) visit.walk := by
  obtain ⟨whole, among, inside⟩ := List.mem_flatMap.mp member
  obtain ⟨-, -, -, begins⟩ := mem_statementVisits among
  exact kept.trans (related_of_mem_statementStarts kept settled begins)
    (Visit.related_of_mem_within kept opened inside)

theorem related_result_of_mem_visits
    (kept : KeptBySteps (fun _ => True) related)
    (closed : ∀ walk, related walk walk.closeScope)
    (settled : ∀ walk, related walk walk.settle)
    (member : visit ∈ visits tokens) :
    related visit.result.2 (document (fun _ => false) tokens).2 := by
  obtain ⟨whole, among, inside⟩ := List.mem_flatMap.mp member
  obtain ⟨some_token, fuel_eq, rule_eq, begins⟩ := mem_statementVisits among
  have ended := related_result_of_mem_statementStarts kept settled begins
  rw [document, if_neg some_token]
  apply kept.trans (Visit.related_result_of_mem_within kept closed inside)
  rwa [Visit.result, fuel_eq, rule_eq]

end Related

theorem keptBySteps_standsIn (tokens : List Token) :
    KeptBySteps (fun _ => True) fun before after =>
      before.cursor.StandsIn tokens → after.cursor.StandsIn tokens where
  refl := id
  trans front back stands := back (front stands)
  report _ := id
  ended _ := id
  next found stands := stands.next found
  rescue found stands := stands.rescue found
  strings stands := stands.passStrings
  classify stands := stands.reclassify _ _
  register _ _ _ := id
  scope := id

theorem cursor_settle (walk : Walk) : walk.settle.cursor = walk.cursor := by
  unfold settle
  split <;> rfl

theorem standsIn_settle {tokens : List Token} (walk : Walk)
    (stands : walk.cursor.StandsIn tokens) :
    walk.settle.cursor.StandsIn tokens := by
  rwa [cursor_settle]

theorem standsIn_start {tokens : List Token} (some_token : ¬tokens.isEmpty) :
    (start tokens).cursor.StandsIn tokens := by
  apply StandsIn.ofList
  rintro rfl
  exact some_token rfl

theorem mem_visits_of_mem_within {tokens : List Token} {visit part : Visit}
    (member : visit ∈ visits tokens) (inside : part ∈ visit.within) :
    part ∈ visits tokens := by
  obtain ⟨whole, among, here⟩ := List.mem_flatMap.mp member
  exact List.mem_flatMap.mpr ⟨whole, among, Visit.mem_within_trans here inside⟩

theorem standsIn_of_mem_visits {tokens : List Token} {visit : Visit}
    (member : visit ∈ visits tokens) :
    visit.walk.cursor.StandsIn tokens := by
  obtain ⟨whole, among, inside⟩ := List.mem_flatMap.mp member
  exact related_of_mem_visits (keptBySteps_standsIn tokens) (fun _ _ _ => id)
    standsIn_settle member (standsIn_start (mem_statementVisits among).1)

theorem unexhausted_of_mem_visits {tokens : List Token} {visit : Visit}
    (member : visit ∈ visits tokens) : visit.result.1 ≠ .exhausted := by
  obtain ⟨whole, among, inside⟩ := List.mem_flatMap.mp member
  obtain ⟨some_token, fuel_eq, rule_eq, begins⟩ := mem_statementVisits among
  have stands := related_of_mem_statementStarts (keptBySteps_standsIn tokens)
    standsIn_settle begins (standsIn_start some_token)
  apply Visit.of_mem_within _ inside
  · unfold Visit.result
    rw [rule_eq, fuel_eq]
    exact run_statement_ne_exhausted stands.remaining_lt .document
  · intro outer unexhausted part here exhausted
    exact unexhausted (Visit.exhausted_of_part here exhausted)

end Walk

end ComponentLang
