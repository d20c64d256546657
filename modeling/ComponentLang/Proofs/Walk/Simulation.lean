import ComponentLang.Proofs.Grammar.Terminals
import ComponentLang.Proofs.Walk.Steps
import Mathlib.Data.List.Forall2

namespace ComponentLang.Walk

structure Agree (related : Walk → Walk → Prop) (first second : Outcome × Walk) :
    Prop where
  outcome : first.1 = second.1
  walks : related first.2 second.2

/-- Two lookups found nothing, or places that leave the walks related. -/
def AgreeOn (related : Walk → Walk → Prop) (first second : Walk) :
    Option TokenCursor → Option TokenCursor → Prop :=
  Option.Rel fun left right => related (first.moveTo left) (second.moveTo right)

structure ReachesString (walk : Walk) (token : Token) (cursor : TokenCursor) :
    Prop where
  next : walk.cursor.next? = some (token, cursor)
  string : token.kind = .string
  free : (token.text == Operator.rightBrace.spelling) = false

/-- Two walks are related, or are when one of them has passed a string. -/
inductive UpToString (related : Walk → Walk → Prop) (first second : Walk) :
    Prop where
  | level (alike : related first second)
  | first (token : Token) (cursor : TokenCursor)
    (reaches : first.ReachesString token cursor)
    (alike : related (first.moveTo cursor) second)
  | second (token : Token) (cursor : TokenCursor)
    (reaches : second.ReachesString token cursor)
    (alike : related first (second.moveTo cursor))

structure AgreeAtEnd (related : Walk → Walk → Prop)
    (first second : Outcome × Walk) : Prop where
  outcome : first.1 = second.1
  walks : UpToString related first.2 second.2
  stopped : first.1 ≠ .finished → related first.2 second.2

theorem Agree.atEnd {related : Walk → Walk → Prop} {first second : Outcome × Walk}
    (agreed : Agree related first second) : AgreeAtEnd related first second :=
  ⟨agreed.outcome, .level agreed.walks, fun _ => agreed.walks⟩

def passQueueWord (walk : Walk) : Walk :=
  match walk.cursor.take? [Keyword.assert, Keyword.block, Keyword.drop] with
  | some (_, cursor) => walk.moveTo cursor
  | none => walk

/-- What every step has to keep. Only terminals that the grammar looks for need
be considered. -/
structure Simulation (related : Walk → Walk → Prop)
    (named : String → String → Prop) : Prop where
  next : related first second →
    AgreeOn related first second (first.cursor.next?.map (·.2))
      (second.cursor.next?.map (·.2))
  take : Terminal.areLookedFor candidates → related first second →
    AgreeOn related first second ((first.cursor.take? candidates).map (·.2))
      ((second.cursor.take? candidates).map (·.2))
  advance : related first second →
    Agree related (first.advance (.oneOf [Operator.rightBrace]))
      (second.advance (.oneOf [Operator.rightBrace]))
  need : expected.isLookedFor → related first second →
    Agree related (first.need expected) (second.need expected)
  expect : Terminal.areLookedFor candidates → related first second →
    Agree related (first.expect candidates) (second.expect candidates)
  queue : related first second →
    UpToString related first.passQueueWord second.passQueueWord
  holds : test.isLookedFor → related first second →
    first.holds test = second.holds test
  resumes : resumption.isLookedFor → related first second →
    first.resumes resumption = second.resumes resumption
  beginning : related first second →
    first.beginning block = second.beginning block
  complain : ∀ complaint, related first second →
    related (first.complain complaint) (second.complain complaint)
  strings : related first second → related first.strings second.strings
  resolve : related first second → related first.resolve second.resolve
  define : ∀ kind modifiers, related first second →
    Agree related
        ((first.define kind modifiers).1, (first.define kind modifiers).2.2)
        ((second.define kind modifiers).1, (second.define kind modifiers).2.2) ∧
      Option.Rel named (first.define kind modifiers).2.1
        (second.define kind modifiers).2.1
  anonymous : named (parameterScope none) (parameterScope none)
  openScope : ∀ kind, named left right → related first second →
    related (first.openScope left kind) (second.openScope right kind)
  closeScope : related first second → related first.closeScope second.closeScope
  settle : related first second → related first.settle second.settle

namespace Simulation

variable {related : Walk → Walk → Prop} {named : String → String → Prop}

theorem take_cases (simulation : Simulation related named)
    {candidates : List Terminal} (listed : Terminal.areLookedFor candidates)
    {first second : Walk} (alike : related first second) :
    (first.cursor.take? candidates = none ∧
      second.cursor.take? candidates = none) ∨
    ∃ leftTerminal left rightTerminal right,
      first.cursor.take? candidates = some (leftTerminal, left) ∧
      second.cursor.take? candidates = some (rightTerminal, right) ∧
      related (first.moveTo left) (second.moveTo right) := by
  have taken := simulation.take listed alike
  cases first_eq : first.cursor.take? candidates with
  | none =>
      cases second_eq : second.cursor.take? candidates with
      | none => exact .inl ⟨rfl, rfl⟩
      | some right =>
          rw [first_eq, second_eq] at taken
          nomatch taken
  | some left =>
      cases second_eq : second.cursor.take? candidates with
      | none =>
          rw [first_eq, second_eq] at taken
          nomatch taken
      | some right =>
          rw [first_eq, second_eq] at taken
          cases taken with
          | some alike => exact .inr ⟨_, _, _, _, rfl, rfl, alike⟩

theorem define_cases (simulation : Simulation related named)
    (kind : TokenKind) (modifiers : Modifiers) {first second : Walk}
    (alike : related first second) :
    ∃ outcome leftName left rightName right,
      first.define kind modifiers = (outcome, leftName, left) ∧
      second.define kind modifiers = (outcome, rightName, right) ∧
      related left right ∧ Option.Rel named leftName rightName := by
  obtain ⟨⟨outcome_eq, walks⟩, names⟩ :=
    simulation.define kind modifiers alike
  exact ⟨_, _, _, _, _, rfl, Prod.ext outcome_eq.symm rfl, walks, names⟩

end Simulation

/-! Steps that are enough. -/

theorem unexhausted_first {fuel : Nat} {first next : Rule} {walk : Walk}
    (ends : (run (fuel + 1) (.seq first next) walk).1 ≠ .exhausted) :
    (run fuel first walk).1 ≠ .exhausted := by
  rw [run] at ends
  cases run_eq : run fuel first walk with
  | mk outcome after =>
      rw [run_eq] at ends
      cases outcome with
      | exhausted => exact absurd rfl ends
      | _ => simp

theorem unexhausted_body {fuel : Nat} {resumption : Resumption}
    {body next resumed : Rule} {walk : Walk}
    (ends : (run (fuel + 1) (.recover resumption body next resumed) walk).1 ≠
      .exhausted) : (run fuel body walk).1 ≠ .exhausted := by
  rw [run] at ends
  cases run_eq : run fuel body walk with
  | mk outcome after =>
      rw [run_eq] at ends
      cases outcome with
      | exhausted => exact absurd rfl ends
      | _ => simp

theorem run_done {fuel : Nat} {walk : Walk}
    (ends : (run fuel .done walk).1 ≠ .exhausted) :
    run fuel .done walk = (.finished, walk) := by
  cases fuel with
  | zero => exact absurd rfl ends
  | succ fuel => rfl

theorem run_queueFull {fuel : Nat} {walk : Walk}
    (ends : (run (fuel + 1) .queueFull walk).1 ≠ .exhausted) :
    run (fuel + 1) .queueFull walk = (.finished, walk.passQueueWord) := by
  unfold passQueueWord
  rw [Rule.queueFull, run] at ends ⊢
  cases take_eq :
      walk.cursor.take? [Keyword.assert, Keyword.block, Keyword.drop] with
  | none =>
      rw [take_eq] at ends
      exact run_done ends
  | some found =>
      rw [take_eq] at ends
      exact run_done ends

def furtherMembers (fuel : Nat) (block : Block) : Outcome × Walk → Outcome × Walk
  | (.finished, after) | (.abandoned _, after) =>
      run fuel (.call (.members block)) after
  | stopped => stopped

theorem run_members_cases {fuel : Nat} {block : Block} {walk : Walk}
    (ends : (run fuel (.call (.members block)) walk).1 ≠ .exhausted) :
    (∃ terminal cursor,
      walk.cursor.take? [Operator.rightBrace] = some (terminal, cursor) ∧
      run fuel (.call (.members block)) walk =
        (.finished, walk.moveTo cursor)) ∨
    (walk.cursor.take? [Operator.rightBrace] = none ∧ ∃ smaller < fuel,
      run fuel (.call (.members block)) walk =
        match walk.advance (.oneOf [Operator.rightBrace]) with
        | (.finished, moved) => furtherMembers smaller block
            (run smaller (.statement block) moved)
        | stopped => stopped) := by
  rcases fuel with _ | _ | fuel
  · exact absurd rfl ends
  · exact absurd rfl ends
  · change (run (fuel + 1) (.accept [Operator.rightBrace] .done _) walk).1 ≠ _
      at ends
    change (∃ _ _, _ ∧
      run (fuel + 1) (.accept [Operator.rightBrace] .done _) walk = _) ∨
        (_ ∧ ∃ _ < _, run (fuel + 1) (.accept _ .done _) walk = _)
    rw [run] at ends ⊢
    cases take_eq : walk.cursor.take? [Operator.rightBrace] with
    | some found =>
        left
        rw [take_eq] at ends
        exact ⟨found.1, found.2, rfl, run_done ends⟩
    | none =>
        right
        rw [take_eq] at ends
        rcases fuel with _ | _ | fuel
        · exact absurd rfl ends
        · exact absurd rfl ends
        · refine ⟨rfl, fuel, by omega, ?_⟩
          change run (fuel + 2) (.seq .advance _) walk = _
          rw [run, run]
          cases walk.advance (.oneOf [Operator.rightBrace]) with
          | mk outcome moved =>
              cases outcome with
              | finished =>
                  simp only
                  rw [run]
                  cases run fuel (.statement block) moved with
                  | mk outcome after => cases outcome <;> rfl
              | _ => rfl

theorem ReachesString.take_none {walk : Walk} {token : Token}
    {cursor : TokenCursor} (reaches : walk.ReachesString token cursor) :
    walk.cursor.take? [Operator.rightBrace] = none := by
  rw [TokenCursor.take?, reaches.next, Option.map_eq_none_iff, Terminal.find?,
    List.find?_eq_none]
  intro candidate member spelled
  obtain rfl := List.mem_singleton.mp member
  have free := beq_eq_false_iff_ne.mp reaches.free
  exact free (beq_iff_eq.mp spelled)

theorem ReachesString.advance {walk : Walk} {token : Token}
    {cursor : TokenCursor} (reaches : walk.ReachesString token cursor)
    (expected : Expected) :
    walk.advance expected = (.finished, walk.moveTo cursor) := by
  rw [Walk.advance, reaches.next]

theorem ReachesString.run_statement {walk : Walk} {token : Token}
    {cursor : TokenCursor} (reaches : walk.ReachesString token cursor)
    {fuel : Nat} {block : Block}
    (ends : (run fuel (.statement block) (walk.moveTo cursor)).1 ≠ .exhausted) :
    run fuel (.statement block) (walk.moveTo cursor) =
      (.finished, walk.moveTo cursor) := by
  cases fuel with
  | zero => exact absurd rfl ends
  | succ fuel =>
      have there := (TokenCursor.current?_of_next? reaches.next).1
      have begins : (walk.moveTo cursor).beginning block = .nothing := by
        rw [beginning, TokenCursor.beginning, moveTo, there]
        simp [reaches.string]
      rw [run, begins]

theorem ReachesString.run_members {walk : Walk} {token : Token}
    {cursor : TokenCursor} (reaches : walk.ReachesString token cursor)
    {fuel : Nat} {block : Block}
    (ends : (run fuel (.call (.members block)) walk).1 ≠ .exhausted) :
    ∃ smaller < fuel, run fuel (.call (.members block)) walk =
      run smaller (.call (.members block)) (walk.moveTo cursor) := by
  rcases run_members_cases ends with ⟨_, _, take_eq, -⟩ |
    ⟨-, smaller, less, run_eq⟩
  · rw [reaches.take_none] at take_eq
    nomatch take_eq
  · refine ⟨smaller, less, ?_⟩
    rw [run_eq, reaches.advance] at ends
    rw [run_eq, reaches.advance]
    simp only at ends ⊢
    have visited : (run smaller (.statement block) (walk.moveTo cursor)).1 ≠
        .exhausted := by
      intro exhausted
      apply ends
      rw [← Prod.eta (run smaller (.statement block) (walk.moveTo cursor)),
        exhausted]
      rfl
    rw [reaches.run_statement visited]
    rfl

/-! The statements of a document. -/

theorem settle_settle (walk : Walk) : walk.settle.settle = walk.settle := by
  have one : walk.settle.scopes.depth = 1 := by
    unfold settle
    split
    · next one => exact beq_iff_eq.mp one
    · rfl
  rw [settle, one]
  rfl

theorem ReachesString.furtherStatements {walk : Walk} {token : Token}
    {cursor : TokenCursor} (reaches : walk.ReachesString token cursor)
    {size : Nat} (within : walk.remaining < size) (fuel : Nat) :
    Walk.furtherStatements (allowance size) (fuel + 1) walk =
      Walk.furtherStatements (allowance size) fuel (walk.moveTo cursor) := by
  have settled : walk.settle.ReachesString token cursor := by
    refine ⟨?_, reaches.string, reaches.free⟩
    unfold settle
    split <;> exact reaches.next
  have less : (walk.settle.moveTo cursor).remaining < size :=
    Nat.lt_trans (TokenCursor.remaining_lt_of_next? reaches.next) within
  have ends := run_statement_ne_exhausted less .document
  rw [Walk.furtherStatements, settled.next]
  simp only
  rw [statements_step, settled.run_statement ends, if_neg nofun,
    Walk.furtherStatements, Walk.furtherStatements, settle_moveTo, settle_moveTo,
    settle_settle]

/-! Following a rule. -/

namespace Simulation

variable {related : Walk → Walk → Prop} {named : String → String → Prop}

def RulesAgree (related : Walk → Walk → Prop) (fuel : Nat) : Prop :=
  ∀ (other : Nat) (rule : Rule) (first second : Walk), rule.isLookedFor →
    related first second → (Walk.run fuel rule first).1 ≠ .exhausted →
    (Walk.run other rule second).1 ≠ .exhausted →
    Agree related (Walk.run fuel rule first) (Walk.run other rule second)

def EndsAgree (related : Walk → Walk → Prop) (fuel : Nat) : Prop :=
  ∀ (other : Nat) (rule : Rule) (first second : Walk), rule.endsStatement →
    related first second → (Walk.run fuel rule first).1 ≠ .exhausted →
    (Walk.run other rule second).1 ≠ .exhausted →
    AgreeAtEnd related (Walk.run fuel rule first) (Walk.run other rule second)

def StatementsAgree (related : Walk → Walk → Prop) (fuel : Nat) : Prop :=
  ∀ (other : Nat) (block : Block) (first second : Walk),
    related first second →
    (Walk.run fuel (.statement block) first).1 ≠ .exhausted →
    (Walk.run other (.statement block) second).1 ≠ .exhausted →
    AgreeAtEnd related (Walk.run fuel (.statement block) first)
      (Walk.run other (.statement block) second)

/-- Members that begin apart by a string end together. -/
def MembersAgree (related : Walk → Walk → Prop) (fuel : Nat) : Prop :=
  ∀ (other : Nat) (block : Block) (first second : Walk),
    UpToString related first second →
    (Walk.run fuel (.call (.members block)) first).1 ≠ .exhausted →
    (Walk.run other (.call (.members block)) second).1 ≠ .exhausted →
    Agree related (Walk.run fuel (.call (.members block)) first)
      (Walk.run other (.call (.members block)) second)

theorem unexhausted_of_furtherMembers {fuel : Nat} {block : Block}
    {step : Outcome × Walk}
    (ends : (furtherMembers fuel block step).1 ≠ .exhausted) :
    step.1 ≠ .exhausted := by
  obtain ⟨outcome, after⟩ := step
  cases outcome with
  | exhausted => exact absurd rfl ends
  | _ => nofun

theorem membersAgree_level (simulation : Simulation related named) {fuel : Nat}
    (statements : ∀ smaller < fuel, StatementsAgree related smaller)
    (members : ∀ smaller < fuel, MembersAgree related smaller)
    {other : Nat} {block : Block} {first second : Walk}
    (alike : related first second)
    (first_ends : (Walk.run fuel (.call (.members block)) first).1 ≠ .exhausted)
    (second_ends :
      (Walk.run other (.call (.members block)) second).1 ≠ .exhausted) :
    Agree related (Walk.run fuel (.call (.members block)) first)
      (Walk.run other (.call (.members block)) second) := by
  have listed : Terminal.areLookedFor [Operator.rightBrace] := rfl
  -- Both lists go on with a statement, or both end with the brace.
  rcases simulation.take_cases listed alike with
    ⟨left_none, right_none⟩ | ⟨_, _, _, _, left_some, right_some, taken⟩
  · rcases run_members_cases first_ends with ⟨_, _, take_eq, -⟩ |
      ⟨-, leftFuel, left_less, left_eq⟩
    · rw [left_none] at take_eq
      nomatch take_eq
    rcases run_members_cases second_ends with ⟨_, _, take_eq, -⟩ |
      ⟨-, rightFuel, -, right_eq⟩
    · rw [right_none] at take_eq
      nomatch take_eq
    rw [left_eq] at first_ends ⊢
    rw [right_eq] at second_ends ⊢
    have advanced := simulation.advance alike
    generalize first.advance (.oneOf [Operator.rightBrace]) = left,
      second.advance (.oneOf [Operator.rightBrace]) = right
      at advanced first_ends second_ends ⊢
    obtain ⟨leftOutcome, left⟩ := left
    obtain ⟨_, right⟩ := right
    obtain ⟨rfl, walks⟩ := advanced
    cases leftOutcome with
    | finished =>
        simp only at first_ends second_ends walks ⊢
        have visited := statements leftFuel left_less rightFuel block left right
          walks (unexhausted_of_furtherMembers first_ends)
          (unexhausted_of_furtherMembers second_ends)
        generalize Walk.run leftFuel (.statement block) left = left,
          Walk.run rightFuel (.statement block) right = right
          at visited first_ends second_ends ⊢
        obtain ⟨leftOutcome, left⟩ := left
        obtain ⟨_, right⟩ := right
        obtain ⟨rfl, loose, stopped⟩ := visited
        cases leftOutcome with
        | finished =>
            exact members leftFuel left_less rightFuel block left right loose
              first_ends second_ends
        | abandoned line =>
            exact members leftFuel left_less rightFuel block left right loose
              first_ends second_ends
        | ended => exact ⟨rfl, stopped nofun⟩
        | exhausted => exact ⟨rfl, stopped nofun⟩
    | abandoned line => exact ⟨rfl, walks⟩
    | ended => exact ⟨rfl, walks⟩
    | exhausted => exact ⟨rfl, walks⟩
  · rcases run_members_cases first_ends with ⟨_, _, left_take, left_eq⟩ |
      ⟨take_eq, -⟩
    · rcases run_members_cases second_ends with ⟨_, _, right_take, right_eq⟩ |
        ⟨take_eq, -⟩
      · rw [left_eq, right_eq]
        rw [left_some] at left_take
        rw [right_some] at right_take
        cases left_take
        cases right_take
        exact ⟨rfl, taken⟩
      · rw [right_some] at take_eq
        nomatch take_eq
    · rw [left_some] at take_eq
      nomatch take_eq

theorem membersAgree (simulation : Simulation related named) {fuel : Nat}
    (statements : ∀ smaller < fuel, StatementsAgree related smaller)
    (members : ∀ smaller < fuel, MembersAgree related smaller) :
    MembersAgree related fuel := by
  intro other block first second apart first_ends second_ends
  cases apart with
  | level alike =>
      exact simulation.membersAgree_level statements members alike first_ends
        second_ends
  | first token cursor reaches alike =>
      obtain ⟨smaller, less, run_eq⟩ := reaches.run_members first_ends
      rw [run_eq] at first_ends ⊢
      exact members smaller less other block _ second (.level alike) first_ends
        second_ends
  | second token cursor reaches alike =>
      obtain ⟨smaller, -, run_eq⟩ := reaches.run_members second_ends
      rw [run_eq] at second_ends ⊢
      exact simulation.membersAgree_level statements members alike first_ends
        second_ends

theorem statementsAgree_succ (simulation : Simulation related named)
    {fuel : Nat} (ends : EndsAgree related fuel) :
    StatementsAgree related (fuel + 1) := by
  intro other block first second alike first_ends second_ends
  cases other with
  | zero => exact absurd rfl second_ends
  | succ other =>
      rw [Walk.run, simulation.beginning alike] at first_ends ⊢
      rw [Walk.run] at second_ends ⊢
      cases begins : second.beginning block with
      | nothing => exact Agree.atEnd ⟨rfl, alike⟩
      | statement statement =>
          rw [begins] at first_ends second_ends
          exact ends other statement.rule first second
            statement.endsStatement_rule alike first_ends second_ends
      | unexpected =>
          exact Agree.atEnd ⟨rfl, simulation.complain .unexpectedToken alike⟩

/-- A rule at the end of a statement, and what a full queue does behind it. -/
theorem endsAgree_succ (simulation : Simulation related named) {fuel : Nat}
    (rules : RulesAgree related fuel) (ends : EndsAgree related fuel)
    (whole : RulesAgree related (fuel + 1)) : EndsAgree related (fuel + 1) := by
  intro other rule first second listed alike first_ends second_ends
  cases other with
  | zero => exact absurd rfl second_ends
  | succ other =>
      fun_cases Rule.endsStatement rule with
      | case1 front back =>
          rw [Rule.endsStatement, Bool.and_eq_true] at listed
          have agreed := rules other front first second listed.1 alike
            (unexhausted_first first_ends) (unexhausted_first second_ends)
          rw [Walk.run] at first_ends second_ends ⊢
          rw [Walk.run]
          generalize Walk.run fuel front first = left,
            Walk.run other front second = right
            at agreed first_ends second_ends ⊢
          obtain ⟨leftOutcome, left⟩ := left
          obtain ⟨_, right⟩ := right
          obtain ⟨rfl, walks⟩ := agreed
          cases leftOutcome with
          | finished =>
              exact ends other back left right listed.2 walks first_ends
                second_ends
          | abandoned line => exact Agree.atEnd ⟨rfl, walks⟩
          | ended => exact Agree.atEnd ⟨rfl, walks⟩
          | exhausted => exact Agree.atEnd ⟨rfl, walks⟩
      | case2 =>
          next simple =>
            rw [Rule.endsStatement.eq_2 _ simple, Bool.or_eq_true,
              beq_iff_eq] at listed
            rcases listed with rfl | listed
            · rw [run_queueFull first_ends, run_queueFull second_ends]
              exact ⟨rfl, simulation.queue alike,
                fun stopped => absurd rfl stopped⟩
            · exact (whole (other + 1) rule first second listed alike first_ends
                second_ends).atEnd

theorem agree_define (simulation : Simulation related named)
    {fuel other : Nat} (rules : RulesAgree related fuel) {first second : Walk}
    (kind : TokenKind) (modifiers : Modifiers) {body : Rule}
    (listed : body.isLookedFor)
    (alike : related first second)
    (first_ends :
      (Walk.run (fuel + 1) (.define kind modifiers body) first).1 ≠ .exhausted)
    (second_ends : (Walk.run (other + 1)
      (.define kind modifiers body) second).1 ≠ .exhausted) :
    Agree related (Walk.run (fuel + 1) (.define kind modifiers body) first)
      (Walk.run (other + 1) (.define kind modifiers body) second) := by
  obtain ⟨outcome, leftName, left, rightName, right, left_eq, right_eq,
    walks, names⟩ := simulation.define_cases kind modifiers alike
  simp only [Walk.run, left_eq] at first_ends ⊢
  simp only [Walk.run, right_eq] at second_ends ⊢
  cases outcome with
  | finished =>
      simp only [openedScope] at first_ends second_ends ⊢
      by_cases opens : kind.opensScope
      · simp only [if_pos opens] at first_ends second_ends ⊢
        cases names with
        | none =>
            exact rules other body left right listed walks first_ends
              second_ends
        | some named =>
            have inner := rules other body _ _ listed
              (simulation.openScope kind named walks) first_ends
              second_ends
            exact ⟨inner.outcome, simulation.closeScope inner.walks⟩
      · simp only [if_neg opens] at first_ends second_ends ⊢
        exact rules other body left right listed walks first_ends
          second_ends
  | abandoned line => exact ⟨rfl, walks⟩
  | ended => exact ⟨rfl, walks⟩
  | exhausted => exact ⟨rfl, walks⟩

theorem agree_signature (simulation : Simulation related named)
    {fuel other : Nat} (rules : RulesAgree related fuel) {first second : Walk}
    (kind : TokenKind) (modifiers : Modifiers)
    (alike : related first second)
    (first_ends :
      (Walk.run (fuel + 1) (.signature kind modifiers) first).1 ≠ .exhausted)
    (second_ends :
      (Walk.run (other + 1) (.signature kind modifiers) second).1 ≠ .exhausted) :
    Agree related (Walk.run (fuel + 1) (.signature kind modifiers) first)
      (Walk.run (other + 1) (.signature kind modifiers) second) := by
  obtain ⟨outcome, leftName, left, rightName, right, left_eq, right_eq,
    walks, names⟩ := simulation.define_cases kind modifiers alike
  simp only [Walk.run, left_eq] at first_ends ⊢
  simp only [Walk.run, right_eq] at second_ends ⊢
  cases outcome with
  | finished =>
      have owners : named (parameterScope leftName)
          (parameterScope rightName) := by
        cases names with
        | none => exact simulation.anonymous
        | some named => exact named
      have parens : Terminal.areLookedFor [Operator.leftParen] := rfl
      rcases simulation.take_cases parens walks with
        ⟨left_none, right_none⟩ |
          ⟨_, _, _, _, left_some, right_some, taken⟩
      · simp only [left_none, right_none]
        exact ⟨rfl, walks⟩
      · simp only [left_some] at first_ends ⊢
        simp only [right_some] at second_ends ⊢
        have inner := rules other (.call .parameters) _ _ rfl
          (simulation.openScope .nil owners taken) first_ends
          second_ends
        exact ⟨inner.outcome, simulation.closeScope inner.walks⟩
  | abandoned line => exact ⟨rfl, walks⟩
  | ended => exact ⟨rfl, walks⟩
  | exhausted => exact ⟨rfl, walks⟩

theorem agree_recover (simulation : Simulation related named)
    {fuel other : Nat} (rules : RulesAgree related fuel) {first second : Walk}
    {resumption : Resumption} {body next resumed : Rule}
    (listed : (Rule.recover resumption body next resumed).isLookedFor)
    (alike : related first second)
    (first_ends : (Walk.run (fuel + 1)
      (.recover resumption body next resumed) first).1 ≠ .exhausted)
    (second_ends : (Walk.run (other + 1)
      (.recover resumption body next resumed) second).1 ≠ .exhausted) :
    Agree related
      (Walk.run (fuel + 1) (.recover resumption body next resumed) first)
      (Walk.run (other + 1) (.recover resumption body next resumed) second) := by
  simp only [Rule.isLookedFor, Bool.and_eq_true] at listed
  obtain ⟨⟨⟨here, body_listed⟩, next_listed⟩, resumed_listed⟩ := listed
  have agreed := rules other body first second body_listed alike
    (unexhausted_body first_ends) (unexhausted_body second_ends)
  simp only [Walk.run] at first_ends second_ends ⊢
  generalize Walk.run fuel body first = left,
    Walk.run other body second = right
    at agreed first_ends second_ends ⊢
  obtain ⟨leftOutcome, left⟩ := left
  obtain ⟨_, right⟩ := right
  obtain ⟨rfl, walks⟩ := agreed
  cases leftOutcome with
  | finished =>
      exact rules other next left right next_listed walks first_ends
        second_ends
  | abandoned line =>
      simp only [simulation.resumes here walks]
        at first_ends second_ends ⊢
      by_cases resumes : right.resumes resumption
      · simp only [if_pos resumes] at first_ends second_ends ⊢
        exact rules other resumed left right resumed_listed walks
          first_ends second_ends
      · simp only [if_neg resumes]
        exact ⟨rfl, walks⟩
  | ended => exact ⟨rfl, walks⟩
  | exhausted => exact ⟨rfl, walks⟩

theorem agree_seq {fuel other : Nat} (rules : RulesAgree related fuel)
    {first second : Walk} {front back : Rule}
    (listed : (Rule.seq front back).isLookedFor)
    (alike : related first second)
    (first_ends : (Walk.run (fuel + 1) (.seq front back) first).1 ≠ .exhausted)
    (second_ends :
      (Walk.run (other + 1) (.seq front back) second).1 ≠ .exhausted) :
    Agree related (Walk.run (fuel + 1) (.seq front back) first)
      (Walk.run (other + 1) (.seq front back) second) := by
  simp only [Rule.isLookedFor, Bool.and_eq_true] at listed
  have agreed := rules other front first second listed.1 alike
    (unexhausted_first first_ends) (unexhausted_first second_ends)
  simp only [Walk.run] at first_ends second_ends ⊢
  generalize Walk.run fuel front first = left,
    Walk.run other front second = right
    at agreed first_ends second_ends ⊢
  obtain ⟨leftOutcome, left⟩ := left
  obtain ⟨_, right⟩ := right
  obtain ⟨rfl, walks⟩ := agreed
  cases leftOutcome with
  | finished =>
      exact rules other back left right listed.2 walks first_ends second_ends
  | abandoned line => exact ⟨rfl, walks⟩
  | ended => exact ⟨rfl, walks⟩
  | exhausted => exact ⟨rfl, walks⟩

theorem agree_accept (simulation : Simulation related named)
    {fuel other : Nat} (rules : RulesAgree related fuel) {first second : Walk}
    {candidates : List Terminal} {found missing : Rule}
    (listed : (Rule.accept candidates found missing).isLookedFor)
    (alike : related first second)
    (first_ends : (Walk.run (fuel + 1)
      (.accept candidates found missing) first).1 ≠ .exhausted)
    (second_ends : (Walk.run (other + 1)
      (.accept candidates found missing) second).1 ≠ .exhausted) :
    Agree related
      (Walk.run (fuel + 1) (.accept candidates found missing) first)
      (Walk.run (other + 1) (.accept candidates found missing) second) := by
  simp only [Rule.isLookedFor, Bool.and_eq_true] at listed
  obtain ⟨⟨candidates_listed, found_listed⟩, missing_listed⟩ := listed
  simp only [Walk.run] at first_ends second_ends ⊢
  rcases simulation.take_cases candidates_listed alike with
    ⟨left_eq, right_eq⟩ | ⟨_, _, _, _, left_eq, right_eq, taken⟩
  · rw [left_eq] at first_ends ⊢
    rw [right_eq] at second_ends ⊢
    exact rules other missing first second missing_listed alike first_ends
      second_ends
  · rw [left_eq] at first_ends ⊢
    rw [right_eq] at second_ends ⊢
    exact rules other found _ _ found_listed taken first_ends second_ends

theorem agree_branch (simulation : Simulation related named)
    {fuel other : Nat} (rules : RulesAgree related fuel) {first second : Walk}
    {test : Test} {holds fails : Rule}
    (listed : (Rule.branch test holds fails).isLookedFor)
    (alike : related first second)
    (first_ends :
      (Walk.run (fuel + 1) (.branch test holds fails) first).1 ≠ .exhausted)
    (second_ends :
      (Walk.run (other + 1) (.branch test holds fails) second).1 ≠ .exhausted) :
    Agree related (Walk.run (fuel + 1) (.branch test holds fails) first)
      (Walk.run (other + 1) (.branch test holds fails) second) := by
  simp only [Rule.isLookedFor, Bool.and_eq_true] at listed
  obtain ⟨⟨test_listed, holds_listed⟩, fails_listed⟩ := listed
  simp only [Walk.run, simulation.holds test_listed alike]
    at first_ends second_ends ⊢
  by_cases true_here : second.holds test
  · simp only [if_pos true_here] at first_ends second_ends ⊢
    exact rules other holds first second holds_listed alike first_ends
      second_ends
  · simp only [if_neg true_here] at first_ends second_ends ⊢
    exact rules other fails first second fails_listed alike first_ends
      second_ends

theorem rulesAgree_succ (simulation : Simulation related named) {fuel : Nat}
    (rules : RulesAgree related fuel)
    (members : MembersAgree related (fuel + 1)) :
    RulesAgree related (fuel + 1) := by
  intro other rule first second listed alike first_ends second_ends
  cases other with
  | zero => exact absurd rfl second_ends
  | succ other =>
      cases rule with
      | done => exact ⟨rfl, alike⟩
      | seq front back =>
          exact agree_seq rules listed alike first_ends second_ends
      | need expected => exact simulation.need listed alike
      | expect candidates => exact simulation.expect listed alike
      | accept candidates found missing =>
          exact simulation.agree_accept rules listed alike first_ends
            second_ends
      | advance => exact simulation.advance alike
      | branch test holds fails =>
          exact simulation.agree_branch rules listed alike first_ends
            second_ends
      | complain complaint => exact ⟨rfl, simulation.complain complaint alike⟩
      | strings => exact ⟨rfl, simulation.strings alike⟩
      | resolve => exact ⟨rfl, simulation.resolve alike⟩
      | define kind modifiers body =>
          exact simulation.agree_define rules kind modifiers listed alike
            first_ends second_ends
      | signature kind modifiers =>
          exact simulation.agree_signature rules kind modifiers alike first_ends
            second_ends
      | recover resumption body next resumed =>
          exact simulation.agree_recover rules listed alike first_ends
            second_ends
      | statement block => cases listed
      | call nonterminal =>
          -- Members are shown to agree on their own, as they may begin apart.
          by_cases block : ∃ block, nonterminal = .members block
          · obtain ⟨block, rfl⟩ := block
            exact members (other + 1) block first second (.level alike)
              first_ends second_ends
          · exact rules other nonterminal.rule first second
              (nonterminal.isLookedFor_rule fun other same =>
                block ⟨other, same⟩) alike first_ends second_ends

/-- Related walks that follow one rule agree if their steps are enough. -/
theorem all_agree (simulation : Simulation related named) (fuel : Nat) :
    RulesAgree related fuel ∧ EndsAgree related fuel ∧
      StatementsAgree related fuel ∧ MembersAgree related fuel := by
  induction fuel using Nat.strongRecOn with
  | _ fuel induction =>
      have members : MembersAgree related fuel :=
        simulation.membersAgree (fun smaller less => (induction smaller less).2.2.1)
          (fun smaller less => (induction smaller less).2.2.2)
      cases fuel with
      | zero =>
          refine ⟨?_, ?_, ?_, members⟩
          · intro _ _ _ _ _ _ ends
            exact absurd rfl ends
          · intro _ _ _ _ _ _ ends
            exact absurd rfl ends
          · intro _ _ _ _ _ ends
            exact absurd rfl ends
      | succ fuel =>
          obtain ⟨rules, ends, -, -⟩ := induction fuel (Nat.lt_succ_self _)
          have whole := simulation.rulesAgree_succ rules members
          exact ⟨whole, simulation.endsAgree_succ rules ends whole,
            simulation.statementsAgree_succ ends, members⟩

def SameEnd (related : Walk → Walk → Prop) (first second : Bool × Walk) : Prop :=
  first.1 = second.1 ∧ related first.2 second.2

def TurnsAgree (related : Walk → Walk → Prop) (size fuel : Nat) : Prop :=
  ∀ (other : Nat) (first second : Walk), related first second →
    first.remaining < fuel → second.remaining < other →
    first.remaining < size → second.remaining < size →
    SameEnd related
      (Walk.statements (fun _ => false) (allowance size) fuel first)
      (Walk.statements (fun _ => false) (allowance size) other second)

theorem furtherStatements_level (simulation : Simulation related named)
    {size fuel other : Nat} (turns : TurnsAgree related size fuel)
    {first second : Walk} (alike : related first second)
    (first_fits : first.remaining ≤ fuel)
    (second_fits : second.remaining ≤ other)
    (first_within : first.remaining < size)
    (second_within : second.remaining < size) :
    SameEnd related (furtherStatements (allowance size) fuel first)
      (furtherStatements (allowance size) other second) := by
  have settled := simulation.settle alike
  have found := simulation.next settled
  unfold furtherStatements
  cases left_next : first.settle.cursor.next? with
  | none =>
      cases right_next : second.settle.cursor.next? with
      | none => exact ⟨rfl, settled⟩
      | some place =>
          rw [left_next, right_next] at found
          nomatch found
  | some left =>
      cases right_next : second.settle.cursor.next? with
      | none =>
          rw [left_next, right_next] at found
          nomatch found
      | some right =>
          rw [left_next, right_next] at found
          have left_less : left.2.remaining < first.remaining :=
            remaining_settle first ▸
              TokenCursor.remaining_lt_of_next? left_next
          have right_less : right.2.remaining < second.remaining :=
            remaining_settle second ▸
              TokenCursor.remaining_lt_of_next? right_next
          cases found with
          | some alike =>
              apply turns other _ _ alike <;>
                simp only [remaining_moveTo] <;> omega

theorem turnsAgree (simulation : Simulation related named) (size fuel : Nat) :
    TurnsAgree related size fuel := by
  induction fuel using Nat.strongRecOn with
  | _ fuel induction =>
      intro other first second alike first_fits second_fits first_within
        second_within
      match fuel, other with
      | fuel + 1, other + 1 =>
          obtain ⟨-, -, agree, -⟩ := simulation.all_agree (allowance size)
          have visited := agree (allowance size) .document first second alike
            (run_statement_ne_exhausted first_within .document)
            (run_statement_ne_exhausted second_within .document)
          have first_less := (remaining_run (allowance size)
            (.statement .document) first).1
          have second_less := (remaining_run (allowance size)
            (.statement .document) second).1
          rw [statements_step, statements_step]
          generalize Walk.run (allowance size) (.statement .document) first =
              left, Walk.run (allowance size) (.statement .document) second =
              right at visited first_less second_less ⊢
          obtain ⟨outcome, left⟩ := left
          obtain ⟨_, right⟩ := right
          obtain ⟨rfl, apart, stopped⟩ := visited
          simp only at apart stopped first_less second_less ⊢
          split
          · next ended =>
              exact ⟨rfl, simulation.settle (stopped (by rw [ended]; nofun))⟩
          · cases apart with
            | level alike =>
                exact simulation.furtherStatements_level
                  (induction fuel (Nat.lt_succ_self _)) alike (by omega)
                  (by omega) (by omega) (by omega)
            | first token cursor reaches alike =>
                have less : cursor.remaining < left.remaining :=
                  TokenCursor.remaining_lt_of_next? reaches.next
                cases fuel with
                | zero => omega
                | succ fuel =>
                    rw [reaches.furtherStatements (by omega)]
                    exact simulation.furtherStatements_level
                      (induction fuel (by omega)) alike
                      (by simp only [remaining_moveTo]; omega) (by omega)
                      (by simp only [remaining_moveTo]; omega) (by omega)
            | second token cursor reaches alike =>
                have less : cursor.remaining < right.remaining :=
                  TokenCursor.remaining_lt_of_next? reaches.next
                cases other with
                | zero => omega
                | succ other =>
                    rw [reaches.furtherStatements (by omega)]
                    exact simulation.furtherStatements_level
                      (induction fuel (by omega)) alike (by omega)
                      (by simp only [remaining_moveTo]; omega) (by omega)
                      (by simp only [remaining_moveTo]; omega)

theorem document (simulation : Simulation related named)
    {tokens others : List Token} (same_length : tokens.length = others.length)
    (started : related (start tokens) (start others)) :
    related (Walk.document (fun _ => false) tokens).2
      (Walk.document (fun _ => false) others).2 := by
  unfold Walk.document
  cases tokens with
  | nil =>
      obtain rfl := List.eq_nil_of_length_eq_zero same_length.symm
      exact started
  | cons token rest =>
      cases others with
      | nil => cases same_length
      | cons other others =>
          have within : (start (token :: rest)).remaining <
              (token :: rest).length := Nat.lt_succ_self rest.length
          have other_within : (start (other :: others)).remaining <
              (token :: rest).length := by
            rw [same_length]
            exact Nat.lt_succ_self others.length
          rw [← same_length]
          exact (simulation.turnsAgree _ _ _ _ _ started within other_within
            within other_within).2

end Simulation

end ComponentLang.Walk
