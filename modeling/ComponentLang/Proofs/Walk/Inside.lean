import ComponentLang.Proofs.Grammar.Braces
import ComponentLang.Proofs.Walk.Steps

namespace ComponentLang

open Nesting TokenCursor

theorem Token.brace?_of_isTrivia {token : Token} (trivia : token.isTrivia) :
    token.brace? = none := by
  simp only [isTrivia, Bool.or_eq_true, Bool.and_eq_true, beq_iff_eq] at trivia
  unfold brace?
  rcases trivia with (comment | remark) | ⟨operator, text⟩
  · rw [comment]
    rfl
  · rw [remark]
    rfl
  · rw [operator, text]
    rfl

theorem Token.kind_of_brace? {token : Token} {brace : Brace}
    (found : token.brace? = some brace) : token.kind = .operator := by
  unfold brace? at found
  split at found
  · next operator => exact beq_iff_eq.mp operator
  · nomatch found

theorem Expected.accepts_of_brace? (expected : Expected) {token : Token}
    {brace : Brace} (braceless : expected.isBraceless)
    (found : token.brace? = some brace) : expected.accepts token = false := by
  have text_eq := Token.text_of_brace? found
  have kind_eq := Token.kind_of_brace? found
  cases expected with
  | oneOf candidates =>
      rw [accepts, Terminal.find?_eq_none_of_areBraceless braceless found]
      rfl
  | stringLiteral =>
      rw [accepts, kind_eq]
      rfl
  | _ =>
      simp only [accepts, startsExpression, startsType, isTruthWord, text_eq,
        kind_eq]
      cases brace <;> decide +kernel

theorem Nesting.isNested_of_braceless {tokens : List Token}
    (braceless : ∀ token ∈ tokens, token.brace? = none) : isNested tokens := by
  induction tokens with
  | nil => exact isNested_nil
  | cons token rest induction =>
      obtain ⟨plain, others⟩ := List.forall_mem_cons.mp braceless
      exact (isNested_cons_iff plain).mpr (induction others)

namespace Walk

/-- The walk has yet to come to `close`, the partner of a brace it has taken;
`back` is what follows the partner. -/
structure Inside (close : Token) (back : List Token) (walk : Walk) : Prop where
  closes : close.brace? = some .closing
  operators : BracesAreOperators walk.cursor.behind
  behind : ∃ inner, walk.cursor.behind = inner ++ close :: back ∧ isNested inner

theorem Inside.of_behind {close : Token} {back : List Token}
    {walk after : Walk} (inside : Inside close back walk)
    (same : after.cursor.behind = walk.cursor.behind) :
    Inside close back after :=
  ⟨inside.closes, same ▸ inside.operators, same ▸ inside.behind⟩

/-- The walk has taken a brace inside the body, and is inside the body again
once it comes to that brace's partner. -/
inductive Opened (close : Token) (back : List Token) (walk : Walk) : Prop where
  | intro (partner : Token) (rest : List Token)
    (inner : Inside partner rest walk)
    (outer : ∀ after : Walk, after.cursor.ahead = partner :: rest →
      Inside close back after)

/-- The walk inside the body has taken the token, which is not the partner. -/
inductive Arrived (close : Token) (back : List Token) (token : Token)
    (walk : Walk) : Prop where
  | plain (unbraced : token.brace? = none) (inside : Inside close back walk)
  | opening (opens : token.brace? = some .opening)
    (opened : Opened close back walk)

/-- Passing over nested tokens leads to the partner at most. -/
theorem Inside.pass {close token : Token} {back skipped : List Token}
    {walk : Walk} {after : TokenCursor} (inside : Inside close back walk)
    (behind_eq : walk.cursor.behind = skipped ++ token :: after.behind)
    (there : after.current? = some token) (nested : isNested skipped) :
    (token = close ∧ after.ahead = close :: back) ∨
      Arrived close back token (walk.moveTo after) := by
  obtain ⟨inner, inner_eq, inner_nested⟩ := inside.behind
  have operators : BracesAreOperators after.behind := by
    intro other member
    apply inside.operators
    rw [behind_eq]
    exact List.mem_append_right _ (List.mem_cons_of_mem _ member)
  have ahead : after.ahead = token :: after.behind := by
    obtain ⟨passed, _ | ⟨first, rest⟩⟩ := after
    · nomatch there
    · cases there
      rfl
  rw [behind_eq, List.append_eq_append_iff] at inner_eq
  rcases inner_eq with ⟨front, rfl, rest_eq⟩ | ⟨front, skipped_eq, rest_eq⟩
  · cases front with
    | nil =>
        left
        obtain ⟨token_eq, back_eq⟩ := List.cons.inj rest_eq
        rw [ahead, token_eq, back_eq]
        exact ⟨rfl, rfl⟩
    | cons first front =>
        right
        rw [List.cons_append] at rest_eq
        obtain ⟨rfl, tail_eq⟩ := List.cons.inj rest_eq
        rw [isNested_append_iff nested] at inner_nested
        cases brace : token.brace? with
        | none =>
            refine .plain brace ⟨inside.closes, operators, front, tail_eq, ?_⟩
            exact (isNested_cons_iff brace).mp inner_nested
        | some side =>
            cases side with
            | closing => exact absurd brace (brace?_ne_closing inner_nested)
            | opening =>
                rw [isNested_iff, depthAfter_cons, brace] at inner_nested
                obtain ⟨body, partner, rest, rfl, body_nested, closes, outer⟩ :=
                  exists_partner inner_nested
                rw [List.append_assoc, List.cons_append] at tail_eq
                refine .opening brace ⟨partner, rest ++ close :: back,
                  ⟨closes, operators, body, tail_eq, body_nested⟩, ?_⟩
                intro later later_ahead
                have later_behind :
                    later.cursor.behind = rest ++ close :: back := by
                  rw [TokenCursor.behind, later_ahead]
                  rfl
                refine ⟨inside.closes, ?_, rest, later_behind,
                  isNested_iff.mpr outer⟩
                intro other member
                apply operators
                rw [later_behind] at member
                rw [tail_eq]
                exact List.mem_append_right _ (List.mem_cons_of_mem _ member)
  · cases front with
    | nil =>
        left
        obtain ⟨token_eq, back_eq⟩ := List.cons.inj rest_eq
        rw [ahead, token_eq, back_eq]
        exact ⟨rfl, rfl⟩
    | cons first front =>
        -- The partner itself would be passed over.
        obtain ⟨rfl, -⟩ := List.cons.inj rest_eq
        rw [skipped_eq, isNested_append_iff inner_nested] at nested
        exact absurd inside.closes (brace?_ne_closing nested)

theorem Inside.next {close : Token} {back : List Token} {walk : Walk}
    (inside : Inside close back walk) :
    ∃ token cursor, walk.cursor.next? = some (token, cursor) ∧
      token.brace? = Brace.ofSpelling? token.text ∧
      ((token = close ∧ cursor.ahead = close :: back) ∨
        Arrived close back token (walk.moveTo cursor)) := by
  cases next_eq : walk.cursor.next? with
  | none =>
      obtain ⟨inner, behind_eq, -⟩ := inside.behind
      have trivia : close.isTrivia := by
        apply isTrivia_of_next? next_eq
        rw [behind_eq]
        exact List.mem_append_right _ List.mem_cons_self
      have closes := inside.closes
      rw [Token.brace?_of_isTrivia trivia] at closes
      nomatch closes
  | some found =>
      obtain ⟨token, cursor⟩ := found
      obtain ⟨skipped, behind_eq, trivia⟩ := behind_of_next? next_eq
      refine ⟨token, cursor, rfl, ?_, ?_⟩
      · apply inside.operators
        rw [behind_eq]
        exact List.mem_append_right _ List.mem_cons_self
      · apply inside.pass behind_eq (current?_of_next? next_eq).1
        apply isNested_of_braceless
        intro other member
        exact Token.brace?_of_isTrivia (trivia other member)

/-! Steps that take a token. -/

structure Stays (close : Token) (back : List Token) (step : Outcome × Walk) :
    Prop where
  unended : step.1 ≠ .ended
  inside : step.1 ≠ .exhausted → Inside close back step.2

theorem Inside.stays {close : Token} {back : List Token} {outcome : Outcome}
    {walk : Walk} (inside : Inside close back walk)
    (unended : outcome ≠ .ended) : Stays close back (outcome, walk) :=
  ⟨unended, fun _ => inside⟩

inductive Steps (close : Token) (back : List Token) (wanted : Token → Prop) :
    Outcome × Walk → Prop where
  | abandoned (line : Nat) (walk : Walk) (inside : Inside close back walk) :
      Steps close back wanted (.abandoned line, walk)
  | taken (token : Token) (walk : Walk)
      (there : walk.cursor.current? = some token)
      (operator : token.brace? = Brace.ofSpelling? token.text)
      (expected : wanted token) (arrived : Arrived close back token walk) :
      Steps close back wanted (.finished, walk)

def meetsOpening (walk : Walk) : Bool :=
  walk.cursor.peekIs [Operator.leftBrace]

theorem meetsOpening_of_next? {walk : Walk} {token : Token}
    {cursor : TokenCursor} (found : walk.cursor.next? = some (token, cursor))
    (opens : token.brace? = some .opening) : walk.meetsOpening := by
  rw [meetsOpening, peekIs, peek?, found, Option.map_some, Option.any_some,
    Token.text_of_brace? opens]
  rfl

theorem canResumeAt_of_brace? {token : Token} (walk : Walk)
    (closes : token.brace? = some .closing) : walk.canResumeAt token := by
  rw [canResumeAt_def, Token.text_of_brace? closes]
  rfl

theorem Inside.need_steps {close : Token} {back : List Token} {walk : Walk}
    {expected : Expected} (inside : Inside close back walk)
    (unclosing : expected.accepts close = false) :
    Steps close back
      (fun token => token.brace? = some .opening → walk.meetsOpening)
      (walk.need expected) := by
  obtain ⟨token, cursor, next_eq, operator, reached⟩ := inside.next
  rw [Walk.need, next_eq]
  simp only
  rcases reached with ⟨rfl, -⟩ | arrived
  · rw [unclosing, canResumeAt_of_brace? walk inside.closes]
    exact .abandoned _ _ (inside.of_behind rfl)
  · split
    · exact .taken token _ (current?_of_next? next_eq).1 operator
        (meetsOpening_of_next? next_eq) arrived
    · exact .abandoned _ _ (inside.of_behind rfl)

theorem Steps.stays {close : Token} {back : List Token}
    {wanted : Token → Prop} {step : Outcome × Walk}
    (steps : Steps close back wanted step)
    (unopening : ∀ token, wanted token → token.brace? ≠ some .opening) :
    Stays close back step := by
  cases steps with
  | abandoned line walk inside => exact inside.stays nofun
  | taken token walk there operator expected arrived =>
      cases arrived with
      | plain unbraced inside => exact inside.stays nofun
      | opening opens => exact absurd opens (unopening token expected)

theorem Inside.need {close : Token} {back : List Token} {walk : Walk}
    (inside : Inside close back walk) (expected : Expected)
    (braceless : expected.isBraceless) (unmet : walk.meetsOpening = false) :
    Stays close back (walk.need expected) := by
  apply (inside.need_steps
    (expected.accepts_of_brace? braceless inside.closes)).stays
  intro token meets opens
  rw [meets opens] at unmet
  contradiction

/-- The tokens that are passed over when the walk moves on, from a token that
is none of the candidates, to one of them. -/
def jumped (walk : Walk) (candidates : List Terminal) : List Token :=
  match walk.need (.oneOf candidates) with
  | (.finished, after) =>
      match after.cursor.current?, after.cursor.rescue? candidates with
      | some token, some reached =>
          if (Expected.oneOf candidates).accepts token then []
          else
            after.cursor.behind.take
              (after.cursor.remaining - reached.remaining - 1)
      | _, _ => []
  | _ => []

theorem rescue_report_of_none {walk : Walk} {candidates : List Terminal}
    (missing : walk.cursor.rescue? candidates = none) (cause : Cause)
    (anchor : Token) :
    (walk.report cause anchor).rescue candidates = walk.report cause anchor := by
  have same : (walk.report cause anchor).cursor.rescue? candidates = none :=
    missing
  rw [Walk.rescue, same]

theorem rescue_report_of_some {walk : Walk} {candidates : List Terminal}
    {reached : TokenCursor}
    (found : walk.cursor.rescue? candidates = some reached) (cause : Cause)
    (anchor : Token) :
    (walk.report cause anchor).rescue candidates =
      (walk.report cause anchor).moveTo reached := by
  have same : (walk.report cause anchor).cursor.rescue? candidates =
      some reached := found
  rw [Walk.rescue, same]

theorem Inside.rescue {close : Token} {back : List Token} {walk : Walk}
    {candidates : List Terminal} {reached : TokenCursor}
    (inside : Inside close back walk)
    (unclosing : (Expected.oneOf candidates).accepts close = false)
    (found : walk.cursor.rescue? candidates = some reached)
    (nested : isNested (walk.cursor.behind.take
      (walk.cursor.remaining - reached.remaining - 1))) :
    ∃ token, reached.current? = some token ∧
      token.brace? = Brace.ofSpelling? token.text ∧
      (Expected.oneOf candidates).accepts token ∧
      Arrived close back token (walk.moveTo reached) := by
  obtain ⟨skipped, token, behind_eq, there, wanted⟩ := behind_of_rescue? found
  have width : walk.cursor.remaining - reached.remaining - 1 =
      skipped.length := by
    have lengths := congrArg List.length behind_eq
    simp only [List.length_append, List.length_cons,
      TokenCursor.behind] at lengths
    simp only [TokenCursor.remaining]
    omega
  rw [width, behind_eq, List.take_left] at nested
  refine ⟨token, there, ?_, wanted, ?_⟩
  · apply inside.operators
    rw [behind_eq]
    exact List.mem_append_right _ List.mem_cons_self
  · rcases inside.pass behind_eq there nested with ⟨rfl, -⟩ | arrived
    · rw [Expected.accepts] at unclosing
      rw [unclosing] at wanted
      contradiction
    · exact arrived

theorem Arrived.report {close token : Token} {back : List Token} {walk : Walk}
    (arrived : Arrived close back token walk) (cause : Cause)
    (anchor : Token) : Arrived close back token (walk.report cause anchor) := by
  cases arrived with
  | plain unbraced inside => exact .plain unbraced (inside.of_behind rfl)
  | opening opens opened =>
      obtain ⟨partner, rest, inner, outer⟩ := opened
      exact .opening opens ⟨partner, rest, inner.of_behind rfl, outer⟩

theorem Inside.expect_steps {close : Token} {back : List Token} {walk : Walk}
    {candidates : List Terminal} (inside : Inside close back walk)
    (unclosing : (Expected.oneOf candidates).accepts close = false)
    (asked : ∀ token, token.brace? = some .opening → walk.meetsOpening →
      (Expected.oneOf candidates).accepts token)
    (nested : isNested (walk.jumped candidates)) :
    Steps close back
      (fun token => token.brace? = some .opening →
        (Expected.oneOf candidates).accepts token)
      (walk.expect candidates) := by
  have needed := inside.need_steps unclosing
  unfold jumped at nested
  unfold Walk.expect
  generalize walk.need (.oneOf candidates) = step at needed nested ⊢
  cases needed with
  | abandoned line after inside => exact .abandoned line after inside
  | taken token after there operator meets arrived =>
      have wanted (opens : token.brace? = some .opening) :=
        asked token opens (meets opens)
      simp only [there] at nested ⊢
      by_cases accepted : (Expected.oneOf candidates).accepts token
      · rw [if_pos accepted]
        exact .taken token after there operator wanted arrived
      · rw [if_neg accepted]
        cases rescue_eq : after.cursor.rescue? candidates with
        | none =>
            rw [rescue_report_of_none rescue_eq]
            exact .taken token _ there operator wanted (arrived.report _ _)
        | some reached =>
            rw [rescue_report_of_some rescue_eq]
            rw [rescue_eq] at nested
            simp only [if_neg accepted] at nested
            cases arrived with
            | plain unbraced within =>
                obtain ⟨last, last_there, last_operator, found, landed⟩ :=
                  within.rescue unclosing rescue_eq nested
                exact .taken last _ last_there last_operator (fun _ => found)
                  (landed.report (.mismatch candidates) token)
            | opening opens => exact absurd (wanted opens) accepted

theorem Inside.expect {close : Token} {back : List Token} {walk : Walk}
    {candidates : List Terminal} (inside : Inside close back walk)
    (braceless : Terminal.areBraceless candidates)
    (unmet : walk.meetsOpening = false)
    (nested : isNested (walk.jumped candidates)) :
    Stays close back (walk.expect candidates) := by
  have unasked {token : Token} {brace : Brace}
      (found : token.brace? = some brace) :
      (Expected.oneOf candidates).accepts token = false :=
    Expected.accepts_of_brace? (.oneOf candidates) braceless found
  apply (inside.expect_steps (unasked inside.closes) _ nested).stays
  · intro token wanted opens
    have accepted := wanted opens
    rw [unasked opens] at accepted
    contradiction
  · intro token _ meets
    rw [meets] at unmet
    contradiction

theorem Inside.take {close : Token} {back : List Token} {walk : Walk}
    {candidates : List Terminal} {terminal : Terminal} {cursor : TokenCursor}
    (inside : Inside close back walk)
    (braceless : Terminal.areBraceless candidates)
    (found : walk.cursor.take? candidates = some (terminal, cursor)) :
    Inside close back (walk.moveTo cursor) := by
  obtain ⟨token, next_eq, find_eq⟩ := next?_of_take? found
  obtain ⟨_, _, same_eq, -, reached⟩ := inside.next
  cases next_eq.symm.trans same_eq
  have unbraced (brace : Brace) : token.brace? ≠ some brace := by
    intro brace_eq
    rw [Terminal.find?_eq_none_of_areBraceless braceless brace_eq] at find_eq
    nomatch find_eq
  rcases reached with ⟨rfl, -⟩ | arrived
  · exact absurd inside.closes (unbraced _)
  · cases arrived with
    | plain _ moved => exact moved
    | opening opens => exact absurd opens (unbraced _)

theorem Inside.strings {close : Token} {back : List Token} {walk : Walk}
    (inside : Inside close back walk) : Inside close back walk.strings := by
  rcases behind_passStrings walk.cursor with
    same | ⟨skipped, token, behind_eq, there, string, others⟩
  · apply inside.of_behind
    rw [Walk.strings, same]
    rfl
  · have plain {other : Token} (kind : other.kind = .string) (brace : Brace) :
        other.brace? ≠ some brace := by
      rw [Token.brace?, kind]
      nofun
    have nested : isNested skipped := by
      apply isNested_of_braceless
      intro other member
      rcases others other member with trivia | kind
      · exact Token.brace?_of_isTrivia trivia
      · exact Option.eq_none_iff_forall_ne_some.mpr (plain kind)
    rcases inside.pass behind_eq there nested with ⟨rfl, -⟩ | arrived
    · exact absurd inside.closes (plain string _)
    · cases arrived with
      | plain _ moved => exact moved
      | opening opens => exact absurd opens (plain string _)

theorem Inside.define {close : Token} {back : List Token} {walk : Walk}
    (inside : Inside close back walk) (unmet : walk.meetsOpening = false)
    (kind : TokenKind) (modifiers : Modifiers) :
    Stays close back
      ((walk.define kind modifiers).1, (walk.define kind modifiers).2.2) := by
  have needed := inside.need .identifier rfl unmet
  unfold Walk.define
  cases need_eq : walk.need .identifier with
  | mk outcome after =>
      rw [need_eq] at needed
      cases outcome with
      | finished =>
          exact Inside.stays ((needed.inside nofun).of_behind
            (behind_declare after kind modifiers)) nofun
      | abandoned line => exact needed
      | ended => exact needed
      | exhausted => exact needed

/-! Steps that ask for a brace. -/

theorem Arrived.opened {close token : Token} {back : List Token} {walk : Walk}
    (arrived : Arrived close back token walk)
    (operator : token.brace? = Brace.ofSpelling? token.text)
    (spelled : token.text = Operator.leftBrace.spelling) :
    Opened close back walk := by
  have opens : token.brace? = some .opening := by
    rw [operator, spelled]
    rfl
  cases arrived with
  | plain unbraced =>
      rw [unbraced] at opens
      nomatch opens
  | opening _ opened => exact opened

theorem Inside.takeOpening {close : Token} {back : List Token} {walk : Walk}
    {terminal : Terminal} {cursor : TokenCursor}
    (inside : Inside close back walk)
    (found : walk.cursor.take? [Operator.leftBrace] = some (terminal, cursor)) :
    Opened close back (walk.moveTo cursor) := by
  obtain ⟨token, next_eq, find_eq⟩ := next?_of_take? found
  obtain ⟨_, _, same_eq, operator, reached⟩ := inside.next
  cases next_eq.symm.trans same_eq
  have spelled : token.text = Operator.leftBrace.spelling := by
    rw [← Terminal.spelling_of_find?_eq_some find_eq,
      List.mem_singleton.mp (List.mem_of_find?_eq_some find_eq)]
    rfl
  rcases reached with ⟨rfl, -⟩ | arrived
  · have closes := inside.closes
    rw [operator, spelled] at closes
    nomatch closes
  · exact arrived.opened operator spelled

theorem Inside.expectOpening {close : Token} {back : List Token} {walk : Walk}
    (inside : Inside close back walk)
    (nested : isNested (walk.jumped [Operator.leftBrace])) :
    Steps close back
      (fun token => token.brace? = some .opening →
        (Expected.oneOf [Operator.leftBrace]).accepts token)
      (walk.expect [Operator.leftBrace]) := by
  apply inside.expect_steps _ _ nested
  · rw [Expected.accepts, Token.text_of_brace? inside.closes]
    rfl
  · intro token opens _
    rw [Expected.accepts, Token.text_of_brace? opens]
    rfl

end Walk

end ComponentLang
