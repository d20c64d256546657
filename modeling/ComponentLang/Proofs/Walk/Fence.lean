import ComponentLang.Proofs.Grammar.Fences
import ComponentLang.Proofs.Symbol.Tables
import ComponentLang.Proofs.Walk.Steps

namespace ComponentLang

/-- A word that fences statements off, with the tokens behind it. None of them
stands above `row`. -/
structure Fence where
  row : Nat
  token : Token
  rest : List Token
  word : token.IsFence
  below : ∀ other ∈ token :: rest, row ≤ other.line

namespace Fence

/-- The token stands above the fence's row. It is no opening brace and begins no
specifier of a location. -/
structure Above (fence : Fence) (token : Token) : Prop where
  line : token.line < fence.row
  unbraced : token.text ≠ Operator.leftBrace.spelling
  unlocated : token.text ≠ Keyword.locate.spelling

theorem Above.reclassify {fence : Fence} {token : Token}
    (above : fence.Above token) (kind : TokenKind) (modifiers : Modifiers) :
    fence.Above (token.reclassify kind modifiers) :=
  ⟨above.line, above.unbraced, above.unlocated⟩

theorem split_cases {front rest skipped after : List Token}
    {token found : Token}
    (same : front ++ token :: rest = skipped ++ found :: after) :
    (∃ between, front = skipped ++ found :: between ∧
      after = between ++ token :: rest) ∨
    (front = skipped ∧ token = found ∧ rest = after) ∨
    (token ∈ skipped ∧ found ∈ rest) := by
  rcases List.append_eq_append_iff.mp same with
    ⟨further, rfl, behind⟩ | ⟨further, rfl, behind⟩
  · cases further with
    | nil =>
        obtain ⟨rfl, rfl⟩ := List.cons.inj behind
        exact .inr (.inl ⟨(List.append_nil _).symm, rfl, rfl⟩)
    | cons head tail =>
        obtain ⟨rfl, rfl⟩ := List.cons.inj behind
        exact .inr (.inr ⟨by simp, by simp⟩)
  · cases further with
    | nil =>
        obtain ⟨rfl, rfl⟩ := List.cons.inj behind
        exact .inr (.inl ⟨List.append_nil _, rfl, rfl⟩)
    | cons head tail =>
        obtain ⟨rfl, rfl⟩ := List.cons.inj behind
        exact .inl ⟨tail, rfl, rfl⟩

end Fence

namespace Walk

variable {walk : Walk} {row : Nat}

structure Early (row : Nat) (walk : Walk) : Prop where
  passed : ∀ token ∈ walk.cursor.passed, token.line < row
  classified : ∀ token ∈ walk.classified, token.line < row
  findings : ∀ finding ∈ walk.findings, finding.anchor.line < row
  symbols : walk.symbols.IsPlain

theorem Early.report (early : walk.Early row) (cause : Cause) {anchor : Token}
    (above : anchor.line < row) : (walk.report cause anchor).Early row :=
  { early with
    findings := List.forall_mem_cons.mpr ⟨above, early.findings⟩ }

structure InFrontOf (fence : Fence) (walk : Walk) : Prop where
  early : walk.Early fence.row
  ahead : ∃ current front,
    walk.cursor.ahead = current :: (front ++ fence.token :: fence.rest) ∧
      fence.Above current ∧
      ∀ token ∈ front, fence.Above token ∧ token.kind ≠ .string

structure Reaches (fence : Fence) (walk : Walk) : Prop where
  early : walk.Early fence.row
  ahead : walk.cursor.ahead = fence.token :: fence.rest

namespace InFrontOf

variable {fence : Fence}

theorem exists_current (front : walk.InFrontOf fence) :
    ∃ current, walk.cursor.current? = some current ∧ fence.Above current := by
  obtain ⟨current, others, ahead_eq, above, -⟩ := front.ahead
  exact ⟨current, by rw [TokenCursor.current?, ahead_eq]; rfl, above⟩

theorem report (front : walk.InFrontOf fence) (cause : Cause) {anchor : Token}
    (above : anchor.line < fence.row) :
    (walk.report cause anchor).InFrontOf fence :=
  ⟨front.early.report cause above, front.ahead⟩

theorem place_line (front : walk.InFrontOf fence) :
    walk.place.line < fence.row := by
  obtain ⟨current, there, above⟩ := front.exists_current
  rw [place, TokenCursor.place, there]
  exact above.line

/-- A move of the walk stops in front of the fence or on it, unless it passes
over it. -/
theorem move (front : walk.InFrontOf fence) {reached : TokenCursor}
    {skipped : List Token} {token : Token}
    (kept : reached.toList = walk.cursor.toList)
    (behind_eq : walk.cursor.behind = skipped ++ token :: reached.behind)
    (arrived : reached.current? = some token) :
    (walk.moveTo reached).InFrontOf fence ∧ token.kind ≠ .string ∨
      token = fence.token ∧ (walk.moveTo reached).Reaches fence ∨
      fence.token ∈ skipped ∧ token ∈ fence.rest := by
  obtain ⟨current, others, ahead_eq, above, others_above⟩ := front.ahead
  have there : walk.cursor.current? = some current := by
    rw [TokenCursor.current?, ahead_eq]
    rfl
  have passed_eq := TokenCursor.passed_of_move there kept behind_eq arrived
  have behind : others ++ fence.token :: fence.rest =
      skipped ++ token :: reached.behind := by
    rw [← behind_eq, TokenCursor.behind, ahead_eq]
    rfl
  have early (above_skipped : ∀ other ∈ skipped, fence.Above other) :
      (walk.moveTo reached).Early fence.row := by
    refine { front.early with passed := ?_ }
    intro other member
    change other ∈ reached.passed at member
    rw [← List.mem_reverse, passed_eq] at member
    rcases List.mem_append.mp member with before | later
    · exact front.early.passed other (List.mem_reverse.mp before)
    · rcases List.mem_cons.mp later with rfl | between
      · exact above.line
      · exact (above_skipped other between).line
  have ahead := TokenCursor.ahead_of_current? arrived
  rcases Fence.split_cases behind with
    ⟨between, rfl, after_eq⟩ | ⟨rfl, rfl, after_eq⟩ | beyond
  · left
    obtain ⟨above_skipped, later⟩ := List.forall_mem_append.mp others_above
    obtain ⟨here, further⟩ := List.forall_mem_cons.mp later
    refine ⟨⟨early fun other member => (above_skipped other member).1, token,
      between, ?_, here.1, further⟩, here.2⟩
    rw [← after_eq]
    exact ahead
  · right
    left
    refine ⟨rfl, early fun other member => (others_above other member).1, ?_⟩
    rw [after_eq]
    exact ahead
  · exact .inr (.inr beyond)

theorem next_cases (front : walk.InFrontOf fence) :
    ∃ token reached, walk.cursor.next? = some (token, reached) ∧
      ((walk.moveTo reached).InFrontOf fence ∨
        token = fence.token ∧ (walk.moveTo reached).Reaches fence) := by
  cases next_eq : walk.cursor.next? with
  | none =>
      obtain ⟨current, others, ahead_eq, -⟩ := front.ahead
      have among : fence.token ∈ walk.cursor.behind := by
        rw [TokenCursor.behind, ahead_eq]
        exact List.mem_append_right _ List.mem_cons_self
      have trivia := TokenCursor.isTrivia_of_next? next_eq among
      rw [fence.word.isTrivia_eq_false] at trivia
      cases trivia
  | some place =>
      obtain ⟨token, reached⟩ := place
      refine ⟨token, reached, rfl, ?_⟩
      obtain ⟨skipped, behind_eq, trivia⟩ := TokenCursor.behind_of_next? next_eq
      rcases front.move (TokenCursor.toList_of_next? next_eq) behind_eq
        (TokenCursor.current?_of_next? next_eq).1 with
        ⟨stays, -⟩ | reaches | ⟨passed, -⟩
      · exact .inl stays
      · exact .inr reaches
      · have passed_trivia := trivia _ passed
        rw [fence.word.isTrivia_eq_false] at passed_trivia
        cases passed_trivia

theorem rescue (front : walk.InFrontOf fence) (candidates : List Terminal) :
    (walk.rescue candidates).InFrontOf fence := by
  unfold Walk.rescue
  split
  · next reached found =>
      obtain ⟨current, there, above⟩ := front.exists_current
      obtain ⟨skipped, token, behind_eq, arrived, -⟩ :=
        TokenCursor.behind_of_rescue? found
      have line_eq := TokenCursor.line_of_rescue? there found arrived
      have outside (below : token ∈ fence.token :: fence.rest) : False := by
        have early := above.line
        have late := fence.below token below
        omega
      rcases front.move (TokenCursor.toList_of_rescue? found) behind_eq
        arrived with ⟨stays, -⟩ | ⟨rfl, -⟩ | ⟨-, below⟩
      · exact stays
      · exact (outside List.mem_cons_self).elim
      · exact (outside (List.mem_cons_of_mem _ below)).elim
  · exact front

theorem strings (front : walk.InFrontOf fence) :
    walk.strings.InFrontOf fence := by
  rcases TokenCursor.behind_passStrings walk.cursor with same |
    ⟨skipped, token, behind_eq, arrived, string, passed⟩
  · rw [Walk.strings, same]
    exact ⟨{ front.early with }, front.ahead⟩
  · exfalso
    rcases front.move (TokenCursor.toList_passStrings _) behind_eq arrived with
      ⟨-, other⟩ | ⟨rfl, -⟩ | ⟨beyond, -⟩
    · exact other string
    · rw [fence.word.kind] at string
      nomatch string
    · rcases passed _ beyond with trivia | string
      · rw [fence.word.isTrivia_eq_false] at trivia
        nomatch trivia
      · rw [fence.word.kind] at string
        nomatch string

theorem classify (front : walk.InFrontOf fence) (kind : TokenKind)
    (modifiers : Modifiers) : (walk.classify kind modifiers).InFrontOf fence := by
  obtain ⟨early, current, others, ahead_eq, above, others_above⟩ := front
  obtain ⟨⟨passed, ahead⟩, scopes, symbols, classified, findings, resets⟩ := walk
  obtain rfl : ahead = _ := ahead_eq
  refine ⟨⟨early.passed, ?_, early.findings, early.symbols⟩,
    current.reclassify kind modifiers, others, rfl, above.reclassify kind _,
    others_above⟩
  exact List.forall_mem_cons.mpr ⟨above.line, early.classified⟩

theorem complain (front : walk.InFrontOf fence) (complaint : Complaint) :
    (walk.complain complaint).InFrontOf fence := by
  obtain ⟨current, there, above⟩ := front.exists_current
  rw [Walk.complain, there]
  cases complaint <;> exact front.report _ above.line

theorem resolve (front : walk.InFrontOf fence) :
    walk.resolve.InFrontOf fence := by
  obtain ⟨current, there, above⟩ := front.exists_current
  rw [Walk.resolve, there]
  simp only
  split
  · split
    · exact front.classify _ _
    · exact front.report _ above.line
  · exact front.report _ above.line

theorem declare (front : walk.InFrontOf fence) (kind : TokenKind)
    (modifiers : Modifiers) :
    (walk.declare kind modifiers).2.InFrontOf fence := by
  obtain ⟨current, there, above⟩ := front.exists_current
  rw [Walk.declare, there]
  simp only
  split
  · refine InFrontOf.classify ?_ kind modifiers.withDeclaration
    have registered (symbol : Symbol) : InFrontOf fence
        { walk with symbols := (walk.symbols.declare symbol).2 } :=
      ⟨{ front.early with symbols := front.early.symbols.declare symbol },
        front.ahead⟩
    unfold Walk.reportDuplicate
    split
    · split
      · exact registered _
      · exact (registered _).report _ above.line
    · exact registered _
  · exact front.report _ above.line

theorem scopes (front : walk.InFrontOf fence) (stack : ScopeStack)
    (count : Nat) :
    InFrontOf fence { walk with scopes := stack, resets := count } :=
  ⟨{ front.early with }, front.ahead⟩

theorem settle (front : walk.InFrontOf fence) : walk.settle.InFrontOf fence := by
  unfold Walk.settle
  split
  · exact front
  · exact front.scopes _ _

theorem take (front : walk.InFrontOf fence) {candidates : List Terminal}
    (fenced : (Expected.oneOf candidates).isFenced) {terminal : Terminal}
    {cursor : TokenCursor}
    (found : walk.cursor.take? candidates = some (terminal, cursor)) :
    (walk.moveTo cursor).InFrontOf fence ∧
      candidates ≠ [.operator .leftBrace] := by
  obtain ⟨token, taken, spelled⟩ := TokenCursor.next?_of_take? found
  obtain ⟨_, _, next_eq, reached⟩ := front.next_cases
  cases taken.symm.trans next_eq
  rcases reached with stays | ⟨rfl, -⟩
  · refine ⟨stays, ?_⟩
    rintro rfl
    obtain ⟨current, there, above⟩ := stays.exists_current
    cases there.symm.trans (TokenCursor.current?_of_next? taken).1
    have brace := List.mem_of_find?_eq_some spelled
    rw [List.mem_singleton] at brace
    have same := Terminal.spelling_of_find?_eq_some spelled
    rw [brace] at same
    exact above.unbraced same.symm
  · rw [fence.word.find?_eq_none fenced] at spelled
    nomatch spelled

def Stays (fence : Fence) (step : Outcome × Walk) : Prop :=
  step.1 ≠ .ended ∧ step.2.InFrontOf fence

theorem need (front : walk.InFrontOf fence) {expected : Expected}
    (fenced : expected.isFenced) : Stays fence (walk.need expected) := by
  obtain ⟨current, there, above⟩ := front.exists_current
  obtain ⟨token, reached, next_eq, moved⟩ := front.next_cases
  rw [Walk.need, next_eq]
  simp only
  rcases moved with stays | ⟨rfl, -⟩
  · obtain ⟨here, arrived, here_above⟩ := stays.exists_current
    cases arrived.symm.trans (TokenCursor.current?_of_next? next_eq).1
    split
    · exact ⟨nofun, stays⟩
    · refine ⟨nofun, front.report _ ?_⟩
      split
      · exact front.place_line
      · exact here_above.line
  · have later : walk.isLater fence.token := by
      rw [isLater, TokenCursor.isLater, there]
      have below := fence.below fence.token List.mem_cons_self
      exact decide_eq_true (Nat.lt_of_lt_of_le above.line below)
    have resumes : walk.canResumeAt fence.token := by
      obtain ⟨word, word_fence, text_eq⟩ := fence.word.word
      rw [canResumeAt_def, fence.word.kind, later, text_eq,
        Keyword.ofSpelling?_spelling, Option.any_some,
        Keyword.startsStatement_of_isFence word_fence]
      exact Bool.or_true _
    rw [Expected.accepts_eq_false fenced fence.word, resumes, if_neg (by simp),
      if_pos later]
    exact ⟨nofun, front.report _ front.place_line⟩

theorem expect (front : walk.InFrontOf fence) {candidates : List Terminal}
    (fenced : (Expected.oneOf candidates).isFenced) :
    Stays fence (walk.expect candidates) := by
  have needed := front.need fenced
  unfold Walk.expect
  generalize walk.need (.oneOf candidates) = step at needed
  obtain ⟨outcome, after⟩ := step
  cases outcome with
  | finished =>
      obtain ⟨current, there, above⟩ := needed.2.exists_current
      simp only [there]
      split
      · exact needed
      · exact ⟨nofun, (needed.2.report _ above.line).rescue candidates⟩
  | abandoned line => exact needed
  | ended => exact needed
  | exhausted => exact needed

theorem define (front : walk.InFrontOf fence) (kind : TokenKind)
    (modifiers : Modifiers) :
    Stays fence ((walk.define kind modifiers).1,
      (walk.define kind modifiers).2.2) := by
  have needed : Stays fence (walk.need .identifier) := front.need rfl
  unfold Walk.define
  generalize walk.need .identifier = step at needed
  obtain ⟨outcome, after⟩ := step
  cases outcome with
  | finished => exact ⟨nofun, needed.2.declare kind modifiers⟩
  | abandoned line => exact needed
  | ended => exact needed
  | exhausted => exact needed

theorem defined (front : walk.InFrontOf fence) {kind : TokenKind}
    {modifiers : Modifiers} {outcome : Outcome} {name : Option String}
    {after : Walk}
    (define_eq : walk.define kind modifiers = (outcome, name, after)) :
    Stays fence (outcome, after) := by
  have named := front.define kind modifiers
  rwa [define_eq] at named

theorem run (front : walk.InFrontOf fence) (fuel : Nat) {rule : Rule}
    (fenced : rule.isFenced) : Stays fence (Walk.run fuel rule walk) := by
  fun_induction Walk.run fuel rule walk with
  | case1 | case2 => exact ⟨by simp, front⟩
  | case3 fuel walk first next after first_eq first_ih next_ih =>
      rw [Rule.isFenced, Bool.and_eq_true] at fenced
      have stays := first_ih front fenced.1
      rw [first_eq] at stays
      exact next_ih stays.2 fenced.2
  | case4 fuel walk first next _ first_ih =>
      rw [Rule.isFenced, Bool.and_eq_true] at fenced
      exact first_ih front fenced.1
  | case5 fuel walk expected => exact front.need fenced
  | case6 fuel walk candidates => exact front.expect fenced
  | case7 fuel walk candidates found missing terminal cursor take_eq
      induction =>
      rw [Rule.isFenced, Bool.and_eq_true, Bool.and_eq_true] at fenced
      obtain ⟨stays, other⟩ := front.take fenced.1.1 take_eq
      have found_fenced := (Bool.or_eq_true_iff.mp fenced.1.2).resolve_left
        fun brace => other (beq_iff_eq.mp brace)
      exact induction stays found_fenced
  | case8 fuel walk candidates found missing _ induction =>
      rw [Rule.isFenced, Bool.and_eq_true] at fenced
      exact induction front fenced.2
  | case9 => cases fenced
  | case10 fuel walk test holding failing holds induction =>
      rw [Rule.isFenced, Bool.and_eq_true] at fenced
      refine induction front ((Bool.or_eq_true_iff.mp fenced.1).resolve_left ?_)
      -- No token in front of the fence is the brace that is asked for.
      intro brace
      obtain ⟨current, there, above⟩ := front.exists_current
      rw [beq_iff_eq.mp brace, Walk.holds, TokenCursor.holds, there] at holds
      exact above.unbraced (beq_iff_eq.mp holds)
  | case11 fuel walk test holding failing _ induction =>
      rw [Rule.isFenced, Bool.and_eq_true] at fenced
      exact induction front fenced.2
  | case12 fuel walk complaint => exact ⟨by simp, front.complain complaint⟩
  | case13 => exact ⟨by simp, front.strings⟩
  | case14 => exact ⟨by simp, front.resolve⟩
  | case15 fuel walk kind modifiers body name defined define_eq inner _ outcome
      after body_eq induction =>
      have named := front.defined define_eq
      have within := induction (named.2.scopes _ _) fenced
      rw [body_eq] at within
      exact ⟨within.1, within.2.scopes _ _⟩
  | case16 fuel walk kind modifiers body name defined define_eq _ induction =>
      exact induction (front.defined define_eq).2 fenced
  | case17 fuel walk kind modifiers body stopped name after _ define_eq =>
      exact front.defined define_eq
  | case18 fuel walk kind modifiers name defined define_eq terminal cursor
      take_eq outcome after params_eq induction =>
      have taken := ((front.defined define_eq).2.take rfl take_eq).1
      have within := induction (taken.scopes _ _) rfl
      rw [params_eq] at within
      exact ⟨within.1, within.2.scopes _ _⟩
  | case19 fuel walk kind modifiers name defined define_eq _ =>
      exact front.defined define_eq
  | case20 fuel walk kind modifiers stopped name after _ define_eq =>
      exact front.defined define_eq
  | case21 fuel walk resumption body next resumed after body_eq body_ih
      next_ih =>
      rw [Rule.isFenced, Bool.and_eq_true, Bool.and_eq_true] at fenced
      have stays := body_ih front fenced.1.1
      rw [body_eq] at stays
      exact next_ih stays.2 fenced.1.2
  | case22 fuel walk resumption body next resumed line after body_eq _ body_ih
      resumed_ih =>
      rw [Rule.isFenced, Bool.and_eq_true, Bool.and_eq_true] at fenced
      have stays := body_ih front fenced.1.1
      rw [body_eq] at stays
      exact resumed_ih stays.2 fenced.2
  | case23 fuel walk resumption body next resumed line after body_eq _
      body_ih =>
      rw [Rule.isFenced, Bool.and_eq_true, Bool.and_eq_true] at fenced
      have stays := body_ih front fenced.1.1
      rw [body_eq] at stays
      exact ⟨by simp, stays.2⟩
  | case24 fuel walk resumption body next resumed _ _ body_ih =>
      rw [Rule.isFenced, Bool.and_eq_true, Bool.and_eq_true] at fenced
      exact body_ih front fenced.1.1
  | case25 | case26 | case27 => cases fenced
  | case28 fuel walk nonterminal induction =>
      exact induction front (nonterminal.isFenced_rule fenced)

theorem text_of_beginning_eq_locate {block : Block} {current : Token}
    (there : walk.cursor.current? = some current)
    (begins : walk.beginning block = .statement .locate) :
    current.text = Keyword.locate.spelling := by
  rw [beginning, TokenCursor.beginning, there] at begins
  simp only at begins
  split at begins
  · nomatch begins
  · split at begins
    · split at begins
      · next statement found =>
          cases begins
          obtain ⟨word, word_eq, selected⟩ := Option.bind_eq_some_iff.mp found
          obtain rfl := Statement.eq_locate_of_select selected
          exact (Keyword.ofSpelling?_eq_some_iff.mp word_eq).symm
      · nomatch begins
    · nomatch begins

/-- The rule of a statement is fenced, but for the specifier of a location, and
that one does not begin in front of the fence. -/
theorem visit (front : walk.InFrontOf fence) (steps : Nat) (block : Block) :
    Stays fence (Walk.run steps (.statement block) walk) := by
  cases steps with
  | zero => exact ⟨by simp [Walk.run], front⟩
  | succ steps =>
      rw [Walk.run]
      cases begins : walk.beginning block with
      | nothing => exact ⟨by simp, front⟩
      | statement statement =>
          refine front.run steps (statement.isFenced_rule ?_)
          rintro rfl
          obtain ⟨current, there, above⟩ := front.exists_current
          exact above.unlocated (text_of_beginning_eq_locate there begins)
      | unexpected => exact ⟨by simp, front.complain .unexpectedToken⟩

/-! The statements of a document. -/

theorem statements (front : walk.InFrontOf fence) (steps : Nat) {fuel : Nat}
    (enough : walk.remaining < fuel) :
    ∃ reached turns, reached.Reaches fence ∧ reached.remaining < turns ∧
      Walk.statements (fun _ => false) steps fuel walk =
        Walk.statements (fun _ => false) steps turns reached := by
  induction fuel generalizing walk with
  | zero => exact absurd enough (Nat.not_lt_zero _)
  | succ fuel induction =>
      have visited := front.visit steps .document
      have forward := (remaining_run steps (.statement .document) walk).1
      rw [statements_step]
      generalize Walk.run steps (.statement .document) walk = step
        at visited forward
      obtain ⟨token, cursor, next_eq, moved⟩ := visited.2.settle.next_cases
      have taken := TokenCursor.remaining_lt_of_next? next_eq
      have settled := remaining_settle step.2
      have fewer : (step.2.settle.moveTo cursor).remaining < fuel := by
        simp only [remaining, moveTo] at *
        omega
      rw [if_neg visited.1, furtherStatements, next_eq]
      simp only
      rcases moved with stays | ⟨-, reaches⟩
      · exact induction stays fewer
      · exact ⟨_, fuel, reaches, fewer, rfl⟩

end InFrontOf

theorem early_start (row : Nat) (tokens : List Token) :
    (start tokens).Early row where
  passed _ member := nomatch member
  classified _ member := nomatch member
  findings _ member := nomatch member
  symbols _ member := nomatch member

theorem document_reaches {fence : Fence} {tokens : List Token}
    (above : ∀ token ∈ tokens, fence.Above token ∧ token.kind ≠ .string) :
    ∃ reached turns, reached.Reaches fence ∧ reached.remaining < turns ∧
      document (fun _ => false) (tokens ++ fence.token :: fence.rest) =
        statements (fun _ => false)
          (allowance (tokens ++ fence.token :: fence.rest).length) turns
          reached := by
  rw [document, if_neg (by simp)]
  cases tokens with
  | nil =>
      exact ⟨_, _, ⟨early_start _ _, rfl⟩, Nat.lt_succ_self _, rfl⟩
  | cons token others =>
      obtain ⟨here, further⟩ := List.forall_mem_cons.mp above
      have front : (start (token :: others ++ fence.token :: fence.rest)).InFrontOf
          fence := ⟨early_start _ _, token, others, rfl, here.1, further⟩
      exact front.statements _ (Nat.lt_succ_self _)

end Walk

end ComponentLang
