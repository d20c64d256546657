import ComponentLang.Proofs.Grammar.Sparing
import ComponentLang.Proofs.Token.Landings
import ComponentLang.Proofs.Token.Moves
import ComponentLang.Proofs.Walk.Visits

namespace ComponentLang

open TokenCursor

namespace Walk

/-- The findings made and two for each token still to come. -/
def dues (walk : Walk) : Nat :=
  walk.findings.length + 2 * walk.cursor.upcoming.length

end Walk

/-- How many findings more than set aside there may be. -/
def Standing.due : Standing → Nat
  | .fresh => 0
  | .used => 1
  | .stopped _ => 2

theorem Standing.due_le_two (standing : Standing) : standing.due ≤ 2 := by
  cases standing <;> simp [due]

def Finding.isEnd (finding : Finding) : Bool :=
  finding.cause.code == .unexpectedEndOfInput

theorem Finding.not_isEnd {cause : Cause} {anchor : Token}
    (other : cause.code ≠ .unexpectedEndOfInput) :
    ¬(⟨cause, anchor⟩ : Finding).isEnd := by
  simpa [isEnd] using other

namespace Walk

variable {tokens : List Token} {limit : Nat} {standing : Standing}
  {walk after : Walk}

/-- The walk has found no more than is set aside and comes to where it stands
before the end of the document. -/
structure Sparing (tokens : List Token) (limit : Nat) (standing : Standing)
    (walk : Walk) : Prop where
  dues_le : walk.dues ≤ limit + standing.due
  endless : ∀ finding ∈ walk.findings, ¬finding.isEnd
  lands : walk.cursor.LandsIn tokens
  resumes : ∀ resumption, standing = .stopped resumption →
    walk.cursor.next?.isSome ∧ walk.resumes resumption

structure RunsOut (tokens : List Token) (limit : Nat) (walk : Walk) :
    Prop where
  dues_le : walk.dues ≤ limit + 2
  ends : ∃ expected earlier,
    walk.findings = ⟨.endOfInput expected, .marker walk.place⟩ :: earlier ∧
      ∀ finding ∈ earlier, ¬finding.isEnd
  lands : walk.cursor.LandsIn tokens
  none_left : walk.cursor.next? = none

/-- How a step may end that leaves the walk in the given standing. -/
def Settles (tokens : List Token) (limit : Nat) (standing : Standing) :
    Outcome × Walk → Prop
  | (.finished, walk) => Sparing tokens limit standing walk
  | (.abandoned _, walk) => Sparing tokens limit (.stopped .anywhere) walk
  | (.ended, walk) => RunsOut tokens limit walk
  | (.exhausted, walk) => ∃ standing, Sparing tokens limit standing walk

structure Remarks (before after : Walk) : Prop where
  behind : after.cursor.behind = before.cursor.behind
  current : after.cursor.current?.map Token.site =
    before.cursor.current?.map Token.site
  findings : after.findings = before.findings ∨
    ∃ finding, after.findings = finding :: before.findings ∧ ¬finding.isEnd

namespace Remarks

theorem refl : Remarks walk walk :=
  ⟨rfl, rfl, .inl rfl⟩

theorem report {cause : Cause} {anchor : Token}
    (other : cause.code ≠ .unexpectedEndOfInput) :
    Remarks walk (walk.report cause anchor) :=
  ⟨rfl, rfl, .inr ⟨_, rfl, Finding.not_isEnd other⟩⟩

theorem classify (remarks : Remarks walk after) (kind : TokenKind)
    (modifiers : Modifiers) :
    Remarks walk (after.classify kind modifiers) where
  behind := (behind_reclassify _ _ _).trans remarks.behind
  current := by
    rw [← remarks.current]
    simp only [Walk.classify, current?_reclassify, Option.map_map]
    rfl
  findings := remarks.findings

theorem of_symbols {symbols : SymbolTable}
    (remarks : Remarks { walk with symbols } after) : Remarks walk after :=
  ⟨remarks.behind, remarks.current, remarks.findings⟩

theorem complain (walk : Walk) (complaint : Complaint) :
    Remarks walk (walk.complain complaint) := by
  unfold Walk.complain
  split
  · exact refl
  · cases complaint <;> exact .report nofun

theorem resolve (walk : Walk) : Remarks walk walk.resolve := by
  unfold Walk.resolve
  split
  · exact refl
  · split
    · split
      · exact refl.classify _ _
      · exact .report nofun
    · exact .report nofun

theorem reportDuplicate (walk : Walk) (registration : Registration)
    (kind : TokenKind) (token : Token) :
    Remarks walk (walk.reportDuplicate registration kind token) := by
  unfold Walk.reportDuplicate
  split
  · split
    · exact refl
    · exact .report nofun
  · exact refl

theorem declare (walk : Walk) (kind : TokenKind) (modifiers : Modifiers) :
    Remarks walk (walk.declare kind modifiers).2 := by
  unfold Walk.declare
  split
  · exact refl
  · split
    · exact ((reportDuplicate _ _ _ _).classify _ _).of_symbols
    · exact .report nofun

end Remarks

namespace Sparing

theorem used (sparing : Sparing tokens limit standing walk)
    (unstopped : !standing.isStopped) : Sparing tokens limit .used walk where
  dues_le := by
    have dues_le := sparing.dues_le
    cases standing with
    | fresh => exact Nat.le_succ_of_le dues_le
    | used => exact dues_le
    | stopped => cases unstopped
  endless := sparing.endless
  lands := sparing.lands
  resumes := nofun

theorem remark (sparing : Sparing tokens limit .fresh walk)
    (remarks : Remarks walk after) : Sparing tokens limit .used after where
  dues_le := by
    have dues_le := sparing.dues_le
    have upcoming_eq : after.cursor.upcoming = walk.cursor.upcoming := by
      rw [upcoming, remarks.behind, upcoming]
    simp only [dues, Standing.due, upcoming_eq] at dues_le ⊢
    rcases remarks.findings with same | ⟨finding, same, -⟩
    · rw [same]
      omega
    · rw [same, List.length_cons]
      omega
  endless := by
    rcases remarks.findings with same | ⟨finding, same, other⟩
    · rw [same]
      exact sparing.endless
    · rw [same]
      exact List.forall_mem_cons.mpr ⟨other, sparing.endless⟩
  lands := sparing.lands.stay remarks.behind remarks.current
  resumes := nofun

theorem scopes (sparing : Sparing tokens limit standing walk)
    {stack : ScopeStack} {count : Nat} :
    Sparing tokens limit standing
      { walk with scopes := stack, resets := count } :=
  ⟨sparing.dues_le, sparing.endless, sparing.lands, sparing.resumes⟩

theorem next (sparing : Sparing tokens limit standing walk) {token : Token}
    {cursor : TokenCursor}
    (found : walk.cursor.next? = some (token, cursor)) :
    Sparing tokens limit .fresh (walk.moveTo cursor) where
  dues_le := by
    have dues_le := sparing.dues_le
    have due_le := standing.due_le_two
    simp only [dues, moveTo, upcoming_of_next? found, List.length_cons,
      Standing.due] at dues_le due_le ⊢
    omega
  endless := sparing.endless
  lands := sparing.lands.next found
  resumes := nofun

theorem strings (sparing : Sparing tokens limit .fresh walk) :
    Sparing tokens limit .used walk.strings where
  dues_le := by
    have dues_le := sparing.dues_le
    have fewer := (forward_passStrings walk.cursor).length_upcoming_le
    simp only [dues, Standing.due, Walk.strings, moveTo] at dues_le ⊢
    omega
  endless := sparing.endless
  lands := sparing.lands.passStrings
  resumes := nofun

theorem advance (sparing : Sparing tokens limit standing walk)
    (expected : Expected) :
    Settles tokens limit .fresh (walk.advance expected) := by
  unfold Walk.advance
  split
  · next token cursor next_eq => exact sparing.next next_eq
  · next none_left =>
      have unstopped : !standing.isStopped := by
        cases standing with
        | stopped resumption =>
            have further := (sparing.resumes resumption rfl).1
            rw [none_left] at further
            cases further
        | _ => rfl
      obtain ⟨dues_le, endless, lands, -⟩ := sparing.used unstopped
      refine ⟨?_, ⟨expected, walk.findings, rfl, endless⟩, lands, none_left⟩
      simp only [dues, Standing.due, report, List.length_cons] at dues_le ⊢
      omega

theorem need (sparing : Sparing tokens limit .used walk)
    (expected : Expected) :
    Settles tokens limit .fresh (walk.need expected) := by
  unfold Walk.need
  split
  · exact sparing.advance expected
  · next token cursor next_eq =>
      split
      · exact sparing.next next_eq
      · refine ⟨?_, ?_, sparing.lands, ?_⟩
        · have dues_le := sparing.dues_le
          simp only [dues, Standing.due, report, List.length_cons] at dues_le ⊢
          omega
        · exact List.forall_mem_cons.mpr
            ⟨Finding.not_isEnd nofun, sparing.endless⟩
        · rintro _ ⟨⟩
          exact ⟨by simp [report, next_eq], rfl⟩

theorem rescue (sparing : Sparing tokens limit .used walk)
    {candidates : List Terminal} (meant : candidates.all Terminal.isMeaningful) :
    Sparing tokens limit .used (walk.rescue candidates) := by
  unfold Walk.rescue
  split
  · next cursor found =>
      refine ⟨?_, sparing.endless, sparing.lands.rescue meant found, nofun⟩
      have dues_le := sparing.dues_le
      have fewer := (forward_of_rescue? found).length_upcoming_le
      simp only [dues, moveTo] at dues_le ⊢
      omega
  · exact sparing

theorem expect (sparing : Sparing tokens limit .used walk)
    {candidates : List Terminal} (meant : candidates.all Terminal.isMeaningful) :
    Settles tokens limit .used (walk.expect candidates) := by
  have needed := sparing.need (.oneOf candidates)
  unfold Walk.expect
  cases need_eq : walk.need (.oneOf candidates) with
  | mk outcome after =>
      rw [need_eq] at needed
      cases outcome with
      | finished =>
          have taken : Sparing tokens limit .fresh after := needed
          simp only
          split
          · exact taken.used rfl
          · next token there =>
              split
              · exact taken.used rfl
              · have reported : Sparing tokens limit .used
                    (after.report (.mismatch candidates) token) :=
                  taken.remark (.report nofun)
                exact reported.rescue meant
      | _ => exact needed

theorem define (sparing : Sparing tokens limit .used walk) (kind : TokenKind)
    (modifiers : Modifiers) :
    Settles tokens limit .used
      ((walk.define kind modifiers).1, (walk.define kind modifiers).2.2) := by
  have needed := sparing.need .identifier
  unfold Walk.define
  cases need_eq : walk.need .identifier with
  | mk outcome after =>
      rw [need_eq] at needed
      cases outcome with
      | finished =>
          have taken : Sparing tokens limit .fresh after := needed
          exact taken.remark (.declare after kind modifiers)
      | _ => exact needed

theorem defined (sparing : Sparing tokens limit .used walk) {kind : TokenKind}
    {modifiers : Modifiers} {outcome : Outcome} {name : Option String}
    (define_eq : walk.define kind modifiers = (outcome, name, after)) :
    Settles tokens limit .used (outcome, after) := by
  have named := sparing.define kind modifiers
  rwa [define_eq] at named

theorem take (sparing : Sparing tokens limit standing walk)
    {candidates : List Terminal} {terminal : Terminal} {cursor : TokenCursor}
    (found : walk.cursor.take? candidates = some (terminal, cursor)) :
    Sparing tokens limit .fresh (walk.moveTo cursor) := by
  obtain ⟨token, next_eq, -⟩ := next?_of_take? found
  exact sparing.next next_eq

theorem not_announces (sparing : Sparing tokens limit standing walk)
    {candidates : List Terminal}
    (absent : walk.cursor.take? candidates = none) :
    standing.announces candidates = false := by
  cases standing with
  | fresh | used => rfl
  | stopped resumption =>
      cases resumption with
      | anywhere => rfl
      | before terminals =>
          have here := (sparing.resumes _ rfl).2
          rw [Bool.eq_false_iff]
          intro announced
          have among : terminals ⊆ candidates := fun terminal member => by
            simpa using List.all_eq_true.mp announced terminal member
          have there := peekIs_of_subset rfl among here
          rw [peekIs_eq_isSome_take?, absent] at there
          cases there

end Sparing

namespace Settles

variable {step : Outcome × Walk} {outcome : Outcome}

theorem used (settles : Settles tokens limit standing step)
    (unstopped : !standing.isStopped) : Settles tokens limit .used step := by
  obtain ⟨outcome, walk⟩ := step
  cases outcome with
  | finished => exact Sparing.used settles unstopped
  | _ => exact settles

theorem any {rule : Rule} (settles : Settles tokens limit (.behind rule) step) :
    Settles tokens limit .used step := by
  apply settles.used
  unfold Standing.behind
  split <;> rfl

theorem closeScope (settles : Settles tokens limit standing (outcome, walk)) :
    Settles tokens limit standing (outcome, walk.closeScope) := by
  cases outcome with
  | finished => exact Sparing.scopes settles
  | abandoned => exact Sparing.scopes settles
  | ended =>
      exact ⟨settles.dues_le, settles.ends, settles.lands, settles.none_left⟩
  | exhausted =>
      obtain ⟨standing, sparing⟩ := settles
      exact ⟨standing, sparing.scopes⟩

theorem sparing (settles : Settles tokens limit standing (outcome, walk))
    (unended : outcome ≠ .ended) :
    ∃ standing, Sparing tokens limit standing walk := by
  cases outcome with
  | finished => exact ⟨standing, settles⟩
  | abandoned => exact ⟨.stopped .anywhere, settles⟩
  | ended => exact absurd rfl unended
  | exhausted => exact settles

end Settles

/-- A rule that is sparing pays for each finding with a token that it, or what
came before it, has taken. -/
theorem settles_run (fuel : Nat) (rule : Rule) (walk : Walk)
    (standing : Standing) (spares : rule.isSparing standing)
    (here : Sparing tokens limit standing walk) :
    Settles tokens limit (.behind rule) (run fuel rule walk) := by
  fun_induction run fuel rule walk generalizing standing with
  | case1 => exact ⟨standing, here⟩
  | case2 => exact here.used spares
  | case3 fuel walk first next after first_eq first_ih next_ih =>
      rw [Rule.isSparing, Bool.and_eq_true] at spares
      have front := first_ih standing spares.1 here
      rw [first_eq] at front
      exact (next_ih _ spares.2 front).any
  | case4 fuel walk first next unfinished first_ih =>
      rw [Rule.isSparing, Bool.and_eq_true] at spares
      exact (first_ih standing spares.1 here).any
  | case5 fuel walk expected => exact (here.used spares).need expected
  | case6 fuel walk candidates =>
      rw [Rule.isSparing, Bool.and_eq_true] at spares
      exact (here.used spares.1).expect spares.2
  | case7 fuel walk candidates found missing terminal cursor take_eq
      induction =>
      rw [Rule.isSparing, Bool.and_eq_true] at spares
      exact (induction .fresh spares.1 (here.take take_eq)).any
  | case8 fuel walk candidates found missing take_eq induction =>
      -- What was announced would have been taken.
      rw [Rule.isSparing, Bool.and_eq_true, here.not_announces take_eq,
        Bool.or_false] at spares
      exact (induction standing spares.2 here).any
  | case9 fuel walk => exact here.advance _
  | case10 fuel walk test holding failing _ induction =>
      rw [Rule.isSparing, Bool.and_eq_true] at spares
      exact (induction standing spares.1 here).any
  | case11 fuel walk test holding failing _ induction =>
      rw [Rule.isSparing, Bool.and_eq_true] at spares
      exact (induction standing spares.2 here).any
  | case12 fuel walk complaint =>
      obtain rfl := beq_iff_eq.mp spares
      exact here.remark (.complain walk complaint)
  | case13 fuel walk =>
      obtain rfl := beq_iff_eq.mp spares
      exact here.strings
  | case14 fuel walk =>
      obtain rfl := beq_iff_eq.mp spares
      exact here.remark (.resolve walk)
  | case15 fuel walk kind modifiers body name defined define_eq inner _ outcome
      after body_eq induction =>
      rw [Rule.isSparing, Bool.and_eq_true] at spares
      have named := (here.used spares.1).defined define_eq
      have opened := induction .used spares.2 (Sparing.scopes named)
      rw [body_eq] at opened
      exact opened.any.closeScope
  | case16 fuel walk kind modifiers body name defined define_eq _ induction =>
      rw [Rule.isSparing, Bool.and_eq_true] at spares
      have named := (here.used spares.1).defined define_eq
      exact (induction .used spares.2 named).any
  | case17 fuel walk kind modifiers body stopped name after _ define_eq =>
      rw [Rule.isSparing, Bool.and_eq_true] at spares
      exact (here.used spares.1).defined define_eq
  | case18 fuel walk kind modifiers name defined define_eq terminal cursor
      take_eq outcome after params_eq induction =>
      have named := (here.used spares).defined define_eq
      have opened := Sparing.take named take_eq
      have within := induction .fresh rfl opened.scopes
      rw [params_eq] at within
      exact within.closeScope
  | case19 fuel walk kind modifiers name defined define_eq _ =>
      exact (here.used spares).defined define_eq
  | case20 fuel walk kind modifiers stopped name after _ define_eq =>
      exact (here.used spares).defined define_eq
  | case21 fuel walk resumption body next resumed after body_eq body_ih
      next_ih =>
      simp only [Rule.isSparing, Bool.and_eq_true] at spares
      have front := body_ih standing spares.1.1.2 here
      rw [body_eq] at front
      have behind := front.any
      exact (next_ih .used spares.1.2 behind).any
  | case22 fuel walk resumption body next resumed line after body_eq resumes
      body_ih resumed_ih =>
      simp only [Rule.isSparing, Bool.and_eq_true] at spares
      have front := body_ih standing spares.1.1.2 here
      rw [body_eq] at front
      obtain ⟨dues_le, endless, lands, stopped⟩ := front
      -- The token in front of which the part was given up is still to come.
      have resumed_here : Sparing tokens limit (.stopped resumption) after :=
        ⟨dues_le, endless, lands, by
          rintro _ ⟨⟩
          exact ⟨(stopped _ rfl).1, resumes⟩⟩
      exact (resumed_ih _ spares.2 resumed_here).any
  | case23 fuel walk resumption body next resumed line after body_eq _
      body_ih =>
      simp only [Rule.isSparing, Bool.and_eq_true] at spares
      have front := body_ih standing spares.1.1.2 here
      rwa [body_eq] at front
  | case24 fuel walk resumption body next resumed _ _ body_ih =>
      simp only [Rule.isSparing, Bool.and_eq_true] at spares
      exact (body_ih standing spares.1.1.2 here).any
  | case25 fuel walk block _ =>
      obtain rfl := beq_iff_eq.mp spares
      exact here.used rfl
  | case26 fuel walk block statement _ induction =>
      obtain rfl := beq_iff_eq.mp spares
      exact (induction .used statement.isSparing_rule (here.used rfl)).any
  | case27 fuel walk block _ =>
      obtain rfl := beq_iff_eq.mp spares
      exact here.remark (.complain walk .unexpectedToken)
  | case28 fuel walk nonterminal induction =>
      have settled : Settles tokens limit (.behind nonterminal.rule)
          (run fuel nonterminal.rule walk) := by
        cases standing with
        | stopped resumption =>
            exact induction _
              (Nonterminal.isSparing_rule_of_takesUp spares resumption) here
        | _ => exact induction _ nonterminal.isSparing_rule (here.used rfl)
      exact settled.any

/-- How a walk over the tokens may end. -/
def LeavesOff (tokens : List Token) (limit : Nat) (walk : Walk) : Prop :=
  (∃ standing, Sparing tokens limit standing walk) ∨ RunsOut tokens limit walk

theorem Sparing.settle (sparing : Sparing tokens limit standing walk) :
    Sparing tokens limit standing walk.settle := by
  unfold Walk.settle
  split
  · exact sparing
  · exact sparing.scopes

theorem RunsOut.settle (runsOut : RunsOut tokens limit walk) :
    RunsOut tokens limit walk.settle := by
  unfold Walk.settle
  split
  · exact runsOut
  · exact ⟨runsOut.dues_le, runsOut.ends, runsOut.lands, runsOut.none_left⟩

theorem leavesOff_statements (stop : Walk → Bool) (steps fuel : Nat)
    (here : Sparing tokens limit .fresh walk) :
    LeavesOff tokens limit (statements stop steps fuel walk).2 := by
  fun_induction statements stop steps fuel walk with
  | case1 | case2 => exact .inl ⟨.fresh, here⟩
  | case3 fuel walk _ after run_eq =>
      have ran := settles_run steps (.statement .document) walk .fresh rfl here
      rw [run_eq] at ran
      exact .inr (RunsOut.settle ran)
  | case4 fuel walk _ outcome after unended run_eq token cursor next_eq
      induction =>
      have ran := settles_run steps (.statement .document) walk .fresh rfl here
      rw [run_eq] at ran
      obtain ⟨standing, sparing⟩ := ran.sparing unended
      exact induction (sparing.settle.next next_eq)
  | case5 fuel walk _ outcome after unended run_eq _ =>
      have ran := settles_run steps (.statement .document) walk .fresh rfl here
      rw [run_eq] at ran
      obtain ⟨standing, sparing⟩ := ran.sparing unended
      exact .inl ⟨standing, sparing.settle⟩

/-- Where nothing is found yet, two findings are set aside for the current
token and for each that follows. -/
theorem sparing_of_findings_nil (nothing : walk.findings = [])
    (limit_eq : limit = 2 * walk.cursor.upcoming.length)
    (lands : walk.cursor.LandsIn tokens) :
    Sparing tokens limit .fresh walk where
  dues_le := by simp [dues, nothing, Standing.due, limit_eq]
  endless := by simp [nothing]
  lands := lands
  resumes := nofun

theorem leavesOff_of_isTrivia {first : Token} {rest : List Token}
    (trivia : first.isTrivia) (stop : Walk → Bool) {steps : Nat}
    (some_step : steps ≠ 0) (fuel : Nat) :
    (statements stop steps fuel (start (first :: rest))).2.findings = [] ∨
      ∃ limit, limit + 2 = 2 * (meaningful rest).length ∧
        LeavesOff (first :: rest) limit
          (statements stop steps fuel (start (first :: rest))).2 := by
  cases fuel with
  | zero => exact .inl rfl
  | succ fuel =>
      rw [statements]
      split
      · exact .inl rfl
      · rw [run_statement_of_isTrivia rfl trivia some_step .document]
        have settled : (start (first :: rest)).settle = start (first :: rest) :=
          rfl
        simp only [settled]
        split
        · next token cursor next_eq =>
            right
            have upcoming_eq : meaningful rest = token :: cursor.upcoming :=
              upcoming_of_next? next_eq
            have lands : cursor.LandsIn (first :: rest) := by
              obtain ⟨skipped, behind_eq, -⟩ := behind_of_next? next_eq
              obtain ⟨there, carries⟩ := current?_of_next? next_eq
              exact ⟨first :: skipped, token, token,
                congrArg (first :: ·) behind_eq, there, rfl,
                Token.isHeard_of_not_isTrivia carries⟩
            refine ⟨2 * cursor.upcoming.length, ?_, ?_⟩
            · rw [upcoming_eq, List.length_cons]
              omega
            · exact leavesOff_statements stop steps fuel
                (sparing_of_findings_nil rfl rfl lands)
        · exact .inl rfl

theorem leavesOff_document (stop : Walk → Bool) (tokens : List Token) :
    (document stop tokens).2.findings = [] ∨
      ∃ limit, limit + 2 = 2 * (meaningful tokens).length ∧
        LeavesOff tokens limit (document stop tokens).2 := by
  cases tokens with
  | nil => exact .inl rfl
  | cons first rest =>
      rw [document, if_neg (by simp)]
      by_cases trivia : first.isTrivia
      · rw [meaningful_cons_of_isTrivia trivia]
        exact leavesOff_of_isTrivia trivia stop (by simp [allowance]) _
      · right
        have carries := Bool.eq_false_iff.mpr trivia
        refine ⟨2 * (meaningful rest).length, ?_, ?_⟩
        · rw [meaningful_cons carries, List.length_cons]
          omega
        · have lands : (start (first :: rest)).cursor.LandsIn (first :: rest) :=
            ⟨[], first, first, rfl, rfl, rfl,
              Token.isHeard_of_not_isTrivia carries⟩
          exact leavesOff_statements stop _ _
            (sparing_of_findings_nil rfl rfl lands)

theorem length_findings_le (stop : Walk → Bool) (tokens : List Token) :
    (document stop tokens).2.findings.length ≤
      2 * (meaningful tokens).length := by
  rcases leavesOff_document stop tokens with nothing | ⟨limit, limit_eq, ends⟩
  · rw [nothing]
    exact Nat.zero_le _
  · have dues_le : (document stop tokens).2.dues ≤ limit + 2 := by
      rcases ends with ⟨standing, sparing⟩ | runsOut
      · have dues_le := sparing.dues_le
        have due_le := standing.due_le_two
        omega
      · exact runsOut.dues_le
    unfold dues at dues_le
    omega

/-- That the document ends is found once at most and last, behind a token that
is heard and has nothing but trivia behind it. -/
theorem findings_end {stop : Walk → Bool} {tokens : List Token}
    {finding : Finding}
    (member : finding ∈ (document stop tokens).2.findings)
    (atEnd : finding.isEnd) :
    (∃ earlier, (document stop tokens).2.findings = finding :: earlier ∧
      ∀ other ∈ earlier, ¬other.isEnd) ∧
    ∃ front token rest, tokens = front ++ token :: rest ∧ token.IsHeard ∧
      (∀ other ∈ rest, other.isTrivia) ∧
      finding.anchor = .marker token.stop := by
  rcases leavesOff_document stop tokens with nothing |
    ⟨limit, -, ⟨standing, sparing⟩ | ⟨-, ends, lands, none_left⟩⟩
  · rw [nothing] at member
    cases member
  · exact absurd atEnd (sparing.endless finding member)
  · obtain ⟨expected, earlier, findings_eq, endless⟩ := ends
    obtain ⟨front, token, current, tokens_eq, there, site_eq, heard⟩ := lands
    rw [findings_eq] at member ⊢
    rcases List.mem_cons.mp member with rfl | before
    · refine ⟨⟨earlier, rfl, endless⟩, front, token, _, tokens_eq, heard,
        fun other => isTrivia_of_next? none_left, ?_⟩
      rw [place, TokenCursor.place, there, Option.map_some, Option.getD_some,
        Token.stop_eq_of_site site_eq]
    · exact absurd atEnd (endless finding before)

end Walk

end ComponentLang
