import ComponentLang.Proofs.Syntax.Beginnings
import ComponentLang.Proofs.Visitor.Refinement
import ComponentLang.Proofs.Walk.Steps

namespace ComponentLang

namespace TokenCursor

/-- The cursor goes over the tokens `skipped` and comes to the token, along
tokens that stay as they are. -/
structure ComesTo (cursor : TokenCursor) (skipped : List Token) (token : Token)
    (reached : TokenCursor) : Prop where
  kept : reached.toList = cursor.toList
  behind : cursor.behind = skipped ++ token :: reached.behind
  arrived : reached.current? = some token

/-- The token is the next one that is no trivia. -/
structure ComesNext (cursor : TokenCursor) (token : Token)
    (reached : TokenCursor) : Prop where
  move : ∃ skipped, cursor.ComesTo skipped token reached ∧
    ∀ other ∈ skipped, other.isTrivia
  meaning : token.isTrivia = false

theorem comesNext_of_next? {cursor reached : TokenCursor} {token : Token}
    (found : cursor.next? = some (token, reached)) :
    cursor.ComesNext token reached := by
  obtain ⟨skipped, behind_eq, trivia⟩ := behind_of_next? found
  obtain ⟨arrived, meaning⟩ := current?_of_next? found
  exact ⟨⟨skipped, ⟨toList_of_next? found, behind_eq, arrived⟩, trivia⟩, meaning⟩

theorem ComesNext.peekIs_eq {cursor reached : TokenCursor} {token : Token}
    (next : cursor.ComesNext token reached) (candidates : List Terminal) :
    cursor.peekIs candidates = (Terminal.find? candidates token.text).isSome := by
  obtain ⟨⟨skipped, move, trivia⟩, meaning⟩ := next
  rw [peekIs, peek?_eq_head?, upcoming_of_behind move.behind trivia meaning]
  rfl

theorem peekIs_eq_false {cursor : TokenCursor}
    (trivia : ∀ token ∈ cursor.behind, token.isTrivia)
    (candidates : List Terminal) : cursor.peekIs candidates = false := by
  have upcoming_eq : cursor.upcoming = [] :=
    List.filter_eq_nil_iff.mpr (by simpa using trivia)
  rw [peekIs, peek?_eq_head?, upcoming_eq]
  rfl

/-- The candidate as which the current token is spelled. -/
def spelledAs? (cursor : TokenCursor) (candidates : List Terminal) :
    Option Terminal :=
  cursor.current?.bind fun token => Terminal.find? candidates token.text

theorem spelled_of_spelledAs? {cursor : TokenCursor}
    {candidates : List Terminal} {terminal : Terminal}
    (found : cursor.spelledAs? candidates = some terminal) :
    terminal ∈ candidates ∧ ∃ token, cursor.current? = some token ∧
      token.text = terminal.spelling := by
  obtain ⟨token, there, spelled⟩ := Option.bind_eq_some_iff.mp found
  exact ⟨List.mem_of_find?_eq_some spelled, token, there,
    (Terminal.spelling_of_find?_eq_some spelled).symm⟩

/-- Where a walk goes on behind a token that is no candidate: on the first
candidate to its right in its line or, when there is none, on the token. -/
inductive Recovers (candidates : List Terminal) (token : Token)
    (cursor : TokenCursor) : TokenCursor → Prop where
  | jumps (skipped : List Token) (found : Token) (reached : TokenCursor)
    (move : cursor.ComesTo skipped found reached)
    (line : found.line = token.line)
    (candidate : (Terminal.find? candidates found.text).isSome)
    (first : ∀ other ∈ skipped, Terminal.find? candidates other.text = none) :
    Recovers candidates token cursor reached
  | stays
    (missing : ∀ other ∈ cursor.behind.takeWhile (·.line == token.line),
      Terminal.find? candidates other.text = none) :
    Recovers candidates token cursor cursor

theorem Recovers.toList_eq {candidates : List Terminal} {token : Token}
    {cursor reached : TokenCursor}
    (recovers : Recovers candidates token cursor reached) :
    reached.toList = cursor.toList := by
  cases recovers with
  | jumps skipped found reached move => exact move.kept
  | stays => rfl

theorem recovers_rescue? {cursor : TokenCursor} {token : Token}
    (there : cursor.current? = some token) (candidates : List Terminal) :
    Recovers candidates token cursor
      ((cursor.rescue? candidates).getD cursor) := by
  have ahead_eq := ahead_of_current? there
  have looked := map_fst_seek (fun other => other.line == token.line)
    (fun other => (Terminal.find? candidates other.text).isSome)
    (token :: cursor.passed) cursor.behind
  rw [rescue?, ahead_eq]
  dsimp only
  cases seek_eq : seek (fun other => other.line == token.line)
      (fun other => (Terminal.find? candidates other.text).isSome)
      (token :: cursor.passed) cursor.behind with
  | none =>
      rw [seek_eq] at looked
      refine .stays fun other member => ?_
      simpa using List.find?_eq_none.mp looked.symm other member
  | some found =>
      obtain ⟨other, reached⟩ := found
      obtain ⟨skipped, behind_eq, unwanted⟩ := behind_of_seek seek_eq
      obtain ⟨arrived, candidate, line⟩ := current?_of_seek seek_eq
      have kept : reached.toList = cursor.toList := by
        rw [toList_of_seek seek_eq, toList, ahead_eq, List.reverse_cons,
          List.append_assoc, List.singleton_append]
      refine .jumps skipped other reached ⟨kept, behind_eq, arrived⟩
        (beq_iff_eq.mp line) candidate ?_
      simpa using unwanted

end TokenCursor

namespace Walk

def ReportsNothing (before after : Walk) : Prop :=
  ∀ options, after.diagnostics options = before.diagnostics options

def ReportsOne (code : DiagnosticCode) (before after : Walk) : Prop :=
  ∀ options, ∃ diagnostic,
    after.diagnostics options = before.diagnostics options ++ [diagnostic] ∧
      diagnostic.code = code ∧ diagnostic.severity = .error

theorem ReportsOne.of_findings {before after : Walk} (finding : Finding)
    (findings : after.findings = finding :: before.findings)
    (severe : ∀ options : Options, options.severity? finding.cause = some .error) :
    ReportsOne finding.cause.code before after := by
  intro options
  refine ⟨finding.diagnostic .error, ?_, rfl, rfl⟩
  have reported : options.report? finding = some (finding.diagnostic .error) := by
    rw [Options.report?, severe options, Option.map_some]
  rw [diagnostics, findings, List.reverse_cons, List.filterMap_append,
    List.filterMap_cons_some reported, List.filterMap_nil]
  rfl

theorem ReportsOne.not_reportsNothing {code : DiagnosticCode}
    {before after : Walk} (reports : ReportsOne code before after) :
    ¬ReportsNothing before after := by
  intro silent
  obtain ⟨diagnostic, more, -⟩ := reports {}
  rw [silent] at more
  exact absurd (List.self_eq_append_right.mp more) (List.cons_ne_nil _ _)

/-- The walks have the same tokens, with the same kinds, and know the same
symbols. -/
structure Untouched (before after : Walk) : Prop where
  tokens : after.cursor.toList = before.cursor.toList
  scopes : after.scopes = before.scopes
  symbols : after.symbols = before.symbols
  classified : after.classified = before.classified
  resets : after.resets = before.resets

theorem Untouched.of_cursor {before : Walk} (findings : List Finding)
    {cursor : TokenCursor} (kept : cursor.toList = before.cursor.toList) :
    Untouched before { before with findings, cursor } :=
  ⟨kept, rfl, rfl, rfl, rfl⟩

/-! Required elements. -/

/-- How a step ends that takes the next token as the start of what is
expected. -/
inductive Required (expected : Expected) (before : Walk) :
    Outcome × Walk → Prop where
  | taken (token : Token) (after : Walk)
    (next : before.cursor.ComesNext token after.cursor)
    (goes : expected.accepts token ∨ before.canResumeAt token = false)
    (silent : ReportsNothing before after)
    (untouched : Untouched before after) :
    Required expected before (.finished, after)
  | abandoned (token : Token) (reached : TokenCursor) (after : Walk)
    (next : before.cursor.ComesNext token reached)
    (refused : expected.accepts token = false)
    (resumes : before.canResumeAt token)
    (stays : after.cursor = before.cursor)
    (reports : ReportsOne .expectedToken before after)
    (untouched : Untouched before after) :
    Required expected before (.abandoned token.line, after)
  | ended (after : Walk)
    (trivia : ∀ token ∈ before.cursor.behind, token.isTrivia)
    (stays : after.cursor = before.cursor)
    (reports : ReportsOne .unexpectedEndOfInput before after)
    (untouched : Untouched before after) :
    Required expected before (.ended, after)

theorem required_need (walk : Walk) (expected : Expected) :
    Required expected walk (walk.need expected) := by
  unfold need
  split
  · next none_left =>
      rw [advance, none_left]
      refine .ended _ (fun token => TokenCursor.isTrivia_of_next? none_left) rfl
        ?_ (.of_cursor _ rfl)
      exact .of_findings ⟨.endOfInput expected, _⟩ rfl fun _ => rfl
  · next token reached next_eq =>
      have next := TokenCursor.comesNext_of_next? next_eq
      have kept := TokenCursor.toList_of_next? next_eq
      split
      · next goes =>
          rw [Bool.or_eq_true, Bool.not_eq_true'] at goes
          exact .taken token _ next goes (fun options => rfl)
            (.of_cursor _ kept)
      · next stuck =>
          rw [Bool.not_eq_true, Bool.or_eq_false_iff, Bool.not_eq_false'] at stuck
          refine .abandoned token reached _ next stuck.1 stuck.2 rfl ?_
            (.of_cursor _ rfl)
          exact .of_findings ⟨.abandoned expected _, _⟩ rfl fun _ => rfl

theorem finished_or_stopped (walk : Walk) (expected : Expected) :
    (∃ token taken, walk.cursor.next? = some (token, taken) ∧
      walk.need expected = (.finished, walk.moveTo taken)) ∨
      (walk.need expected).1 ≠ .finished := by
  by_cases finished : (walk.need expected).1 = .finished
  · obtain ⟨token, taken, next_eq, after_eq⟩ :=
      next?_of_need (Prod.ext finished rfl)
    exact .inl ⟨token, taken, next_eq, Prod.ext finished after_eq⟩
  · exact .inr finished

/-! Required terminals. -/

/-- The candidate that is found where one is required: as the next token, or
further on in the line of that token. -/
def answer? (walk : Walk) (candidates : List Terminal) : Option Terminal :=
  match walk.need (.oneOf candidates) with
  | (.finished, after) =>
      after.cursor.spelledAs? candidates <|>
        (after.cursor.rescue? candidates).bind (·.spelledAs? candidates)
  | _ => none

/-- How a step ends that takes one of the candidates. -/
inductive Landed (candidates : List Terminal) (before : Walk) :
    Outcome × Walk → Prop where
  | matched (token : Token) (after : Walk)
    (next : before.cursor.ComesNext token after.cursor)
    (candidate : (Terminal.find? candidates token.text).isSome)
    (silent : ReportsNothing before after)
    (untouched : Untouched before after) :
    Landed candidates before (.finished, after)
  | mismatched (token : Token) (taken : TokenCursor) (after : Walk)
    (next : before.cursor.ComesNext token taken)
    (other : Terminal.find? candidates token.text = none)
    (recovers : TokenCursor.Recovers candidates token taken after.cursor)
    (reports : ReportsOne .expectedToken before after)
    (untouched : Untouched before after) :
    Landed candidates before (.finished, after)
  | stopped (step : Outcome × Walk) (unfinished : step.1 ≠ .finished)
    (required : Required (.oneOf candidates) before step) :
    Landed candidates before step

section Expect

variable {walk : Walk} {candidates : List Terminal} {token : Token}
  {taken : TokenCursor}

theorem rescue_eq_moveTo (walk : Walk) (candidates : List Terminal) :
    walk.rescue candidates =
      walk.moveTo ((walk.cursor.rescue? candidates).getD walk.cursor) := by
  unfold rescue
  cases walk.cursor.rescue? candidates <;> rfl

theorem expect_of_accepts
    (need_eq : walk.need (.oneOf candidates) = (.finished, walk.moveTo taken))
    (there : taken.current? = some token)
    (candidate : (Terminal.find? candidates token.text).isSome) :
    walk.expect candidates = (.finished, walk.moveTo taken) := by
  have current_eq : (walk.moveTo taken).cursor.current? = some token := there
  simp only [expect, need_eq, current_eq, Expected.accepts, candidate, if_true]

theorem expect_of_mismatch
    (need_eq : walk.need (.oneOf candidates) = (.finished, walk.moveTo taken))
    (there : taken.current? = some token)
    (other : Terminal.find? candidates token.text = none) :
    walk.expect candidates =
      (.finished, (walk.report (.mismatch candidates) token).moveTo
        ((taken.rescue? candidates).getD taken)) := by
  have current_eq : (walk.moveTo taken).cursor.current? = some token := there
  simp only [expect, need_eq, current_eq, Expected.accepts, other,
    Option.isSome_none, Bool.false_eq_true, if_false, rescue_eq_moveTo]
  rfl

theorem expect_of_need
    (unfinished : (walk.need (.oneOf candidates)).1 ≠ .finished) :
    walk.expect candidates = walk.need (.oneOf candidates) := by
  unfold expect
  split
  · next need_eq =>
      rw [need_eq] at unfinished
      contradiction
  · next need_eq => rfl

theorem holds_spelled_iff {terminal : Terminal} (member : terminal ∈ candidates) :
    walk.holds (.spelled terminal) ↔
      walk.cursor.spelledAs? candidates = some terminal := by
  unfold holds TokenCursor.holds TokenCursor.spelledAs?
  cases walk.cursor.current? with
  | none => simp
  | some token =>
      rw [Option.bind_some, Terminal.find?_eq_some_iff member]
      exact beq_iff_eq

theorem answer?_eq (walk : Walk) (candidates : List Terminal) :
    walk.answer? candidates =
      if (walk.expect candidates).1 = .finished then
        (walk.expect candidates).2.cursor.spelledAs? candidates
      else none := by
  obtain ⟨token, taken, next_eq, need_eq⟩ | unfinished :=
    walk.finished_or_stopped (.oneOf candidates)
  · have there := (TokenCursor.current?_of_next? next_eq).1
    have spelled : taken.spelledAs? candidates =
        Terminal.find? candidates token.text := by
      rw [TokenCursor.spelledAs?, there, Option.bind_some]
    have answer_eq : walk.answer? candidates =
        (taken.spelledAs? candidates <|>
          (taken.rescue? candidates).bind (·.spelledAs? candidates)) := by
      rw [answer?, need_eq]
      rfl
    cases found : Terminal.find? candidates token.text with
    | some terminal =>
        rw [expect_of_accepts need_eq there (by rw [found]; rfl), if_pos rfl,
          answer_eq, spelled, found]
        exact (spelled.trans found).symm
    | none =>
        rw [expect_of_mismatch need_eq there found, if_pos rfl, answer_eq,
          spelled, found]
        cases taken.rescue? candidates with
        | none => exact (spelled.trans found).symm
        | some reached => rfl
  · rw [expect_of_need unfinished, if_neg unfinished, answer?]
    split
    · next need_eq =>
        rw [need_eq] at unfinished
        contradiction
    · rfl

theorem landed_expect (walk : Walk) (candidates : List Terminal) :
    Landed candidates walk (walk.expect candidates) := by
  have required := walk.required_need (.oneOf candidates)
  obtain ⟨token, taken, next_eq, need_eq⟩ | unfinished :=
    walk.finished_or_stopped (.oneOf candidates)
  · have next := TokenCursor.comesNext_of_next? next_eq
    have there := (TokenCursor.current?_of_next? next_eq).1
    have kept := TokenCursor.toList_of_next? next_eq
    cases found : Terminal.find? candidates token.text with
    | some terminal =>
        have candidate : (Terminal.find? candidates token.text).isSome := by
          rw [found]
          rfl
        rw [expect_of_accepts need_eq there candidate]
        exact .matched token _ next candidate (fun _ => rfl) (.of_cursor _ kept)
    | none =>
        have recovers := TokenCursor.recovers_rescue? there candidates
        rw [expect_of_mismatch need_eq there found]
        refine .mismatched token taken _ next found recovers ?_
          (.of_cursor _ (recovers.toList_eq.trans kept))
        exact .of_findings ⟨.mismatch candidates, token⟩ rfl fun _ => rfl
  · rw [expect_of_need unfinished]
    exact .stopped _ unfinished required

end Expect

/-- What can be relied on where one of the candidates is required. -/
structure Recovery (candidates : List Terminal) (before : Walk)
    (step : Outcome × Walk) : Prop where
  landed : Landed candidates before step
  untouched : Untouched before step.2
  reports : ReportsNothing before step.2 ∨
    ∃ code, ReportsOne code before step.2
  silent : ReportsNothing before step.2 ↔ before.cursor.peekIs candidates
  /-- The walk stands on the candidate that is the answer. -/
  answered : before.answer? candidates = some terminal →
    step.1 = .finished ∧ terminal ∈ candidates ∧
      ∃ token, step.2.cursor.current? = some token ∧
        token.text = terminal.spelling
  /-- A look at the current token tells the answer. -/
  asked : step.1 = .finished → terminal ∈ candidates →
    (step.2.holds (.spelled terminal) ↔
      before.answer? candidates = some terminal)

theorem Required.untouched {expected : Expected} {before : Walk}
    {step : Outcome × Walk} (required : Required expected before step) :
    Untouched before step.2 := by
  cases required <;> assumption

theorem Landed.untouched {candidates : List Terminal} {before : Walk}
    {step : Outcome × Walk} (landed : Landed candidates before step) :
    Untouched before step.2 := by
  cases landed with
  | matched | mismatched => assumption
  | stopped _ _ required => exact required.untouched

theorem Landed.reports {candidates : List Terminal} {before : Walk}
    {step : Outcome × Walk} (landed : Landed candidates before step) :
    ReportsNothing before step.2 ∨ ∃ code, ReportsOne code before step.2 := by
  cases landed with
  | matched token after next candidate silent => exact .inl silent
  | mismatched token taken after next other recovers reports =>
      exact .inr ⟨_, reports⟩
  | stopped step unfinished required =>
      cases required with
      | taken token after next goes silent => exact .inl silent
      | abandoned token reached after next refused resumes stays reports =>
          exact .inr ⟨_, reports⟩
      | ended after trivia stays reports => exact .inr ⟨_, reports⟩

theorem Landed.reportsNothing_iff {candidates : List Terminal} {before : Walk}
    {step : Outcome × Walk} (landed : Landed candidates before step) :
    ReportsNothing before step.2 ↔ before.cursor.peekIs candidates := by
  cases landed with
  | matched token after next candidate silent =>
      rw [next.peekIs_eq]
      exact iff_of_true silent candidate
  | mismatched token taken after next other _ reports =>
      rw [next.peekIs_eq, other]
      exact iff_of_false reports.not_reportsNothing Bool.false_ne_true
  | stopped step unfinished required =>
      cases required with
      | taken => exact absurd rfl unfinished
      | abandoned token reached after next refused _ _ reports =>
          rw [next.peekIs_eq, ← Expected.accepts, refused]
          exact iff_of_false reports.not_reportsNothing Bool.false_ne_true
      | ended after trivia _ reports =>
          rw [TokenCursor.peekIs_eq_false trivia]
          exact iff_of_false reports.not_reportsNothing Bool.false_ne_true

end Walk

namespace Visitor

/-- A visitor that goes where a walk from its place has come to, and reports
what was found on the way. -/
def following (visitor : Visitor) (step : Outcome × Walk) : Outcome × Visitor :=
  (step.1,
    { visitor with
      cursor := step.2.cursor
      sink := (step.2.diagnostics visitor.options).foldl .report visitor.sink })

theorem following_ite {test : Prop} [Decidable test] (visitor : Visitor)
    (step other : Outcome × Walk) :
    visitor.following (if test then step else other) =
      if test then visitor.following step else visitor.following other := by
  split <;> rfl

theorem need_eq_following (visitor : Visitor) (expected : Expected) :
    visitor.need expected =
      visitor.following (Walk.need { cursor := visitor.cursor } expected) := by
  cases next_eq : visitor.cursor.next? with
  | none =>
      rw [need_of_end next_eq, advance, Walk.need, Walk.advance]
      simp only [next_eq]
      rfl
  | some taken =>
      rw [need_of_next? next_eq, Walk.need]
      simp only [next_eq]
      rw [following_ite]
      rfl

theorem rescue_following (visitor : Visitor) (candidates : List Terminal)
    (walk : Walk) :
    (visitor.following (.finished, walk)).2.rescue candidates =
      (visitor.following (.finished, walk.rescue candidates)).2 := by
  simp only [rescue, Walk.rescue, following]
  cases walk.cursor.rescue? candidates <;> rfl

theorem error_following (visitor : Visitor) {cause : Cause}
    (severe : visitor.options.severity? cause = some .error) (walk : Walk)
    (anchor : Token) :
    (visitor.following (.finished, walk)).2.error cause anchor =
      (visitor.following (.finished, walk.report cause anchor)).2 := by
  simp only [following, Walk.diagnostics_report, Options.report?, severe,
    List.foldl_append]
  rfl

theorem expect_eq_following (visitor : Visitor) (candidates : List Terminal) :
    visitor.expect candidates =
      visitor.following
        (Walk.expect { cursor := visitor.cursor } candidates) := by
  rw [expect, need_eq_following, Walk.expect]
  obtain ⟨outcome, walk⟩ :=
    Walk.need { cursor := visitor.cursor } (.oneOf candidates)
  cases outcome with
  | finished =>
      obtain ⟨onward, onward_eq⟩ : ∃ onward,
          visitor.following (.finished, walk) = (.finished, onward) := ⟨_, rfl⟩
      have after_eq : (visitor.following (.finished, walk)).2 = onward :=
        congrArg Prod.snd onward_eq
      have here : onward.cursor.current? = walk.cursor.current? := by
        rw [← after_eq]
        rfl
      have recovers (token : Token) :
          visitor.following (.finished,
              (walk.report (.mismatch candidates) token).rescue candidates) =
            (.finished,
              (onward.error (.mismatch candidates) token).rescue candidates) := by
        rw [← after_eq, error_following visitor rfl, rescue_following]
        rfl
      dsimp only
      rw [onward_eq]
      dsimp only
      rw [here]
      cases walk.cursor.current? with
      | none => exact onward_eq.symm
      | some token =>
          dsimp only
          rw [following_ite, onward_eq, recovers]
          rfl
  | _ => rfl

end Visitor

namespace Walk

/-- What is required is taken, or what stands there is reported once and the
walk is where it can go on. A visitor goes where the walk goes and reports what
that finds, under all options. -/
theorem requirements_recover (walk : Walk) :
    (∀ expected, Required expected walk (walk.need expected)) ∧
    (∀ candidates, Recovery candidates walk (walk.expect candidates)) ∧
    ∀ visitor : Visitor,
      (∀ expected, visitor.need expected =
        visitor.following (Walk.need { cursor := visitor.cursor } expected)) ∧
      ∀ candidates, visitor.expect candidates =
        visitor.following
          (Walk.expect { cursor := visitor.cursor } candidates) := by
  refine ⟨walk.required_need, fun candidates => ?_, fun visitor =>
    ⟨visitor.need_eq_following, visitor.expect_eq_following⟩⟩
  have landed := walk.landed_expect candidates
  have answer_eq := walk.answer?_eq candidates
  generalize walk.expect candidates = step at landed answer_eq ⊢
  refine ⟨landed, landed.untouched, landed.reports, landed.reportsNothing_iff,
    ?_, ?_⟩
  · intro terminal answered
    rw [answer_eq] at answered
    split at answered
    · next finished =>
        exact ⟨finished, TokenCursor.spelled_of_spelledAs? answered⟩
    · cases answered
  · intro terminal finished member
    rw [answer_eq, if_pos finished]
    exact holds_spelled_iff member

end Walk

end ComponentLang
