import ComponentLang.Walk.Reports
import ComponentLang.Proofs.Syntax.Lexemes
import ComponentLang.Proofs.Walk.Acceptance
import ComponentLang.Proofs.Walk.Sparing

namespace ComponentLang

def Token.isString (token : Token) : Bool :=
  token.kind == .string

namespace TokenCursor

theorem passStringsFrom_upcoming {last : TokenCursor} {passed tokens : List Token}
    (behind : last.upcoming = tokens.filter fun token => !token.isTrivia) :
    (passStringsFrom last passed tokens).upcoming =
        last.upcoming.dropWhile Token.isString ∧
      (passStringsFrom last passed tokens).current? =
        (last.upcoming.takeWhile Token.isString).getLast?.or
          last.current? := by
  fun_induction passStringsFrom last passed tokens with
  | case1 last passed =>
      have nothing : last.upcoming = [] := behind
      simp [nothing]
  | case2 last passed token rest trivia induction =>
      rw [List.filter_cons_of_neg (by simp [trivia])] at behind
      exact induction behind
  | case3 last passed token rest meaning string induction =>
      rw [List.filter_cons_of_pos (by simp [meaning])] at behind
      obtain ⟨upcoming_eq, current_eq⟩ := induction rfl
      have quoted : token.isString := string
      rw [behind, List.dropWhile_cons_of_pos quoted,
        List.takeWhile_cons_of_pos quoted, upcoming_eq, current_eq,
        List.getLast?_cons]
      refine ⟨rfl, ?_⟩
      change (List.takeWhile _ (List.filter _ rest)).getLast?.or (some token) = _
      cases (List.takeWhile _ (List.filter _ rest)).getLast? <;> rfl
  | case4 last passed token rest meaning unquoted =>
      rw [List.filter_cons_of_pos (by simp [meaning])] at behind
      have plain : ¬token.isString := unquoted
      rw [behind, List.dropWhile_cons_of_neg plain,
        List.takeWhile_cons_of_neg plain]
      exact ⟨rfl, rfl⟩

theorem passStrings_upcoming (cursor : TokenCursor) :
    cursor.passStrings.upcoming =
        cursor.upcoming.dropWhile Token.isString ∧
      cursor.passStrings.current? =
        (cursor.upcoming.takeWhile Token.isString).getLast?.or
          cursor.current? := by
  obtain ⟨passed, _ | ⟨current, rest⟩⟩ := cursor
  · exact ⟨rfl, rfl⟩
  · exact passStringsFrom_upcoming rfl

variable {cursor reached : TokenCursor} {token : Token} {signs : List Operator}

theorem exists_take? (found : cursor.next? = some (token, reached))
    (categorized : token.IsCategorized) (among : token.lexeme.isAmong signs) :
    ∃ terminal, cursor.take? (signs.map .operator) =
      some (terminal, reached) := by
  rw [← categorized.find?_isSome] at among
  obtain ⟨terminal, find_eq⟩ := Option.isSome_iff_exists.mp among
  exact ⟨terminal, by simp only [take?, found, find_eq, Option.map_some]⟩

theorem take?_eq_none
    (categorized : ∀ token ∈ cursor.upcoming, token.IsCategorized)
    (apart : ∀ next ∈ cursor.upcoming.head?,
      next.lexeme.isAmong signs = false) :
    cursor.take? (signs.map .operator) = none := by
  unfold take?
  cases next_eq : cursor.next? with
  | none => rfl
  | some found =>
      obtain ⟨token, reached⟩ := found
      rw [upcoming_of_next? next_eq] at categorized apart
      have other := (categorized token List.mem_cons_self).find?_isSome signs
      rw [apart token rfl, Option.isSome_eq_false_iff,
        Option.isNone_iff_eq_none] at other
      simp only [other, Option.map_none]

end TokenCursor

open Nonterminal.expressionRule

/-- How an expression goes on behind its first token. -/
def Nonterminal.operandRule : Lexeme → Rule
  | .sign .minus => .expression
  | .sign .leftParen =>
      .expression ++ .require Operator.rightParen ++ more
  | .sign .leftBracket =>
      .accept [Operator.rightBracket] .done (.call .arrayElements) ++ more
  | .string => .strings ++ more
  | .number | .truth => more
  | .name => .resolve ++ .call .qualifiedTail ++ more
  | _ => .complain .invalidExpression

theorem Nonterminal.operandRule_of_not_starts {lexeme : Lexeme}
    (not_starts : lexeme.starts = false) :
    operandRule lexeme = .complain .invalidExpression := by
  cases lexeme with
  | sign operator =>
      revert not_starts
      cases operator <;> decide
  | other => rfl
  | _ => nomatch not_starts

namespace Walk

variable {options : Options} {first second third walk after : Walk}
  {word front back rest : List Token} {token : Token} {reached : TokenCursor}

/-! What a rule comes to when it comes to its end. -/

section Passes

variable {rule next found missing holds fails : Rule} {test : Test}
  {candidates : List Terminal}

theorem exists_of_passes (passes : Passes rule first second) :
    ∃ fuel, run (fuel + 1) rule first = (.finished, second) := by
  obtain ⟨_ | fuel, run_eq⟩ := passes
  · nomatch run_eq
  · exact ⟨fuel, run_eq⟩

theorem Passes.exists_seq (passes : Passes (.seq rule next) first third) :
    ∃ second, Passes rule first second ∧ Passes next second third := by
  obtain ⟨fuel, run_eq⟩ := exists_of_passes passes
  rw [run] at run_eq
  split at run_eq
  · next second first_eq => exact ⟨second, ⟨fuel, first_eq⟩, ⟨fuel, run_eq⟩⟩
  · next unfinished => exact absurd run_eq (unfinished third)

theorem passes_branch_iff :
    Passes (.branch test holds fails) first second ↔
      if first.holds test then Passes holds first second
      else Passes fails first second := by
  constructor
  · intro passes
    obtain ⟨fuel, run_eq⟩ := exists_of_passes passes
    rw [run] at run_eq
    split
    · next fits => exact ⟨fuel, by rwa [if_pos fits] at run_eq⟩
    · next unfit => exact ⟨fuel, by rwa [if_neg unfit] at run_eq⟩
  · intro passes
    refine .branch rfl ?_
    split at passes
    · next fits => rwa [if_pos fits]
    · next unfit => rwa [if_neg unfit]

theorem Passes.of_found {terminal : Terminal}
    (passes : Passes (.accept candidates found missing) first second)
    (take_eq : first.cursor.take? candidates = some (terminal, reached)) :
    Passes found (first.moveTo reached) second := by
  obtain ⟨fuel, run_eq⟩ := exists_of_passes passes
  rw [run, take_eq] at run_eq
  exact ⟨fuel, run_eq⟩

theorem Passes.of_missing
    (passes : Passes (.accept candidates found missing) first second)
    (take_eq : first.cursor.take? candidates = none) :
    Passes missing first second := by
  obtain ⟨fuel, run_eq⟩ := exists_of_passes passes
  rw [run, take_eq] at run_eq
  exact ⟨fuel, run_eq⟩

theorem Passes.of_call {nonterminal : Nonterminal}
    (passes : Passes (.call nonterminal) first second) :
    Passes nonterminal.rule first second := by
  obtain ⟨fuel, run_eq⟩ := exists_of_passes passes
  exact ⟨fuel, run_eq⟩

theorem Passes.grows (passes : Passes rule first second) :
    Grows first second := by
  obtain ⟨fuel, run_eq⟩ := passes
  have grows := keptBySteps_grows.run fuel rule first (.inl fun _ => trivial)
  rwa [run_eq] at grows

end Passes

theorem Grows.reportCount_le (grows : Grows first second) :
    first.reportCount options ≤ second.reportCount options :=
  grows.findings.sublist.countP_le

theorem silent_of_passes {rule next : Rule} (passes : Passes rule first second)
    (passes_next : Passes next second third)
    (silent : third.reportCount options = first.reportCount options) :
    second.reportCount options = first.reportCount options ∧
      third.reportCount options = second.reportCount options := by
  have front : first.reportCount options ≤ second.reportCount options :=
    passes.grows.reportCount_le
  have back : second.reportCount options ≤ third.reportCount options :=
    passes_next.grows.reportCount_le
  omega

theorem resolve_of_not_isIdentifier (there : walk.cursor.current? = some token)
    (invalid : Literal.isIdentifier token.text = false) :
    walk.resolve = walk.report .invalidIdentifier token := by
  unfold resolve
  rw [there]
  simp only [invalid, Bool.false_eq_true, if_false]

/-- The walk has gone over the tokens, on to the last of them, and has reported
nothing. -/
structure Consumes (options : Options) (word : List Token)
    (before after : Walk) : Prop where
  upcoming : before.cursor.upcoming = word ++ after.cursor.upcoming
  stands : after.cursor.current?.map Token.site =
    (word.getLast?.or before.cursor.current?).map Token.site
  silent : after.reportCount options = before.reportCount options

namespace Consumes

theorem refl : Consumes options [] walk walk :=
  ⟨rfl, rfl, rfl⟩

theorem trans (start : Consumes options front first second)
    (stop : Consumes options back second third) :
    Consumes options (front ++ back) first third where
  upcoming := by rw [start.upcoming, stop.upcoming, List.append_assoc]
  stands := by
    have started := start.stands
    rw [stop.stands, List.getLast?_append]
    cases back.getLast? with
    | none => exact started
    | some last => rfl
  silent := stop.silent.trans start.silent

theorem moveTo (found : walk.cursor.next? = some (token, reached)) :
    Consumes options [token] walk (walk.moveTo reached) where
  upcoming := TokenCursor.upcoming_of_next? found
  stands := by
    rw [Walk.moveTo, (TokenCursor.current?_of_next? found).1]
    rfl
  silent := rfl

theorem strings (walk : Walk) :
    Consumes options
      (walk.cursor.upcoming.takeWhile Token.isString) walk walk.strings := by
  obtain ⟨upcoming_eq, current_eq⟩ :=
    TokenCursor.passStrings_upcoming walk.cursor
  refine ⟨?_, congrArg (Option.map _) current_eq, rfl⟩
  rw [Walk.strings, Walk.moveTo, upcoming_eq, List.takeWhile_append_dropWhile]

theorem resolve (off : options.unknownIdentifiers = .off)
    (there : walk.cursor.current? = some token)
    (identifier : Literal.isIdentifier token.text) :
    Consumes options [] walk walk.resolve where
  upcoming := congrArg (List.filter _) (behind_resolve walk).symm
  stands := (Remarks.resolve walk).current
  silent := by
    unfold Walk.resolve
    rw [there]
    simp only [identifier, if_true]
    split
    · rfl
    · have unreported (known : List String) :
          options.severity? (.unknownIdentifier known) = none := by
        rw [Options.severity?, off]
        rfl
      simp [reportCount, report, Options.report?, unreported]

theorem holds_lastOnLine (consumes : Consumes options word first second)
    {last next : Token} (ends : word.getLast? = some last)
    (begins : second.cursor.upcoming.head? = some next) :
    second.holds .lastOnLine ↔ last.line < next.line := by
  have stands := consumes.stands
  rw [ends] at stands
  obtain ⟨current, there, site_eq⟩ := Option.map_eq_some_iff.mp stands
  have line_eq := (Token.site_eq_iff.mp site_eq).1
  unfold holds TokenCursor.holds
  simp only [there, TokenCursor.peek?_eq_head?, begins, Option.any_some,
    TokenCursor.isLater,
    line_eq, decide_eq_true_eq]

theorem length_le (consumes : Consumes options word first second) :
    second.cursor.upcoming.length ≤ first.cursor.upcoming.length := by
  rw [consumes.upcoming, List.length_append]
  exact Nat.le_add_left _ _

end Consumes

theorem reportCount_report {cause : Cause} {severity : Severity}
    (reported : options.severity? cause = some severity) :
    (walk.report cause token).reportCount options =
      walk.reportCount options + 1 := by
  simp [reportCount, report, Options.report?, reported]

theorem reportCount_rescue (candidates : List Terminal) :
    (walk.rescue candidates).reportCount options = walk.reportCount options := by
  unfold rescue
  split <;> rfl

theorem exists_of_expect {candidates : List Terminal}
    (finished : walk.expect candidates = (.finished, after))
    (silent : after.reportCount options = walk.reportCount options) :
    ∃ token reached, walk.cursor.next? = some (token, reached) ∧
      (Terminal.find? candidates token.text).isSome ∧
      after = walk.moveTo reached := by
  unfold expect at finished
  cases need_eq : walk.need (.oneOf candidates) with
  | mk outcome taken =>
      rw [need_eq] at finished
      cases outcome with
      | finished =>
          obtain ⟨token, reached, next_eq, rfl⟩ := next?_of_need need_eq
          have there : (walk.moveTo reached).cursor.current? = some token :=
            (TokenCursor.current?_of_next? next_eq).1
          simp only [there] at finished
          split at finished
          · next fits =>
              cases finished
              exact ⟨token, reached, next_eq, fits, rfl⟩
          · cases finished
            rw [reportCount_rescue, reportCount_report rfl] at silent
            exact absurd silent (Nat.succ_ne_self _)
      | _ => nomatch finished

/-! The tests that an expression makes of its first token. -/

section Tests

variable (there : walk.cursor.current? = some token)
include there

theorem holds_string :
    walk.holds (.ofKind .string) = (token.lexeme == .string) := by
  rw [holds, TokenCursor.holds, there, Bool.eq_iff_iff, beq_iff_eq, beq_iff_eq]
  exact Token.lexeme_eq_string_iff.symm

theorem holds_number :
    walk.holds (.ofKind .number) = (token.lexeme == .number) := by
  rw [holds, TokenCursor.holds, there, Bool.eq_iff_iff, beq_iff_eq, beq_iff_eq]
  exact Token.lexeme_eq_number_iff.symm

variable (categorized : token.IsCategorized)
include categorized

theorem holds_sign (sign : Operator) :
    walk.holds (.spelled sign) = (token.lexeme == .sign sign) := by
  rw [holds, TokenCursor.holds, there, Bool.eq_iff_iff, beq_iff_eq, beq_iff_eq]
  exact categorized.lexeme_eq_sign_iff.symm

theorem holds_truthWord :
    walk.holds .truthWord = (token.lexeme == .truth) := by
  rw [holds, TokenCursor.holds, there, Bool.eq_iff_iff, Bool.and_eq_true,
    beq_iff_eq, beq_iff_eq,
    categorized.lexeme_eq_truth_iff, and_iff_right_iff_imp]
  exact categorized.kind_of_isTruthWord

theorem holds_identifier :
    walk.holds .identifier = (token.lexeme == .name) := by
  rw [holds, TokenCursor.holds, there, Bool.eq_iff_iff, beq_iff_eq]
  exact categorized.lexeme_eq_name_iff.symm

/-- What the first token is tells how an expression goes on. -/
theorem passes_operand_iff :
    Passes
        (.branch (.spelled Operator.minus) .expression
          (.branch (.spelled Operator.leftParen)
            (.expression ++ .require Operator.rightParen ++ more)
            (.branch (.spelled Operator.leftBracket)
              (.accept [Operator.rightBracket] .done (.call .arrayElements) ++
                more)
              (.branch (.ofKind .string) (.strings ++ more)
                (.branch (.ofKind .number) more
                  (.branch .truthWord more
                    (.branch .identifier
                      (.resolve ++ .call .qualifiedTail ++ more)
                      (.complain .invalidExpression)))))))) walk after ↔
      Passes (Nonterminal.operandRule token.lexeme) walk after := by
  simp only [passes_branch_iff, holds_string there, holds_number there,
    holds_sign there categorized, holds_truthWord there categorized,
    holds_identifier there categorized]
  generalize token.lexeme = lexeme
  cases lexeme with
  | sign operator => cases operator <;> rfl
  | _ => rfl

end Tests

end Walk

end ComponentLang
