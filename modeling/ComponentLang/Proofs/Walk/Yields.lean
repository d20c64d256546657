import ComponentLang.Proofs.Syntax.Chains
import ComponentLang.Proofs.Walk.Consumption

namespace ComponentLang

open Syntax Walk Nonterminal.expressionRule

structure Walk.Fits (size : Nat) (walk : Walk) : Prop where
  shorter : walk.cursor.upcoming.length < size
  categorized : ∀ token ∈ walk.cursor.upcoming, token.IsCategorized

namespace Walk.Fits

variable {options : Options} {size more : Nat} {first second walk : Walk}
  {word : List Token} {token : Token} {reached : TokenCursor}

theorem mono (fits : walk.Fits size) (le : size ≤ more) : walk.Fits more :=
  ⟨Nat.lt_of_lt_of_le fits.shorter le, fits.categorized⟩

theorem of_consumes (fits : first.Fits size)
    (consumes : Consumes options word first second) : second.Fits size := by
  refine ⟨Nat.lt_of_le_of_lt consumes.length_le fits.shorter, ?_⟩
  have categorized := fits.categorized
  rw [consumes.upcoming] at categorized
  exact (List.forall_mem_append.mp categorized).2

theorem next (fits : walk.Fits (size + 1))
    (found : walk.cursor.next? = some (token, reached)) :
    (walk.moveTo reached).Fits size := by
  have upcoming_eq := TokenCursor.upcoming_of_next? found
  obtain ⟨shorter, categorized⟩ := fits
  rw [upcoming_eq] at shorter categorized
  exact ⟨Nat.lt_of_succ_lt_succ shorter, (List.forall_mem_cons.mp categorized).2⟩

theorem behind (fits : first.Fits (size + 1))
    (consumes : Consumes options word first second) (some_token : word ≠ []) :
    second.Fits size := by
  have categorized := (fits.of_consumes consumes).categorized
  have longer := fits.shorter
  have length_pos := List.length_pos_iff.mpr some_token
  rw [consumes.upcoming, List.length_append] at longer
  have shorter : second.cursor.upcoming.length < size :=
    Nat.lt_of_lt_of_le (Nat.lt_add_of_pos_left length_pos)
      (Nat.le_of_lt_succ longer)
  exact ⟨shorter, categorized⟩

theorem isCategorized (fits : walk.Fits size)
    (found : walk.cursor.next? = some (token, reached)) :
    token.IsCategorized := by
  apply fits.categorized
  rw [TokenCursor.upcoming_of_next? found]
  exact List.mem_cons_self

theorem exists_of_accept (fits : walk.Fits size) (signs : List Operator)
    {found missing : Rule}
    (passes : Passes (.accept (signs.map .operator) found missing) walk second) :
    (∃ sign reached, walk.cursor.next? = some (sign, reached) ∧
      sign.lexeme.isAmong signs ∧ Passes found (walk.moveTo reached) second) ∨
    (∀ token reached, walk.cursor.next? = some (token, reached) →
      token.lexeme.isAmong signs = false) ∧ Passes missing walk second := by
  cases next_eq : walk.cursor.next? with
  | none =>
      refine .inr ⟨nofun, passes.of_missing ?_⟩
      refine TokenCursor.take?_eq_none fits.categorized ?_
      rw [TokenCursor.upcoming_eq_nil next_eq]
      nofun
  | some found =>
      obtain ⟨token, reached⟩ := found
      cases among : token.lexeme.isAmong signs with
      | true =>
          obtain ⟨terminal, take_eq⟩ :=
            TokenCursor.exists_take? next_eq (fits.isCategorized next_eq) among
          exact .inl ⟨token, reached, rfl, among, passes.of_found take_eq⟩
      | false =>
          refine .inr ⟨?_, passes.of_missing ?_⟩
          · rintro _ _ ⟨⟩
            exact among
          · refine TokenCursor.take?_eq_none fits.categorized ?_
            rw [TokenCursor.upcoming_of_next? next_eq]
            rintro _ ⟨⟩
            exact among

end Walk.Fits

/-- What the rule goes over, of fewer than `size` tokens, is in the language when
nothing is reported. -/
def Rule.Yields (options : Options) (size : Nat) (rule : Rule)
    (language : List Token → Prop) : Prop :=
  ∀ walk after, walk.Fits size → Passes rule walk after →
    after.reportCount options = walk.reportCount options →
    ∃ word, language word ∧ Consumes options word walk after

namespace Rule.Yields

variable {options : Options} {size : Nat} {rule next found missing : Rule}
  {language other : List Token → Prop}

theorem weaken (yields : Yields options size rule language)
    (among : ∀ word, language word → other word) :
    Yields options size rule other := by
  intro walk after fits passes silent
  obtain ⟨word, within, consumes⟩ := yields walk after fits passes silent
  exact ⟨word, among word within, consumes⟩

theorem seq (front : Yields options size rule language)
    (back : Yields options size next other) :
    Yields options size (.seq rule next) fun word =>
      ∃ first second, language first ∧ other second ∧
        word = first ++ second := by
  intro walk after fits passes silent
  obtain ⟨between, passes, passes_next⟩ := passes.exists_seq
  obtain ⟨quiet, quiet_next⟩ := silent_of_passes passes passes_next silent
  obtain ⟨first, within, consumes⟩ := front walk between fits passes quiet
  obtain ⟨second, within_next, consumes_next⟩ :=
    back between after (fits.of_consumes consumes) passes_next quiet_next
  exact ⟨first ++ second, ⟨first, second, within, within_next, rfl⟩,
    consumes.trans consumes_next⟩

theorem done : Yields options size .done (· = []) := by
  intro walk after fits passes silent
  obtain ⟨fuel, run_eq⟩ := exists_of_passes passes
  cases run_eq
  exact ⟨[], rfl, .refl⟩

theorem call {nonterminal : Nonterminal}
    (yields : Yields options size nonterminal.rule language) :
    Yields options size (.call nonterminal) language :=
  fun walk after fits passes => yields walk after fits passes.of_call

theorem accept {bound : Nat} (signs : List Operator) (le : bound ≤ size + 1)
    (taken : Yields options size found language)
    (untaken : Yields options bound missing other) :
    Yields options bound
      (.accept (signs.map .operator) found missing) fun word =>
        (∃ sign rest, sign.lexeme.isAmong signs ∧ language rest ∧
          word = sign :: rest) ∨ other word := by
  intro walk after fits passes silent
  rcases fits.exists_of_accept signs passes with
    ⟨sign, reached, next_eq, listed, passes⟩ | ⟨-, passes⟩
  · obtain ⟨word, within, consumes⟩ := taken (walk.moveTo reached) after
      ((fits.mono le).next next_eq) passes silent
    exact ⟨sign :: word, .inl ⟨sign, word, listed, within, rfl⟩,
      (Consumes.moveTo next_eq).trans consumes⟩
  · obtain ⟨word, within, consumes⟩ := untaken walk after fits passes silent
    exact ⟨word, .inr within, consumes⟩

theorem strings :
    Yields options size .strings fun word =>
      ∀ token ∈ word, token.lexeme = .string := by
  intro walk after fits passes silent
  obtain ⟨fuel, run_eq⟩ := exists_of_passes passes
  cases run_eq
  refine ⟨_, fun token member => ?_, .strings walk⟩
  have quoted := List.all_eq_true.mp List.all_takeWhile token member
  exact Token.lexeme_eq_string_iff.mpr (beq_iff_eq.mp quoted)

theorem resolve : Yields options size .resolve (· = []) := by
  intro walk after fits passes silent
  obtain ⟨fuel, run_eq⟩ := exists_of_passes passes
  cases run_eq
  exact ⟨[], rfl, congrArg (List.filter _) (behind_resolve walk).symm,
    (Remarks.resolve walk).current, silent⟩

theorem require (sign : Operator) :
    Yields options size (.require sign) fun word =>
      ∃ token, token.lexeme = .sign sign ∧ word = [token] := by
  intro walk after fits passes silent
  obtain ⟨fuel, run_eq⟩ := exists_of_passes passes
  obtain ⟨token, reached, next_eq, spelled, rfl⟩ :=
    exists_of_expect run_eq silent
  have categorized := fits.isCategorized next_eq
  refine ⟨[token], ⟨token, ?_, rfl⟩, .moveTo next_eq⟩
  rw [← Lexeme.isAmong_singleton, ← categorized.find?_isSome]
  exact spelled

variable (off : options.unknownIdentifiers = .off)

include off in
theorem reference :
    Yields options size .reference fun word =>
      ∃ name, name.lexeme = .name ∧ word = [name] := by
  intro walk after fits passes silent
  obtain ⟨between, needs, resolves⟩ := passes.exists_seq
  obtain ⟨fuel, need_eq⟩ := exists_of_passes needs
  obtain ⟨_, resolve_eq⟩ := exists_of_passes resolves
  obtain ⟨token, reached, next_eq, rfl⟩ := next?_of_need need_eq
  cases resolve_eq
  have there : (walk.moveTo reached).cursor.current? = some token :=
    (TokenCursor.current?_of_next? next_eq).1
  have categorized := fits.isCategorized next_eq
  cases identifier : Literal.isIdentifier token.text with
  | true =>
      exact ⟨[token], ⟨token, categorized.lexeme_eq_name_iff.mpr identifier, rfl⟩,
        (Consumes.moveTo next_eq).trans (.resolve off there identifier)⟩
  | false =>
      rw [resolve_of_not_isIdentifier there identifier,
        reportCount_report rfl] at silent
      exact absurd silent (Nat.succ_ne_self _)

variable {apart : Token → Token → Prop}

include off in
theorem qualifiedTail :
    Yields options size (.call .qualifiedTail) (Forms apart .points) := by
  induction size with
  | zero => exact fun walk after fits => absurd fits.shorter (Nat.not_lt_zero _)
  | succ size induction =>
      refine (call (.accept [.dot] (Nat.le_refl _)
        (.seq (.reference off) induction) .done)).weaken ?_
      rintro word (⟨sign, _, dotted, ⟨_, _, ⟨name, named, rfl⟩, points, rfl⟩, rfl⟩ |
        rfl)
      · exact .points (Lexeme.isAmong_singleton.mp dotted) named points
      · exact .unpointed

theorem more
    (expression : Yields options size .expression (Forms apart .chain)) :
    Yields options size more (Forms apart .further) := by
  refine (accept Operator.binary (Nat.le_succ size) expression .done).weaken ?_
  rintro word (⟨sign, others, binary, chain, rfl⟩ | rfl)
  · exact .further binary chain
  · exact .alone

theorem operand {first : Token}
    (expression : Yields options size .expression (Forms apart .chain))
    (rest : Yields options size rule fun word =>
      Forms apart .primary (first :: word)) :
    Yields options size (.seq rule Nonterminal.expressionRule.more) fun word =>
      Forms apart .chain (first :: word) := by
  refine (seq rest (.more expression)).weaken ?_
  rintro word ⟨others, further, primary, goes, rfl⟩
  exact .chain (.plain primary) goes

include off in
theorem operandRule {first : Token} (starts : first.lexeme.starts)
    (expression : Yields options size .expression (Forms apart .chain))
    (elements : Yields options size (.call .arrayElements)
      (ClosedElements apart)) :
    Yields options size (Nonterminal.operandRule first.lexeme) fun word =>
      Forms apart .chain (first :: word) := by
  cases lexeme_eq : first.lexeme with
  | number =>
      refine (Yields.more expression).weaken fun word further => ?_
      exact .chain (.plain (.number lexeme_eq)) further
  | truth =>
      refine (Yields.more expression).weaken fun word further => ?_
      exact .chain (.plain (.truth lexeme_eq)) further
  | string =>
      refine operand expression (strings.weaken fun word strings => ?_)
      exact .strings lexeme_eq strings
  | name =>
      refine operand expression ((seq resolve
        (@qualifiedTail options size off apart)).weaken ?_)
      rintro word ⟨_, others, rfl, points, rfl⟩
      exact .name lexeme_eq points
  | sign operator =>
      cases operator with
      | minus =>
          -- The sign is one of the first operand of the expression behind it.
          refine expression.weaken fun word chain => ?_
          cases chain with
          | chain signed further => exact .chain (.minus lexeme_eq signed) further
      | leftParen =>
          refine operand expression
            ((seq expression (require .rightParen)).weaken ?_)
          rintro word ⟨inner, _, chain, ⟨closer, closes, rfl⟩, rfl⟩
          exact .group lexeme_eq chain closes
      | leftBracket =>
          refine operand expression
            ((accept [.rightBracket] (Nat.le_succ size) done elements).weaken ?_)
          rintro word (⟨closer, _, closes, rfl, rfl⟩ |
            ⟨inner, closer, elements, closes, rfl⟩)
          · exact .emptyArray lexeme_eq (Lexeme.isAmong_singleton.mp closes)
          · exact .array lexeme_eq elements closes
      | _ =>
          rw [lexeme_eq] at starts
          nomatch starts
  | other =>
      rw [lexeme_eq] at starts
      nomatch starts

include off in
theorem expression
    (inner : Yields options size .expression (Forms apart .chain))
    (elements : Yields options size (.call .arrayElements)
      (ClosedElements apart)) :
    Yields options (size + 1) .expression (Forms apart .chain) := by
  intro walk after fits passes silent
  obtain ⟨between, needs, goes⟩ := passes.of_call.exists_seq
  obtain ⟨fuel, need_eq⟩ := exists_of_passes needs
  obtain ⟨token, reached, next_eq, rfl⟩ := next?_of_need need_eq
  have there : (walk.moveTo reached).cursor.current? = some token :=
    (TokenCursor.current?_of_next? next_eq).1
  have categorized := fits.isCategorized next_eq
  have operand_passes := (passes_operand_iff there categorized).mp goes
  cases starts : token.lexeme.starts with
  | true =>
      obtain ⟨word, chain, consumes⟩ := operandRule off starts inner elements
        (walk.moveTo reached) after (fits.next next_eq) operand_passes silent
      exact ⟨token :: word, chain, (Consumes.moveTo next_eq).trans consumes⟩
  | false =>
      rw [Nonterminal.operandRule_of_not_starts starts] at operand_passes
      obtain ⟨_, complain_eq⟩ := exists_of_passes operand_passes
      cases complain_eq
      unfold Walk.complain at silent
      rw [there] at silent
      rw [reportCount_report rfl] at silent
      exact absurd silent (Nat.succ_ne_self _)

theorem arrayElements
    (element : Yields options (size + 1) .expression (Forms Token.Breaks .chain))
    (again : Yields options size (.call .arrayElements)
      (ClosedElements Token.Breaks)) :
    Yields options (size + 1) (.call .arrayElements)
      (ClosedElements Token.Breaks) := by
  intro walk after fits passes silent
  obtain ⟨between, passes, separates⟩ := passes.of_call.exists_seq
  obtain ⟨quiet, still⟩ := silent_of_passes passes separates silent
  obtain ⟨first, chain, consumes⟩ := element walk between fits passes quiet
  obtain ⟨last, ends⟩ := chain.exists_getLast? nofun nofun
  -- An element is not empty, so that fewer tokens are left for the others.
  have behind : between.Fits size := fits.behind consumes (by
    rintro rfl
    nomatch ends)
  rcases behind.exists_of_accept [.comma] separates with
    ⟨comma, reached, next_eq, separated, closes⟩ | ⟨uncomma, closes⟩
  · have le := Nat.le_succ size
    obtain ⟨word, within, consumes_next⟩ := accept [.rightBracket] le done again
      (between.moveTo reached) after ((behind.mono le).next next_eq) closes still
    rw [Lexeme.isAmong_singleton] at separated
    have whole := consumes.trans ((Consumes.moveTo next_eq).trans consumes_next)
    rcases within with ⟨closer, _, closed, rfl, rfl⟩ |
      ⟨inner, closer, elements, closed, rfl⟩
    · refine ⟨_, ⟨first ++ [comma], closer, .lastComma chain separated,
        Lexeme.isAmong_singleton.mp closed, ?_⟩, whole⟩
      rw [List.append_assoc]
    · refine ⟨_, ⟨first ++ comma :: inner, closer,
        .comma chain separated elements, closed, ?_⟩, whole⟩
      rw [List.append_assoc]
      rfl
  · rcases behind.exists_of_accept [.rightBracket] closes with
      ⟨closer, reached, next_eq, closed, finishes⟩ | ⟨unclosed, goes⟩
    · obtain ⟨_, done_eq⟩ := exists_of_passes finishes
      cases done_eq
      exact ⟨_, ⟨first, closer, .last chain, Lexeme.isAmong_singleton.mp closed,
        rfl⟩, consumes.trans (.moveTo next_eq)⟩
    · rw [passes_branch_iff] at goes
      split at goes
      · next breaks =>
          obtain ⟨_, ⟨inner, closer, elements, closed, rfl⟩, consumes_next⟩ :=
            again between after behind goes still
          obtain ⟨next, others, rfl, -⟩ := elements.exists_start nofun nofun
          have begins : between.cursor.upcoming.head? = some next := by
            rw [consumes_next.upcoming]
            rfl
          have far := (consumes.holds_lastOnLine ends begins).mp breaks
          refine ⟨_, ⟨first ++ next :: others, closer,
            .line chain elements ends rfl far, closed, ?_⟩,
            consumes.trans consumes_next⟩
          rw [List.append_assoc]
      · -- A sign that was not there is reported.
        obtain ⟨taken, expects, closes_next⟩ := goes.exists_seq
        obtain ⟨quiet, -⟩ := silent_of_passes expects closes_next still
        obtain ⟨fuel, expect_eq⟩ := exists_of_passes expects
        obtain ⟨token, reached, next_eq, spelled, -⟩ :=
          exists_of_expect expect_eq quiet
        have listed : token.lexeme.isAmong [.comma, .rightBracket] := by
          rw [← (behind.isCategorized next_eq).find?_isSome]
          exact spelled
        rcases Lexeme.isAmong_pair.mp listed with comma | bracket
        · exact absurd comma (Bool.eq_false_iff.mp (uncomma _ _ next_eq))
        · exact absurd bracket (Bool.eq_false_iff.mp (unclosed _ _ next_eq))

/-- Of an expression without a report the tokens are a chain. -/
theorem chains (off : options.unknownIdentifiers = .off) (size : Nat) :
    Yields options size .expression (Forms Token.Breaks .chain) ∧
      Yields options size (.call .arrayElements)
        (ClosedElements Token.Breaks) := by
  induction size with
  | zero =>
      exact ⟨fun walk after fits => absurd fits.shorter (Nat.not_lt_zero _),
        fun walk after fits => absurd fits.shorter (Nat.not_lt_zero _)⟩
  | succ size induction =>
      obtain ⟨inner, elements⟩ := induction
      have element := expression off inner elements
      exact ⟨element, arrayElements element elements⟩

end Rule.Yields

end ComponentLang
