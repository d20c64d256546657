import ComponentLang.Proofs.Syntax.Chains
import ComponentLang.Proofs.Walk.Consumption

namespace ComponentLang

open Syntax Walk Nonterminal.expressionRule

/-- A walk with the tokens of `word` before those of `rest` follows the rule
through the former. It stands on `current`, if that matters. -/
def Rule.Recognizes (options : Options) (rule : Rule) (current : Option Token)
    (word rest : List Token) : Prop :=
  ∀ walk : Walk, (∀ token ∈ current, walk.cursor.current? = some token) →
    walk.cursor.upcoming = word ++ rest →
    (∀ token ∈ word ++ rest, token.IsCategorized) →
    ∃ after, Passes rule walk after ∧ Consumes options word walk after

namespace Rule.Recognizes

variable {options : Options} {rule next found missing : Rule}
  {current : Option Token} {word front back rest : List Token} {token : Token}

theorem of_none (recognizes : Recognizes options rule none word rest) :
    Recognizes options rule current word rest :=
  fun walk _ => recognizes walk nofun

theorem seq (first : Recognizes options rule current front (back ++ rest))
    (second : Recognizes options next none back rest) :
    Recognizes options (.seq rule next) current (front ++ back) rest := by
  intro walk stands upcoming_eq categorized
  rw [List.append_assoc] at upcoming_eq categorized
  obtain ⟨between, passes, consumes⟩ :=
    first walk stands upcoming_eq categorized
  have further : between.cursor.upcoming = back ++ rest :=
    List.append_cancel_left (consumes.upcoming.symm.trans upcoming_eq)
  obtain ⟨after, passes_next, consumes_next⟩ := second between nofun further
    (List.forall_mem_append.mp categorized).2
  exact ⟨after, passes.seq passes_next, consumes.trans consumes_next⟩

theorem done : Recognizes options .done current [] rest :=
  fun walk _ _ _ => ⟨walk, ⟨1, rfl⟩, .refl⟩

theorem call {nonterminal : Nonterminal}
    (recognizes : Recognizes options nonterminal.rule current word rest) :
    Recognizes options (.call nonterminal) current word rest := by
  intro walk stands upcoming_eq categorized
  obtain ⟨after, passes, consumes⟩ :=
    recognizes walk stands upcoming_eq categorized
  exact ⟨after, passes.call, consumes⟩

theorem found_sign {signs : List Operator}
    (among : token.lexeme.isAmong signs)
    (recognizes : Recognizes options found none word rest) :
    Recognizes options (.accept (signs.map .operator) found missing) current
      (token :: word) rest := by
  intro walk _ upcoming_eq categorized
  obtain ⟨here, later⟩ := List.forall_mem_cons.mp categorized
  obtain ⟨reached, next_eq, reached_eq⟩ :=
    TokenCursor.next?_of_upcoming upcoming_eq
  obtain ⟨terminal, take_eq⟩ :=
    TokenCursor.exists_take? next_eq here among
  obtain ⟨after, passes, consumes⟩ :=
    recognizes (walk.moveTo reached) nofun reached_eq later
  exact ⟨after, .found take_eq passes, (Consumes.moveTo next_eq).trans consumes⟩

theorem found_one {sign : Operator} (spelled : token.lexeme = .sign sign)
    (recognizes : Recognizes options found none word rest) :
    Recognizes options (.accept [Terminal.operator sign] found missing) current
      (token :: word) rest :=
  found_sign (Lexeme.isAmong_singleton.mpr spelled) recognizes

theorem missing_sign (signs : List Operator)
    (apart : ∀ next ∈ (word ++ rest).head?, next.lexeme.isAmong signs = false)
    (recognizes : Recognizes options missing current word rest) :
    Recognizes options (.accept (signs.map .operator) found missing) current
      word rest := by
  intro walk stands upcoming_eq categorized
  obtain ⟨after, passes, consumes⟩ :=
    recognizes walk stands upcoming_eq categorized
  rw [← upcoming_eq] at apart categorized
  exact ⟨after, passes.missing (TokenCursor.take?_eq_none categorized apart),
    consumes⟩

theorem strings (quoted : ∀ token ∈ word, token.lexeme = .string)
    (unquoted : ∀ next ∈ rest.head?, next.lexeme ≠ .string) :
    Recognizes options .strings current word rest := by
  intro walk _ upcoming_eq _
  have isString_iff {token : Token} : token.isString ↔ token.lexeme = .string :=
    beq_iff_eq.trans Token.lexeme_eq_string_iff.symm
  have taken : walk.cursor.upcoming.takeWhile Token.isString = word := by
    rw [upcoming_eq, List.takeWhile_append_of_pos fun token member =>
      isString_iff.mpr (quoted token member)]
    cases rest with
    | nil => exact List.append_nil word
    | cons next others =>
        rw [List.takeWhile_cons_of_neg fun string =>
          unquoted next rfl (isString_iff.mp string), List.append_nil]
  exact ⟨walk.strings, ⟨1, rfl⟩, taken ▸ Consumes.strings walk⟩

theorem resolve (off : options.unknownIdentifiers = .off)
    (identifier : Literal.isIdentifier token.text) :
    Recognizes options .resolve (some token) [] rest :=
  fun walk stands _ _ =>
    ⟨walk.resolve, ⟨1, rfl⟩, .resolve off (stands token rfl) identifier⟩

theorem require {sign : Operator} (spelled : token.lexeme = .sign sign) :
    Recognizes options (.require sign) current [token] rest := by
  intro walk _ upcoming_eq categorized
  obtain ⟨here, -⟩ := List.forall_mem_cons.mp categorized
  obtain ⟨reached, next_eq, -⟩ := TokenCursor.next?_of_upcoming upcoming_eq
  have fits : (Expected.oneOf [.operator sign]).accepts token :=
    (here.find?_isSome [sign]).trans (Lexeme.isAmong_singleton.mpr spelled)
  refine ⟨walk.moveTo reached, ⟨1, ?_⟩, .moveTo next_eq⟩
  have there := (TokenCursor.current?_of_next? next_eq).1
  rw [Rule.require, run, Walk.expect, need_of_accepts fits next_eq]
  simp only [Walk.moveTo, there, fits, if_true]

theorem reference (off : options.unknownIdentifiers = .off)
    (named : token.lexeme = .name) :
    Recognizes options .reference current [token] rest := by
  intro walk _ upcoming_eq categorized
  obtain ⟨here, -⟩ := List.forall_mem_cons.mp categorized
  have identifier := here.lexeme_eq_name_iff.mp named
  obtain ⟨reached, next_eq, -⟩ := TokenCursor.next?_of_upcoming upcoming_eq
  have need_eq : walk.need .identifier = (.finished, walk.moveTo reached) :=
    need_of_accepts identifier next_eq
  have there := (TokenCursor.current?_of_next? next_eq).1
  exact ⟨_, .seq ⟨1, need_eq⟩ ⟨1, rfl⟩,
    (Consumes.moveTo next_eq).trans (.resolve off there identifier)⟩

theorem operand {lexeme : Lexeme} (lexeme_eq : token.lexeme = lexeme)
    (starts : lexeme.starts)
    (recognizes : Recognizes options (Nonterminal.operandRule lexeme)
      (some token) word rest) :
    Recognizes options .expression none (token :: word) rest := by
  subst lexeme_eq
  intro walk _ upcoming_eq categorized
  obtain ⟨here, later⟩ := List.forall_mem_cons.mp categorized
  obtain ⟨reached, next_eq, reached_eq⟩ :=
    TokenCursor.next?_of_upcoming upcoming_eq
  have there : (walk.moveTo reached).cursor.current? = some token :=
    (TokenCursor.current?_of_next? next_eq).1
  have need_eq : walk.need .expression = (.finished, walk.moveTo reached) :=
    need_of_accepts (here.startsExpression_eq.trans starts) next_eq
  obtain ⟨after, passes, consumes⟩ := recognizes (walk.moveTo reached)
    (by rintro _ ⟨⟩; exact there) reached_eq later
  have goes := (passes_operand_iff there here).mpr passes
  exact ⟨after, .call (.seq ⟨1, need_eq⟩ goes),
    (Consumes.moveTo next_eq).trans consumes⟩

/-- A line break in front of what begins an expression separates elements. -/
theorem line {last next : Token} {others : List Token}
    (element : Recognizes options .expression none front
      (next :: others ++ rest))
    (again : Recognizes options (.call .arrayElements) none (next :: others)
      rest)
    (ends : front.getLast? = some last) (starts : next.lexeme.starts)
    (breaks : last.Breaks next) :
    Recognizes options (.call .arrayElements) none (front ++ next :: others)
      rest := by
  intro walk _ upcoming_eq categorized
  obtain ⟨uncomma, unclosed⟩ := Lexeme.isAmong_of_starts starts
  rw [List.append_assoc] at upcoming_eq categorized
  obtain ⟨between, passes, consumes⟩ :=
    element walk nofun upcoming_eq categorized
  have further : between.cursor.upcoming = next :: others ++ rest :=
    List.append_cancel_left (consumes.upcoming.symm.trans upcoming_eq)
  have later := (List.forall_mem_append.mp categorized).2
  obtain ⟨after, passes_again, consumes_next⟩ :=
    again between nofun further later
  have unsigned {signs : List Operator}
      (apart : next.lexeme.isAmong signs = false) :
      between.cursor.take? (signs.map .operator) = none := by
    refine TokenCursor.take?_eq_none (further ▸ later) ?_
    rw [further]
    rintro _ ⟨⟩
    exact apart
  have ended :=
    (consumes.holds_lastOnLine ends (congrArg List.head? further)).mpr breaks
  exact ⟨after, .call (.seq passes (.missing (unsigned uncomma)
    (.missing (unsigned unclosed) (.branch ended passes_again)))),
    consumes.trans consumes_next⟩

end Rule.Recognizes

open Rule

namespace Syntax

/-- Neighbours that belong to different elements in any reading. -/
def Tight (last next : Token) : Prop :=
  last.Breaks next ∧ next.lexeme.goesOn last.lexeme = false

/-- How the grammar recognizes the tokens as the part. -/
def Part.IsRecognized (options : Options) : Part → List Token → Prop
  | .chain, word => ∀ rest, Stops word rest →
      Recognizes options .expression none word rest
  | .further, word => ∀ rest, Stops word rest →
      (∀ next ∈ rest.head?, next.lexeme.isBinary = false) →
      Recognizes options more none word rest
  | .signed, word | .primary, word => ∀ tail rest, Unjoined word (tail ++ rest) →
      Recognizes options more none tail rest →
      Recognizes options .expression none (word ++ tail) rest
  | .points, word => ∀ rest, (∀ next ∈ rest.head?, next.lexeme ≠ .sign .dot) →
      Recognizes options (.call .qualifiedTail) none word rest
  | .elements, word => ∀ closer rest, closer.lexeme = .sign .rightBracket →
      Recognizes options (.call .arrayElements) none (word ++ [closer]) rest

variable {options : Options} {part : Part} {word : List Token}

theorem Forms.isRecognized (off : options.unknownIdentifiers = .off)
    (forms : Forms Tight part word) : part.IsRecognized options word := by
  induction forms with
  | @chain first others forms further_forms signed further =>
      intro rest stops
      obtain ⟨last, ends⟩ :=
        (forms.chain further_forms).exists_getLast? nofun nofun
      refine signed others rest ?_
        (further rest stops.of_append (stops.isBinary_eq_false ends))
      cases further_forms with
      | alone =>
          rw [List.append_nil] at stops
          exact stops.unjoined
      | further binary _ =>
          rintro last - _ ⟨⟩
          exact Lexeme.joins_of_isBinary binary _
  | alone =>
      intro rest _ ends
      exact .missing_sign Operator.binary ends .done
  | further binary _ chain =>
      intro rest stops _
      exact .found_sign binary (chain rest (@Stops.of_append [_] _ _ stops))
  | @minus sign operand minus _ signed =>
      -- Behind the sign comes an expression, which takes the tail as well.
      intro tail rest unjoined goes
      have inner := @Unjoined.of_append [sign] operand _ unjoined
      exact .operand minus rfl (signed tail rest inner goes).of_none
  | plain _ primary => exact primary
  | number counts =>
      intro tail rest _ goes
      exact .operand counts rfl goes.of_none
  | truth decided =>
      intro tail rest _ goes
      exact .operand decided rfl goes.of_none
  | strings quoted strings =>
      intro tail rest unjoined goes
      have unquoted :=
        unjoined.unquoted (exists_last_string quoted strings)
      exact .operand quoted rfl (.seq (.strings strings unquoted) goes)
  | name named forms points =>
      intro tail rest unjoined goes
      have undotted := unjoined.undotted (exists_last_name named forms)
      have identifier := Token.isLexeme_of_lexeme named
      exact .operand named rfl
        (.seq (.seq (.resolve off identifier) (points _ undotted)) goes)
  | @group _ inner closer opens _ closes chain =>
      intro tail rest _ goes
      have inner := chain (closer :: (tail ++ rest))
        (.of_sign closes (by decide))
      exact .operand opens rfl
        (.seq (.seq inner.of_none (.require closes)) goes)
  | emptyArray opens closes =>
      intro tail rest _ goes
      exact .operand opens rfl (.seq (.found_one closes .done) goes)
  | array opens forms closes elements =>
      intro tail rest _ goes
      exact .operand opens rfl (.seq (.missing_sign [.rightBracket] forms.unclosed
        (elements _ _ closes).of_none) goes)
  | unpointed =>
      intro rest undotted
      refine .call (.missing_sign [.dot] ?_ .done)
      intro next begins
      rw [Bool.eq_false_iff, Ne, Lexeme.isAmong_singleton]
      exact undotted next begins
  | points dotted named _ points =>
      intro rest undotted
      exact .call (.found_one dotted
        (.seq (.reference off named) (points rest undotted)))
  | last _ chain =>
      intro closer rest closes
      refine .call (.seq (chain _ (.of_sign closes (by decide))) ?_)
      refine .missing_sign [.comma] ?_ (.found_one closes .done)
      rintro _ ⟨⟩
      rw [closes]
      rfl
  | lastComma _ separated chain =>
      intro closer rest closes
      rw [List.append_assoc]
      refine .call (.seq (chain _ (.of_sign separated (by decide))) ?_)
      exact .found_one separated (.found_one closes .done)
  | comma _ separated forms chain elements =>
      intro closer rest closes
      rw [List.append_assoc]
      refine .call (.seq (chain _ (.of_sign separated (by decide))) ?_)
      exact .found_one separated (.missing_sign [.rightBracket] forms.unclosed
        (elements closer rest closes))
  | @line element others last next _ forms ends begins far chain elements =>
      intro closer rest closes
      obtain ⟨first, remaining, rfl, starts⟩ := forms.exists_start nofun nofun
      cases begins
      rw [List.append_assoc]
      -- The break is tight: the element does not go on behind it.
      refine .line (chain _ ?_) (elements closer rest closes) ends starts far.1
      intro _ same _ begins
      cases ends.symm.trans same
      cases begins
      exact far.2

end Syntax

end ComponentLang
