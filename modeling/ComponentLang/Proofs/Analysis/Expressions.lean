import ComponentLang.Proofs.Analysis.Cancellation
import ComponentLang.Proofs.Walk.Documents
import ComponentLang.Proofs.Walk.Recognition
import ComponentLang.Proofs.Walk.Yields

namespace ComponentLang

open Syntax

namespace Walk

variable {options : Options} {walk first second after : Walk} {steps : Nat}
  {word rest : List Token}

theorem Grows.diagnostics_eq_iff (grows : Grows first second) :
    second.diagnostics options = first.diagnostics options ↔
      second.reportCount options = first.reportCount options := by
  constructor
  · intro same
    rw [← length_diagnostics, same, length_diagnostics]
  · intro same
    have earlier : first.diagnostics options <+: second.diagnostics options :=
      (List.reverse_prefix.mpr grows.findings).filterMap options.report?
    refine (earlier.eq_of_length ?_).symm
    rw [length_diagnostics, length_diagnostics, same]

theorem run_expression_ne_exhausted (walk : Walk)
    (enough : allowance walk.remaining ≤ steps) :
    (run steps .expression walk).1 ≠ .exhausted := by
  refine run_ne_exhausted walk.remaining 2 false _ _ _ rfl (Nat.le_refl _) ?_
  simp only [Rule.expression, Rule.height, allowance] at *
  omega

theorem exists_chain_of_finished (off : options.unknownIdentifiers = .off)
    (categorized : ∀ token ∈ walk.cursor.upcoming, token.IsCategorized)
    (finished : run steps .expression walk = (.finished, after))
    (silent : after.diagnostics options = walk.diagnostics options) :
    ∃ word, Forms Token.Breaks .chain word ∧ Consumes options word walk after := by
  have passes : Passes .expression walk after := ⟨steps, finished⟩
  exact (Rule.Yields.chains off _).1 walk after
    ⟨Nat.lt_succ_self _, categorized⟩ passes
    (passes.grows.diagnostics_eq_iff.mp silent)

theorem exists_finished_of_chain (off : options.unknownIdentifiers = .off)
    (categorized : ∀ token ∈ walk.cursor.upcoming, token.IsCategorized)
    (chain : Forms Token.Breaks .chain word)
    (upcoming_eq : walk.cursor.upcoming = word ++ rest)
    (stops : Stops word rest) :
    ∃ after, Passes .expression walk after ∧ Consumes options word walk after :=
  chain.tight.isRecognized off rest stops walk nofun upcoming_eq
    (upcoming_eq ▸ categorized)

end Walk

open Walk

/-- An expression that comes to its end without a report has consumed a chain,
and it consumes every chain that comes next and ends there. -/
theorem expressions_recognized (options : Options) (walk : Walk)
    (off : options.unknownIdentifiers = .off)
    (categorized : ∀ token ∈ walk.cursor.upcoming, token.IsCategorized) :
    (∀ steps after, run steps .expression walk = (.finished, after) →
      after.diagnostics options = walk.diagnostics options →
      ∃ word, Forms Token.Breaks .chain word ∧
        walk.cursor.upcoming = word ++ after.cursor.upcoming ∧
        after.cursor.current?.map Token.site = word.getLast?.map Token.site) ∧
    (∀ word rest, Forms Token.Breaks .chain word →
      walk.cursor.upcoming = word ++ rest → Stops word rest →
      ∃ after,
        (∀ steps, allowance walk.remaining ≤ steps →
          run steps .expression walk = (.finished, after)) ∧
        after.cursor.upcoming = rest ∧
        after.cursor.current?.map Token.site = word.getLast?.map Token.site ∧
        after.diagnostics options = walk.diagnostics options) := by
  have stands {word : List Token} {after : Walk}
      (chain : Forms Token.Breaks .chain word)
      (consumes : Consumes options word walk after) :
      after.cursor.current?.map Token.site = word.getLast?.map Token.site := by
    obtain ⟨last, ends⟩ := chain.exists_getLast? nofun nofun
    rw [consumes.stands, ends]
    rfl
  constructor
  · intro steps after finished silent
    obtain ⟨word, chain, consumes⟩ :=
      exists_chain_of_finished off categorized finished silent
    exact ⟨word, chain, consumes.upcoming, stands chain consumes⟩
  · intro word rest chain upcoming_eq stops
    obtain ⟨after, passes, consumes⟩ :=
      exists_finished_of_chain off categorized chain upcoming_eq stops
    refine ⟨after, fun steps enough => ?_, ?_, stands chain consumes, ?_⟩
    · exact run_eq_of_passes passes (run_expression_ne_exhausted walk enough)
    · exact List.append_cancel_left (consumes.upcoming.symm.trans upcoming_eq)
    · exact passes.grows.diagnostics_eq_iff.mpr consumes.silent

/-- An array whose first element stands on two lines and ends with the second. -/
def brokenArray : String :=
  "= [x\n-1\n\"p\" \"q\",] b"

def brokenArrayToken (row column : Nat) (text : String) (kind : TokenKind) :
    Token where
  line := row
  column := column
  text := text
  kind := kind

def brokenArrayWord : List Token :=
  [brokenArrayToken 0 2 "[" .operator, brokenArrayToken 0 3 "x" .nil,
    brokenArrayToken 1 0 "-" .operator, brokenArrayToken 1 1 "1" .number,
    brokenArrayToken 2 0 "\"p\"" .string, brokenArrayToken 2 4 "\"q\"" .string,
    brokenArrayToken 2 7 "," .operator, brokenArrayToken 2 8 "]" .operator]

theorem chain_brokenArrayWord : Forms Token.Breaks .chain brokenArrayWord := by
  have number : Forms Token.Breaks .chain
      [brokenArrayToken 1 1 "1" .number] :=
    .chain (.plain (.number (by decide +kernel))) .alone
  have difference : Forms Token.Breaks .chain
      ([brokenArrayToken 0 3 "x" .nil] ++
        [brokenArrayToken 1 0 "-" .operator, brokenArrayToken 1 1 "1" .number]) :=
    .chain (.plain (.name (by decide +kernel) .unpointed))
      (.further (by decide +kernel) number)
  have strings : Forms Token.Breaks .primary
      [brokenArrayToken 2 0 "\"p\"" .string,
        brokenArrayToken 2 4 "\"q\"" .string] :=
    .strings (by decide +kernel) (by decide +kernel)
  have elements : Forms Token.Breaks .elements
      [brokenArrayToken 2 0 "\"p\"" .string,
        brokenArrayToken 2 4 "\"q\"" .string,
        brokenArrayToken 2 7 "," .operator] :=
    .lastComma (.chain (.plain strings) .alone) (by decide +kernel)
  exact .chain (.plain (.array (by decide +kernel)
    (.line difference elements rfl rfl (by decide +kernel)) (by decide +kernel)))
    .alone

theorem expressions_recognized_brokenArray :
    ∃ after,
      run (allowance 40) .expression (start (scan brokenArray).tokens) =
        (.finished, after) ∧
      after.cursor.upcoming = [brokenArrayToken 2 10 "b" .nil] ∧
      ∃ word, Forms Token.Breaks .chain word ∧
        (start (scan brokenArray).tokens).cursor.upcoming =
          word ++ after.cursor.upcoming := by
  have before : (start (scan brokenArray).tokens).cursor.upcoming =
      brokenArrayWord ++ [brokenArrayToken 2 10 "b" .nil] := by decide +kernel
  have few : allowance (start (scan brokenArray).tokens).remaining ≤
      allowance 40 := by decide +kernel
  have stops : Stops brokenArrayWord [brokenArrayToken 2 10 "b" .nil] := by
    rintro _ ⟨⟩ _ ⟨⟩
    decide +kernel
  have categorized : ∀ token ∈ (start (scan brokenArray).tokens).cursor.upcoming,
      token.IsCategorized := by
    rw [before]
    decide +kernel
  obtain ⟨yields, recognizes⟩ := expressions_recognized {}
    (start (scan brokenArray).tokens) rfl categorized
  obtain ⟨after, finished, upcoming_eq, -, silent⟩ := recognizes brokenArrayWord
    [brokenArrayToken 2 10 "b" .nil] chain_brokenArrayWord before stops
  obtain ⟨word, chain, consumed, -⟩ := yields _ after (finished _ few) silent
  exact ⟨after, finished _ few, upcoming_eq, word, chain, consumed⟩

end ComponentLang
