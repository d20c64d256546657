import ComponentLang.Proofs.Analysis.Reports
import ComponentLang.Proofs.Analysis.Trivia
import ComponentLang.Proofs.Walk.Sparing

namespace ComponentLang

open Walk

theorem getLast?_meaningful {front rest : List Token} {token : Token}
    (carries : token.isTrivia = false)
    (behind : ∀ other ∈ rest, other.isTrivia) :
    (meaningful (front ++ token :: rest)).getLast? = some token := by
  have nothing : meaningful rest = [] :=
    List.filter_eq_nil_iff.mpr (by simpa using behind)
  have split : meaningful (front ++ token :: rest) =
      meaningful front ++ [token] := by
    rw [meaningful, List.filter_append, ← meaningful, ← meaningful,
      meaningful_cons carries, nothing]
  rw [split, List.getLast?_concat]

namespace Options

variable {options : Options} {tokens : List Token} {diagnostic : Diagnostic}

theorem length_walkReports_le (options : Options) (tokens : List Token) :
    (options.walkReports tokens).length ≤ 2 * (meaningful tokens).length := by
  rw [walkReports_eq, Walk.diagnostics]
  apply Nat.le_trans (List.length_filterMap_le _ _)
  rw [List.length_reverse]
  exact length_findings_le _ tokens

theorem isEnd_of_report? {finding : Finding}
    (report_eq : options.report? finding = some diagnostic) :
    finding.isEnd ↔ diagnostic.code = .unexpectedEndOfInput := by
  rw [code_of_report? report_eq, Finding.isEnd, beq_iff_eq]

theorem walkReports_end (member : diagnostic ∈ options.walkReports tokens)
    (code_eq : diagnostic.code = .unexpectedEndOfInput) :
    (∃ earlier, options.walkReports tokens = earlier ++ [diagnostic] ∧
      ∀ other ∈ earlier, other.code ≠ .unexpectedEndOfInput) ∧
    ∃ front token rest, tokens = front ++ token :: rest ∧ token.IsHeard ∧
      (∀ other ∈ rest, other.isTrivia) ∧
      diagnostic.token = .marker token.stop := by
  obtain ⟨finding, found, report_eq⟩ := mem_walkReports_iff.mp member
  have atEnd := (isEnd_of_report? report_eq).mpr code_eq
  obtain ⟨⟨earlier, findings_eq, endless⟩, front, token, rest, tokens_eq,
    heard, behind, anchor_eq⟩ := findings_end found atEnd
  refine ⟨⟨earlier.reverse.filterMap options.report?, ?_, ?_⟩, front, token,
    rest, tokens_eq, heard, behind, ?_⟩
  · rw [walkReports_eq, Walk.diagnostics, findings_eq, List.reverse_cons,
      List.filterMap_append, List.filterMap_cons_some report_eq,
      List.filterMap_nil]
  · intro other among code_other
    obtain ⟨another, before, other_eq⟩ := List.mem_filterMap.mp among
    exact endless another (List.mem_reverse.mp before)
      ((isEnd_of_report? other_eq).mpr code_other)
  · rw [token_of_report? report_eq, anchor_eq]

/-- Over the tokens of a text, it is reported behind the last meaningful one. -/
theorem walkReports_end_scan {text : String}
    (member : diagnostic ∈ options.walkReports (scan text).tokens)
    (code_eq : diagnostic.code = .unexpectedEndOfInput) :
    ∃ last, (meaningful (scan text).tokens).getLast? = some last ∧
      diagnostic.token = .marker last.stop := by
  obtain ⟨-, front, token, rest, tokens_eq, heard, behind, anchor_eq⟩ :=
    walkReports_end member code_eq
  have carries : token.isTrivia = false := by
    refine Bool.eq_false_iff.mpr fun trivia => heard trivia ?_
    exact (Scan.quiet_scan text).silent token (by simp [tokens_eq]) trivia
  refine ⟨token, ?_, anchor_eq⟩
  rw [tokens_eq]
  exact getLast?_meaningful carries behind

end Options

/-- The walk over the tokens makes at most two reports for each meaningful one.
That the document ends is reported once at most, last, and at the end of a
token with nothing but trivia behind it: of the last meaningful token, or of
trivia that is spelled like a terminal. No text has such trivia. -/
theorem reports_bounded (options : Options) (tokens : List Token) :
    (options.walkReports tokens).length ≤ 2 * (meaningful tokens).length ∧
    (∀ diagnostic ∈ options.walkReports tokens,
      diagnostic.code = .unexpectedEndOfInput →
      (∃ earlier, options.walkReports tokens = earlier ++ [diagnostic] ∧
        ∀ other ∈ earlier, other.code ≠ .unexpectedEndOfInput) ∧
      ∃ front token rest, tokens = front ++ token :: rest ∧
        (∀ other ∈ rest, other.isTrivia) ∧
        diagnostic.token = .marker token.stop ∧
        ((meaningful tokens).getLast? = some token ∨
          token.isTrivia ∧ ∃ terminal : Terminal,
            terminal.isMeaningful ∧ token.text = terminal.spelling)) ∧
    ∀ text, ∀ diagnostic ∈ options.walkReports (scan text).tokens,
      diagnostic.code = .unexpectedEndOfInput →
      ∃ last, (meaningful (scan text).tokens).getLast? = some last ∧
        diagnostic.token = .marker last.stop := by
  refine ⟨options.length_walkReports_le tokens, fun diagnostic member atEnd => ?_,
    fun text diagnostic => Options.walkReports_end_scan⟩
  obtain ⟨last, front, token, rest, tokens_eq, heard, behind, anchor_eq⟩ :=
    Options.walkReports_end member atEnd
  refine ⟨last, front, token, rest, tokens_eq, behind, anchor_eq, ?_⟩
  by_cases trivia : token.isTrivia
  · refine .inr ⟨trivia, ?_⟩
    have spelled := heard trivia
    simpa [Token.IsSilent] using spelled
  · rw [tokens_eq]
    exact .inl (getLast?_meaningful (Bool.eq_false_iff.mpr trivia) behind)

def unfinishedConstant : String :=
  "constant a # note"

theorem reports_bounded_unfinishedConstant :
    ∃ diagnostic ∈ ({} : Options).walkReports (scan unfinishedConstant).tokens,
      ∃ earlier, ({} : Options).walkReports (scan unfinishedConstant).tokens =
          earlier ++ [diagnostic] ∧
        diagnostic.code = .unexpectedEndOfInput ∧
        (∀ other ∈ earlier, other.code ≠ .unexpectedEndOfInput) ∧
        ∃ last, (meaningful (scan unfinishedConstant).tokens).getLast? =
            some last ∧
          diagnostic.token = .marker last.stop := by
  have reported : ∃ diagnostic ∈
      ({} : Options).walkReports (scan unfinishedConstant).tokens,
      diagnostic.code = .unexpectedEndOfInput := by
    decide +kernel
  obtain ⟨diagnostic, member, atEnd⟩ := reported
  obtain ⟨-, ends, scanned⟩ :=
    reports_bounded {} (scan unfinishedConstant).tokens
  obtain ⟨⟨earlier, whole, others⟩, -⟩ := ends diagnostic member atEnd
  exact ⟨diagnostic, member, earlier, whole, atEnd, others,
    scanned unfinishedConstant diagnostic member atEnd⟩

/-- A comment that is spelled like the operator that is missing in front of it. -/
def commentedEquals : List Token :=
  [⟨0, 0, "constant", .keyword, {}⟩, ⟨0, 9, "a", .nil, {}⟩,
    ⟨0, 11, "x", .nil, {}⟩, ⟨0, 13, "=", .comment, {}⟩]

/-- Over tokens that no text is scanned as, the end of input may be reported
behind trivia. -/
theorem endOfInput_not_behind_last :
    ¬∀ (options : Options) (tokens : List Token),
      ∀ diagnostic ∈ options.walkReports tokens,
        diagnostic.code = .unexpectedEndOfInput →
        (meaningful tokens).getLast?.map (fun last => Token.marker last.stop) =
          some diagnostic.token := by
  intro always
  exact absurd (always {} commentedEquals) (by decide +kernel)

end ComponentLang
