import ComponentLang.Proofs.Analysis.DocumentOrder
import ComponentLang.Proofs.Walk.Precedence

namespace ComponentLang

open Walk

theorem unknownIdentifier_reported_iff {options : Options} {text : String}
    (enabled : options.unknownIdentifiers ≠ .off)
    (unlimited : options.Unlimited text) (token : Token) :
    (∃ diagnostic ∈ (analyzeSource options text).diagnostics,
      diagnostic.code = .unknownIdentifier ∧
        diagnostic.token.site = token.site) ↔
    ∃ finding ∈ (document (fun _ => false) (scan text).tokens).2.findings,
      finding.cause.code = .unknownIdentifier ∧
        finding.anchor.site = token.site := by
  constructor
  · rintro ⟨diagnostic, member, code_eq, same⟩
    rcases (mem_diagnostics_analyzeSource unlimited).mp member with
      lexical | walked
    · obtain ⟨finding, among, report_eq⟩ := List.mem_filterMap.mp lexical
      obtain ⟨error, -, rfl⟩ := List.mem_map.mp among
      rw [Options.code_of_report? report_eq] at code_eq
      nomatch code_eq
    · obtain ⟨finding, found, report_eq⟩ :=
        Options.mem_walkReports_iff.mp walked
      rw [Options.code_of_report? report_eq] at code_eq
      rw [Options.token_of_report? report_eq] at same
      exact ⟨finding, found, code_eq, same⟩
  · rintro ⟨finding, found, code_eq, same⟩
    obtain ⟨severity, severity_eq⟩ :
        ∃ severity, options.severity? finding.cause = some severity := by
      cases cause_eq : finding.cause with
      | unknownIdentifier known =>
          rw [Options.severity?]
          cases level_eq : options.unknownIdentifiers with
          | off => exact absurd level_eq enabled
          | warning => exact ⟨_, rfl⟩
          | error => exact ⟨_, rfl⟩
      | _ =>
          rw [cause_eq] at code_eq
          nomatch code_eq
    have report_eq : options.report? finding =
        some (finding.diagnostic severity) := by
      rw [Options.report?, severity_eq, Option.map_some]
    refine ⟨finding.diagnostic severity, ?_, code_eq, same⟩
    apply (mem_diagnostics_analyzeSource unlimited).mpr
    exact .inr (Options.mem_walkReports_iff.mpr ⟨finding, found, report_eq⟩)

/-- The symbols of a text are, in their order, the first declarations of each
name among its classified tokens. Every other classified token is classified as
the symbol of its name, which is declared before it. A name that is looked up is
reported as unknown, if the options admit every such report, exactly when no
token before it declares the name. -/
theorem first_declaration_decides (options : Options) (text : String) :
    List.Forall₂ Symbol.MadeBy (analyzeSource options text).symbols
      (firstDeclarations (analyzeSource options text).classified) ∧
    ((analyzeSource options text).symbols.map Symbol.name).Nodup ∧
    (∀ symbol ∈ (analyzeSource options text).symbols,
      symbol.modifiers.declaration = false) ∧
    (∀ token ∈ (analyzeSource options text).classified,
      token.isDeclaration = false →
      ∃ symbol ∈ (analyzeSource options text).symbols,
        symbol.ReferredBy token) ∧
    (options.unknownIdentifiers ≠ .off → options.Unlimited text →
      ∀ visit ∈ visits (scan text).tokens, visit.rule = .resolve →
      ∀ token, visit.walk.cursor.current? = some token →
      Literal.isIdentifier token.text →
      ((∃ diagnostic ∈ (analyzeSource options text).diagnostics,
        diagnostic.code = .unknownIdentifier ∧
          diagnostic.token.site = token.site) ↔
      ∀ other ∈ (analyzeSource options text).classified,
        other.isDeclaration → other.name = token.name →
        ¬other.start < token.start)) := by
  have ordered := Scan.before_scan text
  obtain ⟨made, references⟩ := symbols_document ordered fun _ => false
  rw [symbols_analyzeSource, classified_analyzeSource]
  refine ⟨made, ?names, ?plain, ?references, ?unknown⟩
  case names =>
    rw [Symbol.map_name_of_made made]
    exact nodup_name_firstDeclarations _
  case plain =>
    intro symbol member
    obtain ⟨token, -, first⟩ := Symbol.exists_of_made made member
    rw [first.modifiers]
    rfl
  case references =>
    intro token member
    exact references token (List.mem_reverse.mp member)
  case unknown =>
    intro enabled unlimited visit member rule_eq token there identifier
    rw [unknownIdentifier_reported_iff enabled unlimited,
      unknown_iff ordered member rule_eq there identifier]
    simp only [List.mem_reverse]

def usedEarly : String :=
  "constant a = b\nconstant b = $a\nconstant $a = b"

theorem first_declaration_decides_usedEarly :
    (∃ visit ∈ visits (scan usedEarly).tokens, visit.rule = .resolve ∧
      ∃ token, visit.walk.cursor.current? = some token ∧
        ∃ diagnostic ∈ (analyzeSource .strict usedEarly).diagnostics,
          diagnostic.code = .unknownIdentifier ∧
            diagnostic.token.site = token.site) ∧
    ((analyzeSource .strict usedEarly).symbols.map Symbol.name).Nodup ∧
    (analyzeSource .strict usedEarly).symbols.length = 2 := by
  have facts : Options.strict.unknownIdentifiers ≠ .off ∧
      Options.Unlimited .strict usedEarly ∧
      (∃ visit ∈ visits (scan usedEarly).tokens, visit.rule = .resolve ∧
        ∃ token ∈ visit.walk.cursor.current?,
          Literal.isIdentifier token.text ∧
            ∀ other ∈ (analyzeSource .strict usedEarly).classified,
              other.isDeclaration → other.name = token.name →
              ¬other.start < token.start) ∧
      (analyzeSource .strict usedEarly).symbols.length = 2 := by
    decide +kernel
  obtain ⟨enabled, unlimited, ⟨visit, member, rule_eq, token, there, identifier,
    undeclared⟩, two⟩ := facts
  obtain ⟨-, names, -, -, unknown⟩ :=
    first_declaration_decides .strict usedEarly
  have reported := (unknown enabled unlimited visit member rule_eq token there
    identifier).mpr undeclared
  exact ⟨⟨visit, member, rule_eq, token, there, reported⟩, names, two⟩

end ComponentLang
