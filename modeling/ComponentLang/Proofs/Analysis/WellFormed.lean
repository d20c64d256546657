import ComponentLang.Proofs.Analysis.Reports
import ComponentLang.Proofs.Syntax.Printing
import ComponentLang.Proofs.Visitor.Balance
import ComponentLang.Proofs.Walk.Documents

namespace ComponentLang

open Syntax

/-- What the document declares in a text that it is spelled by. -/
def Syntax.Document.declarations (document : Document) (text : String) :
    List Symbol :=
  ComponentLang.declarations document.items (meaningful (scan text).tokens)

theorem ReportLevel.severity_ne_error {level : ReportLevel}
    {severity : Severity} (mild : level ≠ .error)
    (severity_eq : level.severity? = some severity) : severity ≠ .error := by
  cases level <;> cases severity_eq
  · nofun
  · contradiction

section WellFormed

variable {options : Options} {document : Document} {text : String}
  {diagnostic : Diagnostic}

theorem exists_finding (closed : (scan text).errors = [])
    (member : diagnostic ∈ (analyzeSource options text).diagnostics) :
    ∃ finding ∈ (Walk.document (fun _ => false) (scan text).tokens).2.findings,
      options.report? finding = some diagnostic := by
  rcases of_mem_diagnostics member with lexical | walked
  · rw [Options.lexicalReports, closed] at lexical
    nomatch lexical
  · exact Options.mem_walkReports_iff.mp walked

theorem admits_declarations
    (distinct : (document.declarations text).Pairwise fun earlier later =>
      later.repeats earlier = false) :
    SymbolTable.Admits {} (document.declarations text) :=
  SymbolTable.admits_of_pairwise (List.forall_mem_nil _) distinct

theorem concernsNames_of_isSpelledBy (spelled : document.IsSpelledBy text)
    {finding : Finding}
    (found : finding ∈
      (Walk.document (fun _ => false) (scan text).tokens).2.findings) :
    finding.ConcernsNames {} (document.declarations text) := by
  obtain ⟨after, document_eq, takes⟩ := Walk.exists_document spelled.items
  rw [document_eq] at found
  exact (takes.findings finding found).resolve_left nofun

theorem reported_of_isSpelledBy (spelled : document.IsSpelledBy text)
    (member : diagnostic ∈ (analyzeSource options text).diagnostics) :
    diagnostic.code = .unknownIdentifier ∧
        options.unknownIdentifiers.severity? = some diagnostic.severity ∨
      diagnostic.code = .duplicateDeclaration ∧
        options.duplicateDeclarations.severity? = some diagnostic.severity ∧
        ¬(document.declarations text).Pairwise fun earlier later =>
          later.repeats earlier = false := by
  obtain ⟨finding, found, report_eq⟩ := exists_finding spelled.closed member
  rw [Options.code_of_report? report_eq, ← Options.severity_of_report? report_eq]
  rcases concernsNames_of_isSpelledBy spelled found with
    ⟨known, cause_eq⟩ | ⟨⟨earlier, cause_eq⟩, repeated⟩
  · rw [cause_eq]
    exact .inl ⟨rfl, rfl⟩
  · rw [cause_eq]
    exact .inr ⟨rfl, rfl, mt admits_declarations repeated⟩

theorem symbols_of_isSpelledBy (spelled : document.IsSpelledBy text) :
    (analyzeSource options text).symbols =
      Symbol.firstOfEachName (document.declarations text) := by
  obtain ⟨after, document_eq, takes⟩ := Walk.exists_document spelled.items
  rw [symbols_analyzeSource, document_eq, takes.symbols]
  exact SymbolTable.toList_declareAll_of_plain takes.plain

end WellFormed

/-- However a document is laid out, its text is made of its items. Each such text
is accepted: it is analyzed without errors, unless the options say that names
are in error; only names that are not known are reported, and those that are
declared again in their scope. The symbols are the declarations of the document,
of each name the first one, and no scope is left open. -/
theorem document_accepted (options : Options) (document : Document) :
    (∀ layout, document.IsSpelledBy (document.print layout)) ∧
    ∀ text, document.IsSpelledBy text →
      (options.unknownIdentifiers ≠ .error →
        options.duplicateDeclarations ≠ .error →
        (analyzeSource options text).hasErrors = false) ∧
      (∀ diagnostic ∈ (analyzeSource options text).diagnostics,
        diagnostic.code = .unknownIdentifier ∧
            options.unknownIdentifiers ≠ .off ∨
          diagnostic.code = .duplicateDeclaration ∧
            options.duplicateDeclarations ≠ .off ∧
            ¬(document.declarations text).Pairwise fun earlier later =>
              later.repeats earlier = false) ∧
      (analyzeSource options text).symbols =
        Symbol.firstOfEachName (document.declarations text) ∧
      (analyzeSource options text).scopeResets = 0 := by
  refine ⟨document.isSpelledBy_print, fun text spelled =>
    ⟨?accepted, ?reported, symbols_of_isSpelledBy spelled, ?settled⟩⟩
  case accepted =>
    intro unknown duplicate
    apply List.any_eq_false.mpr
    intro diagnostic member
    rw [Diagnostic.isError, beq_iff_eq]
    rcases reported_of_isSpelledBy spelled member with
      ⟨-, severity_eq⟩ | ⟨-, severity_eq, -⟩
    · exact ReportLevel.severity_ne_error unknown severity_eq
    · exact ReportLevel.severity_ne_error duplicate severity_eq
  case reported =>
    intro diagnostic member
    have enabled {level : ReportLevel}
        (severity_eq : level.severity? = some diagnostic.severity) :
        level ≠ .off := by
      rintro rfl
      nomatch severity_eq
    exact (reported_of_isSpelledBy spelled member).imp
      (And.imp_right enabled) (And.imp_right (And.imp_left enabled))
  case settled =>
    exact (Visitor.balanced_document _ _ rfl).resets

/-- A module with an escaped name and a name that is not known. -/
def smallModule : Document :=
  [.module ⟨"M", by decide +kernel⟩
    [.plain (.type ⟨"$type", by decide +kernel⟩ none),
      .plain (.constant ⟨"a", by decide +kernel⟩
        (.minus (.single (.name ⟨⟨"b", by decide +kernel⟩, []⟩))))]]

def onePerLine : Layout where
  front := ⟨[], rfl⟩
  between _ := ⟨['\n'], rfl⟩
  back := ⟨['\n', ' '], rfl⟩
  apart _ := nofun

theorem document_accepted_onePerLine :
    smallModule.print onePerLine =
      "module\nM\n\x7b\ntype\n$type\nconstant\na\n=\n-\nb\n\x7d\n " ∧
    (analyzeSource {} (smallModule.print onePerLine)).hasErrors = false ∧
    (analyzeSource {} (smallModule.print onePerLine)).symbols.map
        (fun symbol => (symbol.scope, symbol.name)) =
      [("<global>", "M"), ("M", "type"), ("M", "a")] := by
  obtain ⟨laid_out, accepted⟩ := document_accepted {} smallModule
  obtain ⟨faultless, -, symbols_eq, -⟩ := accepted _ (laid_out onePerLine)
  refine ⟨by decide +kernel, faultless nofun nofun, ?_⟩
  rw [symbols_eq]
  decide +kernel

end ComponentLang
