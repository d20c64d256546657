import ComponentLang.Diagnostic.Rendering
import ComponentLang.Proofs.Analysis.Reports
import ComponentLang.Proofs.Scan.Errors
import ComponentLang.Proofs.Scan.Layout
import ComponentLang.Proofs.Walk.Anchors

namespace ComponentLang

def Token.WrittenIn (lines : List (List Char)) (token : Token) : Prop :=
  ∃ front back,
    lines[token.line]? = some (front ++ token.text.toList ++ back) ∧
      Text.units front = token.column

namespace Token

variable {lines : List (List Char)} {token other : Token}

theorem WrittenIn.of_site (written : token.WrittenIn lines)
    (same : other.site = token.site) : other.WrittenIn lines := by
  obtain ⟨line, column, text⟩ := site_eq_iff.mp same
  rw [WrittenIn, line, column, text]
  exact written

theorem WrittenIn.stop (written : token.WrittenIn lines) :
    (Token.marker token.stop).WrittenIn lines := by
  obtain ⟨front, back, line_eq, column_eq⟩ := written
  refine ⟨front ++ token.text.toList, back, ?_, ?_⟩
  · simpa [Token.marker, Token.stop] using line_eq
  · rw [Text.units_append, column_eq]
    rfl

theorem WrittenIn.of_citedFrom {tokens : List Token} {anchor : Token}
    (written : ∀ token ∈ tokens, token.WrittenIn lines)
    (cited : anchor.CitedFrom tokens) : anchor.WrittenIn lines := by
  obtain ⟨token, member, same | marks⟩ := cited
  · exact (written token member).of_site same
  · exact marks ▸ (written token member).stop

end Token

theorem Scan.writtenIn_of_mem_scan (text : String) :
    ∀ token ∈ (scan text).tokens,
      token.WrittenIn (Text.lines text.toList) := by
  intro token member
  have laid := laidLines_scan text
  obtain ⟨row, line, row_eq, line_eq⟩ := laid.getElem?_line token member
  obtain ⟨front, back, parts, -, column_eq⟩ :=
    (laid.laid_filter row line line_eq).piece token (by simp [member, row_eq])
  rw [Nat.zero_add] at row_eq column_eq
  exact ⟨front, back, by rw [row_eq, line_eq, parts], column_eq.symm⟩

theorem writtenIn_of_mem_diagnostics {options : Options} {text : String}
    {diagnostic : Diagnostic}
    (reported : diagnostic ∈ (analyzeSource options text).diagnostics) :
    diagnostic.token.WrittenIn (Text.lines text.toList) := by
  have scanned := Scan.writtenIn_of_mem_scan text
  rcases of_mem_diagnostics reported with lexical | walked
  · obtain ⟨finding, found, report_eq⟩ := List.mem_filterMap.mp lexical
    obtain ⟨error, among, rfl⟩ := List.mem_map.mp found
    rw [Options.token_of_report? report_eq]
    exact scanned _ ((Scan.errors_sublist_tokens text).subset
      (List.mem_map_of_mem among))
  · obtain ⟨finding, found, report_eq⟩ := Options.mem_walkReports_iff.mp walked
    rw [Options.token_of_report? report_eq]
    exact .of_citedFrom scanned
      (Walk.citedFrom_of_mem_findings _ _ finding found)

namespace Diagnostic

def headline (diagnostic : Diagnostic) : String :=
  diagnostic.severity.name ++ "[" ++ diagnostic.code.name ++ "]:" ++
    diagnostic.place ++ ": " ++ diagnostic.message

def helpLine (diagnostic : Diagnostic) : String :=
  match diagnostic.suggestion with
  | some hint => "\n  help: " ++ hint
  | none => ""

/-- Carets under a piece of some length, behind as many blanks as there are
characters before it. -/
def underline (before length : Nat) : String :=
  String.ofList (List.replicate before ' ' ++ List.replicate (max 1 length) '^')

theorem render_eq (diagnostic : Diagnostic) (source : String) :
    diagnostic.render source =
      diagnostic.headline ++ "\n  " ++
        String.ofList (diagnostic.shownLine source) ++ "\n  " ++
        String.ofList
          (List.replicate
              (diagnostic.indent (diagnostic.shownLine source)) ' ' ++
            List.replicate
              (diagnostic.carets (diagnostic.shownLine source)) '^') ++
        diagnostic.helpLine := by
  cases hint : diagnostic.suggestion <;>
    simp only [render, headline, helpLine, hint, String.ofList_append,
      String.append_assoc]

section Piece

variable {diagnostic : Diagnostic} {front back : List Char}

theorem indent_eq (column_eq : Text.units front = diagnostic.token.column)
    (rest : List Char) : diagnostic.indent (front ++ rest) = front.length := by
  rw [indent, ← column_eq, Text.charsWithin_units_append]

theorem carets_eq (column_eq : Text.units front = diagnostic.token.column) :
    diagnostic.carets (front ++ (diagnostic.token.text.toList ++ back)) =
      max 1 diagnostic.token.text.length := by
  rw [carets, indent_eq column_eq, List.drop_left, Token.length,
    Text.charsWithin_units_append, String.length_toList]

end Piece

/-- A diagnostic on a text is shown with a line of the text and, below it,
carets under the characters of its token, or one where a token ends. They stand
behind as many blanks as there are characters before the token, and go at most
one place beyond the line. -/
theorem render_underlines (options : Options) (text : String)
    (diagnostic : Diagnostic)
    (reported : diagnostic ∈ (analyzeSource options text).diagnostics) :
    ∃ line front back : String,
      (Text.splitLines text)[diagnostic.token.line]? = some line ∧
      line = front ++ diagnostic.token.text ++ back ∧
      Text.units front.toList = diagnostic.token.column ∧
      diagnostic.render text =
        diagnostic.headline ++ "\n  " ++ line ++ "\n  " ++
          underline front.length diagnostic.token.text.length ++
          diagnostic.helpLine ∧
      front.length + max 1 diagnostic.token.text.length ≤ line.length + 1 := by
  obtain ⟨front, back, line_eq, column_eq⟩ :=
    writtenIn_of_mem_diagnostics reported
  have shown : diagnostic.shownLine text =
      front ++ (diagnostic.token.text.toList ++ back) := by
    rw [shownLine, line_eq, Option.getD_some, List.append_assoc]
  refine ⟨String.ofList (diagnostic.shownLine text), String.ofList front,
    String.ofList back, ?line, ?parts, ?column, ?rendered, ?within⟩
  case line =>
    rw [Text.splitLines, List.getElem?_map, line_eq, shown, List.append_assoc]
    rfl
  case parts =>
    rw [shown, String.ofList_append, String.ofList_append, String.ofList_toList,
      String.append_assoc]
  case column => rw [String.toList_ofList, column_eq]
  case rendered =>
    rw [render_eq, underline]
    simp only [shown, indent_eq column_eq, carets_eq column_eq,
      String.length_ofList]
  case within =>
    simp only [shown, String.length_ofList, List.length_append,
      String.length_toList]
    omega

/-- A character of two units stands before the mismatch, and the text ends in a
line of no length. -/
def openList : String :=
  "constant a = \"😀\" constnt\rarray b =\n"

theorem render_underlines_openList :
    ∃ diagnostic ∈ (analyzeSource {} openList).diagnostics,
      diagnostic.token.column = 18 ∧
      ∃ line front back : String,
        (Text.splitLines openList)[diagnostic.token.line]? = some line ∧
        line = front ++ diagnostic.token.text ++ back ∧
        Text.units front.toList = diagnostic.token.column ∧
        diagnostic.render openList =
          diagnostic.headline ++ "\n  " ++ line ++ "\n  " ++
            underline front.length diagnostic.token.text.length ++
            diagnostic.helpLine ∧
        front.length + max 1 diagnostic.token.text.length ≤
          line.length + 1 := by
  have found : ∃ diagnostic ∈ (analyzeSource {} openList).diagnostics,
      diagnostic.token.column = 18 := by decide +kernel
  obtain ⟨diagnostic, reported, column_eq⟩ := found
  exact ⟨diagnostic, reported, column_eq,
    render_underlines {} openList diagnostic reported⟩

end Diagnostic

end ComponentLang
