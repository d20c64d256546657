import ComponentLang.Proofs.Analysis.Notices
import ComponentLang.Proofs.Scan.Kinds
import ComponentLang.Proofs.Scan.Shift
import ComponentLang.Proofs.Walk.Fence

namespace ComponentLang

section Lines

variable {α : Type} {count : Nat} {elements : List α}

theorem filter_of_lines_below (line : α → Nat)
    (below : ∀ element ∈ elements, count ≤ line element) :
    elements.filter (fun element => count ≤ line element) = elements := by
  rw [List.filter_eq_self]
  intro element member
  simpa using below element member

theorem filter_append_of_lines (line : α → Nat) {front back : List α}
    (above : ∀ element ∈ front, line element < count)
    (below : ∀ element ∈ back, count ≤ line element) :
    (front ++ back).filter (fun element => count ≤ line element) = back := by
  have left_out : front.filter (fun element => count ≤ line element) = [] := by
    rw [List.filter_eq_nil_iff]
    intro element member
    simpa using above element member
  rw [List.filter_append, left_out, filter_of_lines_below line below,
    List.nil_append]

end Lines

theorem Token.IsFence.shift {token : Token} (fence : token.IsFence)
    (count : Nat) : (token.shift count).IsFence :=
  ⟨fence.kind, fence.word⟩

namespace Finding

theorem line_of_mem_notices {findings : List Finding} {count : Nat}
    (above : ∀ finding ∈ findings, finding.anchor.line < count) :
    ∀ notice ∈ notices findings, notice.line < count := by
  intro notice member
  obtain ⟨finding, among, rfl⟩ := List.mem_map.mp member
  exact above finding (List.mem_filter.mp among).1

theorem notices_ofLexicalError_shift (count : Nat)
    (errors : List Scan.LexicalError) :
    notices ((errors.map (Scan.LexicalError.shift count)).map ofLexicalError) =
      (notices (errors.map ofLexicalError)).map (Notice.shift count) := by
  induction errors with
  | nil => rfl
  | cons error rest induction =>
      rw [List.map_cons, List.map_cons, List.map_cons, ofLexicalError,
        ofLexicalError, notices_cons rfl, notices_cons rfl, induction]
      rfl

end Finding

section Stacked

variable {front back : String} {first : Token} {rest : List Token}

def fenceBelow (count : Nat) (word : first.IsFence) (rest : List Token) :
    Fence where
  row := count
  token := first.shift count
  rest := rest.map (Token.shift count)
  word := word.shift count
  below := by
    rw [← List.map_cons]
    exact Token.count_le_of_mem_map_shift

theorem above_fenceBelow (word : first.IsFence) (unbraced : '{' ∉ front.toList)
    (unlocated : ∀ token ∈ (scan front).tokens,
      token.text ≠ Keyword.locate.spelling)
    {token : Token} (member : token ∈ (scan front).tokens) :
    (fenceBelow (lineCount front) word rest).Above token where
  line := Scan.line_of_mem_scan member
  unbraced same := by
    have inside := (Scan.infix_of_mem_scan member).subset
    rw [same] at inside
    exact unbraced (inside (by decide +kernel))
  unlocated := unlocated token member

theorem exists_shifted (unbraced : '{' ∉ front.toList)
    (unquoted : '"' ∉ front.toList)
    (unlocated : ∀ token ∈ (scan front).tokens,
      token.text ≠ Keyword.locate.spelling)
    (unreturned : front.toList.getLast? ≠ some '\r')
    (begins : (scan back).tokens = first :: rest) (word : first.IsFence) :
    ∃ reached : Walk, reached.Early (lineCount front) ∧
      Walk.Shifted (lineCount front) reached false
        (Walk.document (fun _ => false) (scan back).tokens).2
        (Walk.document (fun _ => false)
          (scan (front ++ "\n" ++ back)).tokens).2 := by
  obtain ⟨tokens_eq, -, plain⟩ := Scan.scan_stacked unquoted unreturned back
  have above : ∀ token ∈ (scan front).tokens,
      (fenceBelow (lineCount front) word rest).Above token ∧
        token.kind ≠ .string := fun token member =>
    ⟨above_fenceBelow word unbraced unlocated member, plain token member⟩
  have whole : (scan (front ++ "\n" ++ back)).tokens =
      (scan front).tokens ++ (fenceBelow (lineCount front) word rest).token ::
        (fenceBelow (lineCount front) word rest).rest := by
    rw [tokens_eq, begins]
    rfl
  obtain ⟨reached, turns, reaches, enough, same⟩ := Walk.document_reaches above
  refine ⟨reached, reaches.early, ?_⟩
  rw [whole, same]
  refine Walk.document_shifted (by simp [begins])
    (fun _ => Scan.isDeclaration_of_mem_scan) ?_ reaches.early.symbols ?_ enough
  · rw [reaches.ahead, begins]
    rfl
  · simp [begins, fenceBelow]

end Stacked

namespace Walk.Shifted

variable {count : Nat} {reached first second : Walk}

theorem declared_tokens (shifted : Shifted count reached false first second)
    (early : reached.Early count) :
    (declared second.cursor.toList).filter (fun token => count ≤ token.line) =
      (declared first.cursor.toList).map (Token.shift count) := by
  rw [shifted.cursor.declared_toList]
  refine filter_append_of_lines Token.line ?_ Token.count_le_of_mem_map_shift
  intro token member
  exact early.passed token (List.mem_reverse.mp (List.mem_filter.mp member).1)

theorem declared_classified (shifted : Shifted count reached false first second)
    (early : reached.Early count) :
    (declared second.classified.reverse).filter
        (fun token => count ≤ token.line) =
      (declared first.classified.reverse).map (Token.shift count) := by
  rw [declared_reverse, declared_reverse, shifted.classified,
    List.reverse_append, ← List.map_reverse]
  refine filter_append_of_lines Token.line ?_ Token.count_le_of_mem_map_shift
  intro token member
  exact early.classified token
    (List.mem_filter.mp (List.mem_reverse.mp member)).1

theorem notices_findings (shifted : Shifted count reached false first second)
    (early : reached.Early count) :
    (Finding.notices second.findings.reverse).filter
        (fun notice => count ≤ notice.line) =
      (Finding.notices first.findings.reverse).map (Notice.shift count) := by
  rw [Finding.notices_reverse, Finding.notices_reverse, shifted.notices,
    List.reverse_append, ← List.map_reverse]
  refine filter_append_of_lines Notice.line ?_ Notice.count_le_of_mem_map_shift
  intro notice member
  exact Finding.line_of_mem_notices early.findings notice
    (List.mem_reverse.mp member)

end Walk.Shifted

/-- Statements below a broken text are analyzed as they are on their own, if
they begin with a word that fences statements off: the same names are declared
as the same, and the same is said of the statements, but for what concerns
names. The text above leaves no string open, ends its last line, and neither
opens a body nor locates anything. -/
theorem statements_recovered (options : Options) {front back : String}
    {first : Token} {rest : List Token}
    (unbraced : '{' ∉ front.toList) (unquoted : '"' ∉ front.toList)
    (unlocated : ∀ token ∈ (scan front).tokens,
      token.text ≠ Keyword.locate.spelling)
    (unreturned : front.toList.getLast? ≠ some '\r')
    (begins : (scan back).tokens = first :: rest) (word : first.IsFence)
    (unlimited : options.Unlimited (front ++ "\n" ++ back))
    (unlimited_alone : options.Unlimited back) :
    (declared (analyzeSource options (front ++ "\n" ++ back)).tokens).filter
        (fun token => lineCount front ≤ token.line) =
      (declared (analyzeSource options back).tokens).map
        (Token.shift (lineCount front)) ∧
    (declared (analyzeSource options (front ++ "\n" ++ back)).classified).filter
        (fun token => lineCount front ≤ token.line) =
      (declared (analyzeSource options back).classified).map
        (Token.shift (lineCount front)) ∧
    (Diagnostic.notices
        (analyzeSource options (front ++ "\n" ++ back)).diagnostics).filter
        (fun notice => lineCount front ≤ notice.line) =
      (Diagnostic.notices (analyzeSource options back).diagnostics).map
        (Notice.shift (lineCount front)) := by
  obtain ⟨reached, early, shifted⟩ :=
    exists_shifted unbraced unquoted unlocated unreturned begins word
  rw [tokens_analyzeSource, tokens_analyzeSource, classified_analyzeSource,
    classified_analyzeSource]
  refine ⟨shifted.declared_tokens early, shifted.declared_classified early, ?_⟩
  obtain ⟨-, errors_eq, -⟩ := Scan.scan_stacked unquoted unreturned back
  rw [notices_analyzeSource unlimited, notices_analyzeSource unlimited_alone,
    Notice.filter_sort, ← Notice.sort_map_shift, findings, findings, errors_eq,
    Finding.notices_append, Finding.notices_append, List.filter_append,
    shifted.notices_findings early, Finding.notices_ofLexicalError_shift,
    filter_of_lines_below Notice.line Notice.count_le_of_mem_map_shift,
    List.map_append]

def unfinishedStatements : String :=
  "constant a = (1 +\nconstant f = [1,"

def laterStatements : String :=
  "constant b = a +\nconstant a = 2"

theorem statements_recovered_unfinished :
    lineCount unfinishedStatements = 2 ∧
    (declared (analyzeSource .strict
        (unfinishedStatements ++ "\n" ++ laterStatements)).tokens).filter
        (fun token => 2 ≤ token.line) =
      [⟨2, 9, "b", .variable, { declaration := true }⟩,
        ⟨3, 9, "a", .variable, { declaration := true }⟩] ∧
    (Diagnostic.notices (analyzeSource .strict
        (unfinishedStatements ++ "\n" ++ laterStatements)).diagnostics).filter
        (fun notice => 2 ≤ notice.line) =
      [⟨.error, .expectedToken, "Expected expression, found `constant`", 2, 16,
        0⟩] := by
  have facts : lineCount unfinishedStatements = 2 ∧
      '{' ∉ unfinishedStatements.toList ∧ '"' ∉ unfinishedStatements.toList ∧
      (∀ token ∈ (scan unfinishedStatements).tokens,
        token.text ≠ Keyword.locate.spelling) ∧
      unfinishedStatements.toList.getLast? ≠ some '\r' ∧
      (scan laterStatements).tokens = ⟨0, 0, "constant", .keyword, {}⟩ ::
        (scan laterStatements).tokens.tail ∧
      Options.Unlimited .strict
        (unfinishedStatements ++ "\n" ++ laterStatements) ∧
      Options.Unlimited .strict laterStatements := by
    decide +kernel
  have alone : declared (analyzeSource .strict laterStatements).tokens =
        [⟨0, 9, "b", .variable, { declaration := true }⟩,
          ⟨1, 9, "a", .variable, { declaration := true }⟩] ∧
      Diagnostic.notices (analyzeSource .strict laterStatements).diagnostics =
        [⟨.error, .expectedToken, "Expected expression, found `constant`", 0,
          16, 0⟩] := by
    decide +kernel
  obtain ⟨lines, unbraced, unquoted, unlocated, unreturned, begins, unlimited,
    unlimited_alone⟩ := facts
  obtain ⟨tokens, -, notices⟩ := statements_recovered .strict unbraced unquoted
    unlocated unreturned begins ⟨rfl, .constant, rfl, rfl⟩ unlimited
    unlimited_alone
  rw [lines, alone.1] at tokens
  rw [lines, alone.2] at notices
  exact ⟨lines, tokens, notices⟩

end ComponentLang
