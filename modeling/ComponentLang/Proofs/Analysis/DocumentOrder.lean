import ComponentLang.Proofs.Analysis.Reports
import ComponentLang.Proofs.Scan.Errors
import ComponentLang.Proofs.Scan.Layout
import ComponentLang.Proofs.Walk.ReportOrder

namespace ComponentLang

theorem StableSort.insert_of_le {le : α → α → Bool} {element : α}
    {elements : List α} (first : ∀ other ∈ elements, le element other) :
    insert le element elements = element :: elements := by
  cases elements with
  | nil => rfl
  | cons head tail => rw [insert, if_pos (first head List.mem_cons_self)]

theorem StableSort.insert_merge {le : α → α → Bool}
    (trans : ∀ a b c, le a b → le b c → le a c) {element : α}
    {lefts rights : List α} (least : ∀ other ∈ lefts, le element other)
    (sorted : rights.Pairwise fun first second => le first second) :
    insert le element (lefts.merge rights le) =
      (element :: lefts).merge rights le := by
  induction rights with
  | nil =>
      rw [List.merge_right, List.merge_right, insert_of_le least]
  | cons right rights induction =>
      obtain ⟨right_le, rights_sorted⟩ := List.pairwise_cons.mp sorted
      by_cases here : le element right
      · rw [List.cons_merge_cons_pos _ _ _ here]
        apply insert_of_le
        intro other member
        rcases List.mem_merge.mp member with left | later
        · exact least other left
        · rcases List.mem_cons.mp later with rfl | behind
          · exact here
          · exact trans _ _ _ here (right_le other behind)
      · rw [List.cons_merge_cons_neg _ _ _ here,
          ← induction rights_sorted]
        -- The right element comes before those on the left as well.
        have front : lefts.merge (right :: rights) le =
            right :: lefts.merge rights le := by
          cases lefts with
          | nil => rw [List.nil_merge, List.nil_merge]
          | cons left lefts =>
              apply List.cons_merge_cons_neg
              intro left_le
              exact here (trans _ _ _ (least left List.mem_cons_self) left_le)
        rw [front, insert, if_neg here]

/-- Two sorted lists, one behind the other, are sorted by merging them. -/
theorem StableSort.sort_append {le : α → α → Bool}
    (trans : ∀ a b c, le a b → le b c → le a c) {lefts rights : List α}
    (left_sorted : lefts.Pairwise fun first second => le first second)
    (right_sorted : rights.Pairwise fun first second => le first second) :
    sort le (lefts ++ rights) = lefts.merge rights le := by
  induction lefts with
  | nil => rw [List.nil_append, List.nil_merge, sort_of_pairwise right_sorted]
  | cons left lefts induction =>
      obtain ⟨least, rest_sorted⟩ := List.pairwise_cons.mp left_sorted
      rw [List.cons_append, sort_cons, induction rest_sorted,
        insert_merge trans least right_sorted]

theorem Scan.before_scan (text : String) :
    (scan text).tokens.Pairwise Token.Before :=
  (laidLines_scan text).ordered

theorem Scan.errors_ordered (text : String) :
    ((scan text).errors.map LexicalError.token).Pairwise fun first second =>
      first.start ≤ second.start := by
  have ordered := (before_scan text).sublist (errors_sublist_tokens text)
  exact ordered.imp fun before => before.start_le

namespace Options

variable (options : Options) (text : String)

theorem lexicalReports_ordered :
    (options.lexicalReports text).Pairwise fun first second =>
      first.position ≤ second.position := by
  have ordered := List.pairwise_map.mp (Scan.errors_ordered text)
  rw [lexicalReports, List.pairwise_filterMap, List.pairwise_map]
  refine ordered.imp ?_
  intro first second front diagnostic report_eq other other_eq
  rw [Diagnostic.position, Diagnostic.position, token_of_report? report_eq,
    token_of_report? other_eq]
  exact front

theorem walkReports_ordered :
    (options.walkReports (scan text).tokens).Pairwise fun first second =>
      first.position ≤ second.position := by
  have ordered := (Walk.findings_inOrder (Scan.before_scan text)
    fun _ => false).2
  rw [walkReports_eq, Walk.diagnostics, List.pairwise_filterMap,
    List.pairwise_reverse]
  refine ordered.imp ?_
  intro later earlier front diagnostic report_eq other other_eq
  rw [Diagnostic.position, Diagnostic.position, token_of_report? report_eq,
    token_of_report? other_eq]
  exact front

theorem anchoredIn_of_mem_walkReports {diagnostic : Diagnostic}
    (member : diagnostic ∈ options.walkReports (scan text).tokens) :
    diagnostic.token.AnchoredIn (scan text).tokens := by
  obtain ⟨finding, found, report_eq⟩ := mem_walkReports_iff.mp member
  rw [token_of_report? report_eq]
  exact (Walk.findings_inOrder (Scan.before_scan text) _).1 finding found

end Options

/-- The lexical errors of a text come in document order, and so do the reports
of the walk over its tokens, each of which lies on a token or marks the end of
one. If the options admit every report, the diagnostics of the text are the two
merged, lexical errors first at one place; all else in its analysis is that of
its tokens. -/
theorem diagnostics_merged (options : Options) (text : String)
    (unlimited : options.Unlimited text) :
    (((scan text).errors.map Scan.LexicalError.token).Pairwise
      fun first second => first.start ≤ second.start) ∧
    ((options.lexicalReports text).Pairwise fun first second =>
      first.position ≤ second.position) ∧
    ((options.walkReports (scan text).tokens).Pairwise fun first second =>
      first.position ≤ second.position) ∧
    (∀ diagnostic ∈ options.walkReports (scan text).tokens,
      diagnostic.token.AnchoredIn (scan text).tokens) ∧
    (analyze options (scan text).tokens).diagnostics =
      options.walkReports (scan text).tokens ∧
    analyzeSource options text =
      { analyze options (scan text).tokens with
        diagnostics :=
          (options.lexicalReports text).merge
            (options.walkReports (scan text).tokens)
            fun first second => first.position.le second.position } ∧
    (analyzeSource options text).diagnostics.Perm
      (options.lexicalReports text ++
        options.walkReports (scan text).tokens) := by
  have lexical := options.lexicalReports_ordered text
  have walked := options.walkReports_ordered text
  have sorted := diagnostics_analyzeSource unlimited
  refine ⟨Scan.errors_ordered text, lexical, walked, ?anchored, ?tokens,
    ?merged, ?kept⟩
  case anchored =>
    intro diagnostic member
    exact options.anchoredIn_of_mem_walkReports text member
  case tokens =>
    apply diagnostics_analyze
    unfold Options.Unlimited at unlimited
    omega
  case merged =>
    rw [analyzeSource_eq, sorted, Diagnostic.sortByPosition,
      StableSort.sort_append _ lexical walked]
    exact fun _ _ _ => Position.le_trans
  case kept =>
    rw [sorted]
    exact StableSort.sort_perm _ _

def openString : String :=
  "constant a =\nenum E \x7b b = \"c\nmodule \"d\" x"

theorem diagnostics_merged_openString :
    Options.Unlimited {} openString ∧
    (analyzeSource {} openString).diagnostics.Perm
      (({} : Options).lexicalReports openString ++
        ({} : Options).walkReports (scan openString).tokens) ∧
    (analyzeSource {} openString).diagnostics.length = 5 := by
  have unlimited : Options.Unlimited {} openString := by decide +kernel
  obtain ⟨-, -, -, -, -, -, kept⟩ :=
    diagnostics_merged {} openString unlimited
  exact ⟨unlimited, kept, by decide +kernel⟩

end ComponentLang
