import ComponentLang.Proofs.Analysis.DocumentOrder
import ComponentLang.Proofs.Check.ExitStatus

namespace ComponentLang

/-! Cutting a merge. -/

namespace StableSort

variable {le : α → α → Bool}

theorem merge_append_append {lefts lefts' rights rights' : List α}
    (left_first : ∀ left ∈ lefts, ∀ right ∈ rights', le left right)
    (right_first : ∀ right ∈ rights, ∀ left ∈ lefts', ¬le left right) :
    (lefts ++ lefts').merge (rights ++ rights') le =
      lefts.merge rights le ++ lefts'.merge rights' le := by
  induction lefts generalizing rights with
  | nil =>
      rw [List.nil_append, List.nil_merge]
      induction rights with
      | nil => rfl
      | cons right rights induction =>
          obtain ⟨first, rest⟩ := List.forall_mem_cons.mp right_first
          rw [List.cons_append, List.cons_append, ← induction rest]
          cases lefts' with
          | nil => rw [List.nil_merge, List.nil_merge]
          | cons left lefts' =>
              exact List.cons_merge_cons_neg _ _ _ (first left List.mem_cons_self)
  | cons left lefts left_ih =>
      obtain ⟨first, rest⟩ := List.forall_mem_cons.mp left_first
      induction rights with
      | nil =>
          rw [List.nil_append, List.merge_right, List.cons_append,
            List.cons_append]
          have further := @left_ih [] rest (List.forall_mem_nil _)
          rw [List.nil_append, List.merge_right] at further
          rw [← further]
          cases rights' with
          | nil => rw [List.merge_right, List.merge_right]
          | cons right rights' =>
              exact List.cons_merge_cons_pos _ _ _ (first right List.mem_cons_self)
      | cons right rights right_ih =>
          by_cases here : le left right
          · rw [List.cons_append, List.cons_append,
              List.cons_merge_cons_pos _ _ _ here,
              List.cons_merge_cons_pos _ _ _ here, List.cons_append,
              ← left_ih rest right_first]
            rfl
          · obtain ⟨-, others⟩ := List.forall_mem_cons.mp right_first
            rw [List.cons_append, List.cons_append,
              List.cons_merge_cons_neg _ _ _ here,
              List.cons_merge_cons_neg _ _ _ here, List.cons_append,
              ← right_ih others]
            rfl

/-- If the front of a merge has all that is kept on the left, nothing that is
kept there lies behind what is lost on the right. -/
theorem le_of_take_merge {lefts rights : List α} {left right : α} {limit : Nat}
    (trans : ∀ a b c, le a b → le b c → le a c)
    (total : ∀ a b, le a b || le b a)
    (left_sorted : lefts.Pairwise fun first second => le first second)
    (right_sorted : rights.Pairwise fun first second => le first second)
    (same : (lefts.merge rights le).take limit =
      (lefts.take limit).merge (rights.take (limit - lefts.length)) le)
    (kept : left ∈ lefts.take limit)
    (lost : right ∈ rights.drop (limit - lefts.length)) : le left right := by
  by_contra behind
  let early (element : α) : Bool := !le left element
  have sorted : (lefts.merge rights le).Pairwise fun first second =>
      le first second :=
    List.pairwise_merge trans total _ _ left_sorted right_sorted
  have among : left ∈ (lefts.merge rights le).take limit := by
    rw [same]
    exact List.mem_merge_left le kept
  -- Nothing behind the front of the merge is in front of `left`.
  have none_behind : ((lefts.merge rights le).drop limit).countP early = 0 := by
    rw [← List.take_append_drop limit (lefts.merge rights le),
      List.pairwise_append] at sorted
    apply List.countP_eq_zero.mpr
    intro element member
    simp only [early, sorted.2.2 left among element member, Bool.not_true,
      Bool.false_eq_true, not_false_eq_true]
  have front : (lefts.merge rights le).countP early =
      (lefts.take limit).countP early +
        (rights.take (limit - lefts.length)).countP early := by
    rw [← List.take_append_drop limit (lefts.merge rights le),
      List.countP_append, none_behind, Nat.add_zero, same,
      (List.merge_perm_append le).countP_eq, List.countP_append]
  have whole : (lefts.merge rights le).countP early =
      lefts.countP early + rights.countP early := by
    rw [(List.merge_perm_append le).countP_eq, List.countP_append]
  have left_le : (lefts.take limit).countP early ≤ lefts.countP early :=
    (List.take_sublist limit lefts).countP_le
  have right_split : rights.countP early =
      (rights.take (limit - lefts.length)).countP early +
        (rights.drop (limit - lefts.length)).countP early := by
    rw [← List.countP_append, List.take_append_drop]
  have right_pos :
      0 < (rights.drop (limit - lefts.length)).countP early := by
    apply List.countP_pos_iff.mpr
    refine ⟨right, lost, ?_⟩
    simpa [early] using behind
  omega

/-- The front of a merge is the merge of the fronts, counted on the left first,
exactly when nothing that is kept on the left lies behind what is lost on the
right. -/
theorem take_merge_iff {lefts rights : List α} {limit : Nat}
    (trans : ∀ a b c, le a b → le b c → le a c)
    (total : ∀ a b, le a b || le b a)
    (left_sorted : lefts.Pairwise fun first second => le first second)
    (right_sorted : rights.Pairwise fun first second => le first second) :
    (lefts.merge rights le).take limit =
        (lefts.take limit).merge (rights.take (limit - lefts.length)) le ↔
      ∀ left ∈ lefts.take limit,
        ∀ right ∈ rights.drop (limit - lefts.length), le left right := by
  constructor
  · intro same left kept right lost
    exact le_of_take_merge trans total left_sorted right_sorted same kept lost
  · intro apart
    -- Either nothing is kept on the right, or nothing is lost on the left.
    have crossed : ∀ right ∈ rights.take (limit - lefts.length),
        ∀ left ∈ lefts.drop limit, ¬le left right := by
      intro right right_kept left left_lost
      have nonempty := List.length_pos_of_mem right_kept
      have lost := List.length_pos_of_mem left_lost
      rw [List.length_take] at nonempty
      rw [List.length_drop] at lost
      omega
    have split := merge_append_append apart crossed
    rw [List.take_append_drop, List.take_append_drop] at split
    have length_eq : ((lefts.take limit).merge
        (rights.take (limit - lefts.length)) le).length =
          min limit (lefts.length + rights.length) := by
      rw [List.length_merge, List.length_take, List.length_take]
      omega
    rw [split]
    rcases Nat.le_total limit (lefts.length + rights.length) with within | beyond
    · apply List.take_left'
      rw [length_eq, Nat.min_eq_left within]
    · have none_lost : (lefts.drop limit).merge
          (rights.drop (limit - lefts.length)) le = [] := by
        rw [List.drop_eq_nil_of_le (by omega), List.drop_eq_nil_of_le (by omega),
          List.nil_merge]
      rw [none_lost, List.append_nil, List.take_of_length_le]
      rw [length_eq]
      exact Nat.min_le_left _ _

end StableSort

theorem diagnostics_eq_sort_take (options : Options) (text : String) :
    (analyzeSource options text).diagnostics =
      Diagnostic.sortByPosition
        ((options.reports text).take options.maxDiagnostics) := by
  rw [analyzeSource_eq_ofWalk]
  change Diagnostic.sortByPosition (options.keep _) = _
  rw [options.keep_eq_take, Options.reports, Options.walkReports_eq]
  rfl

theorem diagnostics_eq_merge_take (options : Options) (text : String) :
    (analyzeSource options text).diagnostics =
      ((options.lexicalReports text).take options.maxDiagnostics).merge
        ((options.walkReports (scan text).tokens).take
          (options.maxDiagnostics - (options.lexicalReports text).length))
        fun first second => first.position.le second.position := by
  rw [diagnostics_eq_sort_take, Options.reports, List.take_append,
    Diagnostic.sortByPosition, StableSort.sort_append]
  · exact fun _ _ _ => Position.le_trans
  · exact (options.lexicalReports_ordered text).sublist (List.take_sublist _ _)
  · exact (options.walkReports_ordered text).sublist (List.take_sublist _ _)

theorem diagnostics_eq_merge {options : Options} {text : String}
    (unlimited : options.Unlimited text) :
    (analyzeSource options text).diagnostics =
      (options.lexicalReports text).merge
        (options.walkReports (scan text).tokens)
        fun first second => first.position.le second.position := by
  rw [diagnostics_eq_merge_take, List.take_of_length_le, List.take_of_length_le]
  all_goals
    unfold Options.Unlimited at unlimited
    omega

/-- The diagnostics of a text under a limit are the reports made first, lexical
errors before all others, in document order. They are the first of the
diagnostics without a limit exactly when no lexical error that is kept lies
behind a report of the walk that is lost; so they are, under every limit, when
the text has no lexical errors. -/
theorem limited_eq_take_iff (options : Options) (text : String) (ample : Nat)
    (unlimited : (options.withLimit ample).Unlimited text) :
    (analyzeSource options text).diagnostics =
      Diagnostic.sortByPosition
        ((options.reports text).take options.maxDiagnostics) ∧
    ((analyzeSource options text).diagnostics =
        (analyzeSource (options.withLimit ample) text).diagnostics.take
          options.maxDiagnostics ↔
      ∀ kept ∈ (options.lexicalReports text).take options.maxDiagnostics,
        ∀ lost ∈ (options.walkReports (scan text).tokens).drop
            (options.maxDiagnostics - (options.lexicalReports text).length),
          kept.position ≤ lost.position) ∧
    ((scan text).errors = [] →
      (analyzeSource options text).diagnostics =
        (analyzeSource (options.withLimit ample) text).diagnostics.take
          options.maxDiagnostics) := by
  have front_iff : (analyzeSource options text).diagnostics =
        (analyzeSource (options.withLimit ample) text).diagnostics.take
          options.maxDiagnostics ↔
      ∀ kept ∈ (options.lexicalReports text).take options.maxDiagnostics,
        ∀ lost ∈ (options.walkReports (scan text).tokens).drop
            (options.maxDiagnostics - (options.lexicalReports text).length),
          kept.position ≤ lost.position := by
    rw [diagnostics_eq_merge unlimited, diagnostics_eq_merge_take,
      Options.lexicalReports_withLimit, Options.walkReports_withLimit, eq_comm]
    apply StableSort.take_merge_iff
    · exact fun _ _ _ => Position.le_trans
    · exact fun _ _ => Position.le_total _ _
    · exact options.lexicalReports_ordered text
    · exact options.walkReports_ordered text
  refine ⟨diagnostics_eq_sort_take options text, front_iff, ?_⟩
  intro errorless
  apply front_iff.mpr
  intro kept member
  rw [Options.lexicalReports, errorless, List.map_nil, List.filterMap_nil,
    List.take_nil] at member
  cases member

def openStringFirst : String :=
  "\"abc\n;"

theorem limited_eq_take_iff_openStringFirst :
    (({ maxDiagnostics := 1 } : Options).withLimit 2).Unlimited
      openStringFirst ∧
    (({ maxDiagnostics := 1 } : Options).reports openStringFirst).length = 2 ∧
    (analyzeSource { maxDiagnostics := 1 } openStringFirst).diagnostics =
      (analyzeSource (({ maxDiagnostics := 1 } : Options).withLimit 2)
        openStringFirst).diagnostics.take 1 := by
  have unlimited :
      (({ maxDiagnostics := 1 } : Options).withLimit 2).Unlimited
        openStringFirst := by
    decide +kernel
  refine ⟨unlimited, by decide +kernel, ?_⟩
  apply (limited_eq_take_iff { maxDiagnostics := 1 } _ 2 unlimited).2.1.mpr
  decide +kernel

def openStringLast : String :=
  ";\n\"abc"

/-- The one diagnostic that is kept is the last in document order. -/
theorem limited_ne_take :
    (({ maxDiagnostics := 1 } : Options).withLimit 2).Unlimited openStringLast ∧
    (analyzeSource { maxDiagnostics := 1 } openStringLast).diagnostics ≠
      (analyzeSource (({ maxDiagnostics := 1 } : Options).withLimit 2)
        openStringLast).diagnostics.take 1 ∧
    (analyzeSource { maxDiagnostics := 1 } openStringLast).diagnostics.map
      Diagnostic.place = ["2:1"] ∧
    ((analyzeSource (({ maxDiagnostics := 1 } : Options).withLimit 2)
      openStringLast).diagnostics.take 1).map Diagnostic.place = ["1:1"] := by
  decide +kernel

end ComponentLang
