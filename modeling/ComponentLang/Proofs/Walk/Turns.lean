import ComponentLang.Proofs.Grammar.Turns
import ComponentLang.Proofs.Token.Moves
import ComponentLang.Proofs.Visitor.Documents
import ComponentLang.Proofs.Visitor.Progress
import ComponentLang.Proofs.Walk.Visits

namespace ComponentLang

open TokenCursor

namespace Walk

theorem keptBySteps_reaches : KeptBySteps (fun _ => True) fun before after =>
    before.cursor.Reaches after.cursor where
  refl := .here
  trans := .trans
  report _ := .here
  ended _ := .here
  next found := .next .here found
  rescue found := .rescue .here found
  strings := .strings .here
  classify := .reclassify .here
  register _ _ _ := .here
  scope := id

theorem reaches_run (fuel : Nat) (rule : Rule) (walk : Walk) :
    walk.cursor.Reaches (run fuel rule walk).2.cursor :=
  keptBySteps_reaches.run fuel rule walk (.inl fun _ => trivial)

theorem reaches_settle (walk : Walk) :
    walk.cursor.Reaches walk.settle.cursor := by
  rw [cursor_settle]
  exact .here

section Moved

variable {walk after : Walk} {fuel : Nat} {rule : Rule} {outcome : Outcome}

theorem forward_of_run (run_eq : run fuel rule walk = (outcome, after)) :
    Forward walk.cursor after.cursor := by
  have reaches := reaches_run fuel rule walk
  rw [run_eq] at reaches
  exact reaches.forward

theorem index_lt_of_takes (run_eq : run fuel rule walk = (.finished, after))
    (takes : rule.takes) : walk.cursor.index < after.cursor.index := by
  have fewer := (remaining_run fuel rule walk).2 takes
  rw [run_eq] at fewer
  exact (forward_of_run run_eq).index_lt_of_remaining_lt (fewer rfl)

theorem forward_of_define {kind : TokenKind} {modifiers : Modifiers}
    {name : Option String}
    (define_eq : walk.define kind modifiers = (outcome, name, after)) :
    Forward walk.cursor after.cursor :=
  (keptBySteps_reaches.defined define_eq (.inl trivial)).forward

theorem index_lt_of_define {kind : TokenKind} {modifiers : Modifiers}
    {name : Option String}
    (define_eq : walk.define kind modifiers = (.finished, name, after)) :
    walk.cursor.index < after.cursor.index := by
  exact (forward_of_define define_eq).index_lt_of_remaining_lt
    (remaining_lt_of_define define_eq)

end Moved

/-- What may be followed from the walk on before a token is taken: rules of a
rank up to `rank`, which resume nothing but further on. -/
def Begins (rank : Nat) (rule : Rule) (walk : Walk) : Prop :=
  (∃ lower ≤ rank, rule.isGuarded lower false) ∧
    ∃ absent, rule.resumesFurther absent ∧
      walk.cursor.peekIs absent = false

theorem peekIs_nil (cursor : TokenCursor) : cursor.peekIs [] = false := by
  simp [peekIs, Terminal.find?]

namespace Begins

variable {rank : Nat} {walk after : Walk} {front back : Rule}

theorem nonterminal {nonterminal : Nonterminal}
    (low : nonterminal.rank ≤ rank) : Begins rank nonterminal.rule walk :=
  ⟨⟨_, low, nonterminal.isGuarded_rule⟩, [], nonterminal.resumesFurther_rule,
    peekIs_nil _⟩

theorem first (begins : Begins rank (.seq front back) walk) :
    Begins rank front walk := by
  obtain ⟨⟨lower, le, guarded⟩, absent, further, missing⟩ := begins
  simp only [Rule.isGuarded, Rule.resumesFurther, Bool.and_eq_true] at *
  exact ⟨⟨lower, le, guarded.1⟩, absent, further.1, missing⟩

theorem next (begins : Begins rank (.seq front back) walk)
    (idle : ¬front.takes) : Begins rank back after := by
  obtain ⟨⟨lower, le, guarded⟩, absent, further, -⟩ := begins
  simp only [Rule.isGuarded, Rule.resumesFurther, Bool.and_eq_true,
    Bool.eq_false_iff.mpr idle, Bool.false_or] at guarded further
  exact ⟨⟨lower, le, guarded.2⟩, [], further.2, peekIs_nil _⟩

theorem missing {candidates : List Terminal} {found missing : Rule}
    (begins : Begins rank (.accept candidates found missing) walk)
    (absent : walk.cursor.take? candidates = none) :
    Begins rank missing walk := by
  obtain ⟨⟨lower, le, guarded⟩, _, further, -⟩ := begins
  rw [Rule.isGuarded, Bool.and_eq_true] at guarded
  refine ⟨⟨lower, le, guarded.2⟩, candidates, further, ?_⟩
  rw [peekIs_eq_isSome_take?, absent]
  rfl

theorem branch {test : Test} {holds fails : Rule}
    (begins : Begins rank (.branch test holds fails) walk) :
    Begins rank holds walk ∧ Begins rank fails walk := by
  obtain ⟨⟨lower, le, guarded⟩, absent, further, missing⟩ := begins
  simp only [Rule.isGuarded, Rule.resumesFurther, Bool.and_eq_true] at *
  exact ⟨⟨⟨lower, le, guarded.1⟩, absent, further.1, missing⟩,
    ⟨lower, le, guarded.2⟩, absent, further.2, missing⟩

section Recover

variable {resumption : Resumption} {inner onward again : Rule}

theorem body
    (begins : Begins rank (.recover resumption inner onward again) walk) :
    Begins rank inner walk := by
  obtain ⟨⟨lower, le, guarded⟩, absent, ahead, missing⟩ := begins
  simp only [Rule.isGuarded, Rule.resumesFurther, Bool.and_eq_true] at *
  exact ⟨⟨lower, le, guarded.1.1⟩, absent, ahead.1.2, missing⟩

theorem further
    (begins : Begins rank (.recover resumption inner onward again) walk)
    (idle : ¬inner.takes) : Begins rank onward after := by
  obtain ⟨⟨lower, le, guarded⟩, absent, ahead, -⟩ := begins
  simp only [Rule.isGuarded, Rule.resumesFurther, Bool.and_eq_true,
    Bool.eq_false_iff.mpr idle, Bool.false_or] at guarded ahead
  exact ⟨⟨lower, le, guarded.1.2⟩, [], ahead.2, peekIs_nil _⟩

theorem not_resumes
    (begins : Begins rank (.recover resumption inner onward again) walk)
    (same : after.cursor.behind = walk.cursor.behind) :
    ¬after.resumes resumption := by
  obtain ⟨-, absent, ahead, missing⟩ := begins
  simp only [Rule.resumesFurther, Bool.and_eq_true] at ahead
  cases resumption with
  | anywhere => cases ahead.1.1
  | before terminals =>
      have among : terminals ⊆ absent := by
        intro terminal member
        simpa using List.all_eq_true.mp ahead.1.1 terminal member
      intro here
      have there := peekIs_of_subset same among here
      exact Bool.false_ne_true (missing.symm.trans there)

end Recover

theorem not_statement {block : Block}
    (begins : Begins rank (.statement block) walk)
    (low : rank ≤ Rule.statementRank) : False := by
  obtain ⟨⟨lower, le, guarded⟩, -⟩ := begins
  have less : Rule.statementRank < lower := by
    simpa [Rule.isGuarded] using guarded
  omega

theorem rank_lt {nonterminal : Nonterminal}
    (begins : Begins rank (.call nonterminal) walk) :
    nonterminal.rank < rank := by
  obtain ⟨⟨lower, le, guarded⟩, -⟩ := begins
  have less : nonterminal.rank < lower := by
    simpa [Rule.isGuarded] using guarded
  omega

end Begins

end Walk

namespace Visit

open Walk

/-- A part of the visit is abandoned, and the visit goes on from the walk. -/
inductive ResumesAt : Visit → Walk → Prop where
  | intro {fuel line : Nat} {resumption : Resumption}
      {body further resumed : Rule} {walk after : Walk}
      (abandoned : run fuel body walk = (.abandoned line, after))
      (here : after.resumes resumption) :
      ResumesAt ⟨fuel + 1, .recover resumption body further resumed, walk⟩ after

/-- Where a visit stands that lies on the way of one from the origin on. -/
structure OnWay (rank : Nat) (origin : Walk) (visit : Visit) : Prop where
  forward : Forward origin.cursor visit.walk.cursor
  begins : visit.walk.cursor.index = origin.cursor.index →
    Begins rank visit.rule visit.walk

namespace OnWay

variable {rank fuel more : Nat} {origin walk after : Walk} {rule inner : Rule}
  {visit piece : Visit}

theorem goOn (way : OnWay rank origin ⟨fuel, rule, walk⟩)
    (forward : Forward walk.cursor after.cursor)
    (begins : after.cursor.index = walk.cursor.index →
      Begins rank rule walk → Begins rank inner after) :
    OnWay rank origin ⟨more, inner, after⟩ where
  forward := way.forward.trans forward
  begins same := by
    have before := way.forward.index_le
    have behind := forward.index_le
    simp only at before same
    exact begins (by omega) (way.begins (by simp only; omega))

theorem goFurther (way : OnWay rank origin ⟨fuel, rule, walk⟩)
    (forward : Forward walk.cursor after.cursor)
    (further : walk.cursor.index < after.cursor.index) :
    OnWay rank origin ⟨more, inner, after⟩ :=
  way.goOn forward fun same => absurd same (Nat.ne_of_gt further)

theorem stay (way : OnWay rank origin ⟨fuel, rule, walk⟩)
    (begins : Begins rank rule walk → Begins rank inner walk) :
    OnWay rank origin ⟨more, inner, walk⟩ :=
  way.goOn (.refl _) fun _ => begins

theorem resumed {resumption : Resumption} {body onward again : Rule}
    (way : OnWay rank origin
      ⟨fuel, .recover resumption body onward again, walk⟩)
    (forward : Forward walk.cursor after.cursor)
    (here : after.resumes resumption) :
    origin.cursor.index < after.cursor.index := by
  have whole := way.forward.trans forward
  refine Nat.lt_of_le_of_ne whole.index_le fun same => ?_
  have before := way.forward.index_le
  have behind := forward.index_le
  simp only at before
  have begins := way.begins (by simp only; omega)
  exact begins.not_resumes (forward.behind_eq_of_index_eq (by omega)) here

theorem part (way : OnWay rank origin visit) (low : rank ≤ 1)
    (member : piece ∈ visit.parts) : OnWay rank origin piece := by
  cases Part.of_mem member with
  | first => exact way.stay Begins.first
  | @next fuel front back walk after finished =>
      by_cases takes : front.takes
      · exact way.goFurther (forward_of_run finished)
          (index_lt_of_takes finished takes)
      · exact way.goOn (forward_of_run finished) fun _ begins =>
          begins.next takes
  | found taken =>
      obtain ⟨token, next_eq, -⟩ := next?_of_take? taken
      exact way.goFurther (forward_of_next? next_eq)
        (index_lt_of_next? next_eq)
  | missing absent => exact way.stay fun begins => begins.missing absent
  | holding here => exact way.stay fun begins => begins.branch.1
  | failing away => exact way.stay fun begins => begins.branch.2
  | opening defined opens =>
      have forward := forward_of_define defined
      have further := index_lt_of_define defined
      exact way.goFurther forward further
  | plain defined opens =>
      exact way.goFurther (forward_of_define defined)
        (index_lt_of_define defined)
  | signature defined taken =>
      obtain ⟨token, next_eq, -⟩ := next?_of_take? taken
      exact way.goFurther
        ((forward_of_define defined).trans (forward_of_next? next_eq))
        (Nat.lt_trans (index_lt_of_define defined) (index_lt_of_next? next_eq))
  | body => exact way.stay Begins.body
  | @further fuel resumption body further resumed walk after finished =>
      by_cases takes : body.takes
      · exact way.goFurther (forward_of_run finished)
          (index_lt_of_takes finished takes)
      · exact way.goOn (forward_of_run finished) fun _ begins =>
          begins.further takes
  | @resumed fuel line resumption body further resumed walk after abandoned
      here =>
      have forward := forward_of_run abandoned
      have further := way.resumed forward here
      exact ⟨way.forward.trans forward,
        fun same => absurd same (Nat.ne_of_gt further)⟩
  | statement begins =>
      exact way.stay fun begins =>
        (begins.not_statement (by rw [Rule.statementRank]; omega)).elim
  | call =>
      exact way.stay fun begins => .nonterminal (Nat.le_of_lt begins.rank_lt)

theorem within (way : OnWay rank origin visit) (low : rank ≤ 1)
    (inside : piece ∈ visit.within) : OnWay rank origin piece :=
  of_mem_within (fun _ way _ member => way.part low member) inside way

end OnWay

theorem onWay_rule (fuel : Nat) (nonterminal : Nonterminal) (walk : Walk) :
    OnWay nonterminal.rank walk ⟨fuel, nonterminal.rule, walk⟩ :=
  ⟨.refl _, fun _ => .nonterminal (Nat.le_refl _)⟩

variable {fuel : Nat} {nonterminal : Nonterminal} {walk after : Walk}
  {inner : Visit}

theorem index_lt_of_call
    (inside : inner ∈ within ⟨fuel, nonterminal.rule, walk⟩)
    (again : inner.rule = .call nonterminal) :
    walk.cursor.index < inner.walk.cursor.index := by
  have way := (onWay_rule fuel nonterminal walk).within
    nonterminal.rank_le_one inside
  refine Nat.lt_of_le_of_ne way.forward.index_le fun same => ?_
  have begins := way.begins same.symm
  rw [again] at begins
  exact Nat.lt_irrefl _ begins.rank_lt

theorem index_lt_of_resumesAt
    (inside : inner ∈ within ⟨fuel, nonterminal.rule, walk⟩)
    (resumes : inner.ResumesAt after) :
    walk.cursor.index < after.cursor.index := by
  have way := (onWay_rule fuel nonterminal walk).within
    nonterminal.rank_le_one inside
  cases resumes with
  | intro abandoned here => exact way.resumed (forward_of_run abandoned) here

end Visit

namespace Walk

theorem index_le_of_mem_statementStarts {steps fuel : Nat} {walk first : Walk}
    (member : first ∈ statementStarts steps fuel walk) :
    walk.cursor.index ≤ first.cursor.index :=
  (related_of_mem_statementStarts keptBySteps_reaches reaches_settle
    member).forward.index_le

/-- From one statement to the next, the walk gets further. -/
theorem statementStarts_increasing (steps fuel : Nat) (walk : Walk) :
    (statementStarts steps fuel walk).Pairwise fun first second =>
      first.cursor.index < second.cursor.index := by
  induction fuel generalizing walk with
  | zero => exact .nil
  | succ fuel induction =>
      have ran := (reaches_run steps (.statement .document) walk).forward
      rw [statementStarts]
      split
      · exact List.pairwise_singleton _ _
      · next outcome after _ run_eq =>
          rw [run_eq] at ran
          split
          · next token cursor next_eq =>
              refine .cons (fun later member => ?_) (induction _)
              have settled := (reaches_settle after).forward.index_le
              have taken := index_lt_of_next? next_eq
              have reached : cursor.index ≤ later.cursor.index :=
                index_le_of_mem_statementStarts member
              have started := ran.index_le
              simp only at started
              omega
          · exact List.pairwise_singleton _ _

theorem reaches_statements (stop : Walk → Bool) (steps fuel : Nat)
    (walk : Walk) :
    walk.cursor.Reaches (statements stop steps fuel walk).2.cursor := by
  fun_induction statements stop steps fuel walk with
  | case1 | case2 => exact .here
  | case3 fuel walk _ after run_eq =>
      have ran := reaches_run steps (.statement .document) walk
      rw [run_eq] at ran
      exact ran.trans (reaches_settle after)
  | case4 fuel walk _ outcome after _ run_eq token cursor next_eq induction =>
      have ran := reaches_run steps (.statement .document) walk
      rw [run_eq] at ran
      exact ((ran.trans (reaches_settle after)).next next_eq).trans induction
  | case5 fuel walk _ outcome after _ run_eq _ =>
      have ran := reaches_run steps (.statement .document) walk
      rw [run_eq] at ran
      exact ran.trans (reaches_settle after)

theorem reaches_document (stop : Walk → Bool) (tokens : List Token) :
    (ofList tokens).Reaches (document stop tokens).2.cursor := by
  unfold document
  split
  · exact .here
  · exact reaches_statements stop _ _ (start tokens)

theorem reaches_of_mem_visits {tokens : List Token} {visit : Visit}
    (member : visit ∈ visits tokens) :
    (ofList tokens).Reaches visit.walk.cursor :=
  related_of_mem_visits keptBySteps_reaches (fun _ _ _ => .here)
    reaches_settle member

/-- The cursor stands on one of the tokens, or at the place 0 of none. -/
structure StaysIn (tokens : List Token) (cursor : TokenCursor) : Prop where
  length_eq : cursor.toList.length = tokens.length
  current_eq : cursor.toList[cursor.index]? = cursor.current?
  index_lt : tokens ≠ [] → cursor.index < tokens.length
  index_eq_zero : tokens = [] → cursor.index = 0

theorem staysIn_of_reaches {tokens : List Token} {cursor : TokenCursor}
    (reaches : (ofList tokens).Reaches cursor) : StaysIn tokens cursor where
  length_eq := by
    rw [length_toList, reaches.forward.size_eq, ← length_toList,
      toList_ofList]
  current_eq := getElem?_index cursor
  index_lt := reaches.index_lt
  index_eq_zero none_there := by
    subst none_there
    exact reaches.index_eq_zero

end Walk

open Walk

/-- Where the walk ends by itself, so does a visitor, which may call as deep as
for any greater size. -/
theorem ofVisitor_statements_eq (options : Options) (sink : DiagnosticCollector)
    {tokens : List Token} (some_token : tokens ≠ []) {size turns : Nat}
    (fits : tokens.length ≤ size) (enough : tokens.length ≤ turns) :
    Analysis.ofVisitor (Visitor.statements (fun _ => false)
        (Visitor.depthFor size) turns (Visitor.start options sink tokens)).2 =
      Analysis.ofVisitor (Visitor.document (fun _ => false)
        (Visitor.start options sink tokens)).2 := by
  have within : (start tokens).remaining < size := by
    cases tokens with
    | nil => exact absurd rfl some_token
    | cons token rest => exact fits
  obtain ⟨-, longer⟩ := @Visitor.represents_statements options sink
    (fun _ => false) (fun _ => false) (fun _ _ _ => rfl) size turns _ _
    (Visitor.represents_start options sink tokens) within
  obtain ⟨-, whole⟩ := @Visitor.represents_document options sink
    (fun _ => false) (fun _ => false) (fun _ _ _ => rfl) tokens
  rw [← document_eq_statements some_token fits enough] at longer
  rw [longer.ofVisitor_eq, whole.ofVisitor_eq, longer.sink_eq, whole.sink_eq]

/-- Whatever the tokens and the options are, the walk over them ends by itself
and goes forward only. -/
theorem walk_progresses (tokens : List Token) :
    -- Steps and turns never run out: with more of them nothing changes.
    (∀ visit ∈ visits tokens, visit.result.1 ≠ .exhausted ∧
      ∀ more ≥ visit.fuel, run more visit.rule visit.walk = visit.result) ∧
    (tokens ≠ [] → ∀ stop, ∀ size ≥ tokens.length, ∀ fuel ≥ tokens.length,
      document stop tokens =
        statements stop (allowance size) fuel (start tokens)) ∧
    -- Nor do they for a visitor, under all options.
    (tokens ≠ [] → ∀ options sink, ∀ size ≥ tokens.length,
      ∀ turns ≥ tokens.length,
        Analysis.ofVisitor (Visitor.statements (fun _ => false)
            (Visitor.depthFor size) turns
            (Visitor.start options sink tokens)).2 =
          Analysis.ofVisitor (Visitor.document (fun _ => false)
            (Visitor.start options sink tokens)).2) ∧
    -- Wherever the walk stands, moves to or looks, there is a token.
    (∀ visit ∈ visits tokens, ∀ cursor, visit.walk.cursor.Reaches cursor →
      StaysIn tokens cursor) ∧
    (∀ stop, StaysIn tokens (document stop tokens).2.cursor) ∧
    (∀ options sink stop, StaysIn tokens
      (Visitor.document stop (Visitor.start options sink tokens)).2.cursor) ∧
    -- No rule leaves the cursor before where it started.
    (∀ visit ∈ visits tokens,
      visit.walk.cursor.Reaches visit.result.2.cursor ∧
        visit.walk.cursor.index ≤ visit.result.2.cursor.index) ∧
    -- Nor does a production, whatever it goes back to on its way.
    (∀ procedure : Procedure, ∀ depth locals visitor,
      let after := (Visitor.follow (Visitor.run depth) procedure locals
        visitor).2.2
      visitor.cursor.Reaches after.cursor ∧
        visitor.cursor.index ≤ after.cursor.index) ∧
    -- A repetition that is entered again, or goes on from where one of its
    -- parts was abandoned, stands further on.
    (∀ visit ∈ visits tokens, ∀ nonterminal, visit.rule = .call nonterminal →
      ∀ part ∈ visit.parts, ∀ inner ∈ part.within,
        (inner.rule = .call nonterminal →
          visit.walk.cursor.index < inner.walk.cursor.index) ∧
        ∀ after, inner.ResumesAt after →
          visit.walk.cursor.index < after.cursor.index) ∧
    -- So does the document's next statement.
    ((statementVisits tokens).Pairwise fun first second =>
      first.walk.cursor.index < second.walk.cursor.index) := by
  refine ⟨?finished, ?turns, ?visitor, ?looks, ?stands, ?visited, ?onward,
    ?production, ?repeated, ?statements⟩
  case finished =>
    intro visit member
    have unexhausted := unexhausted_of_mem_visits member
    exact ⟨unexhausted, fun more le => run_of_le rfl unexhausted le⟩
  case turns =>
    intro some_token stop size fits fuel enough
    exact document_eq_statements some_token fits enough
  case visitor =>
    intro some_token options sink size fits turns enough
    exact ofVisitor_statements_eq options sink some_token fits enough
  case looks =>
    intro visit member cursor reaches
    exact staysIn_of_reaches ((reaches_of_mem_visits member).trans reaches)
  case stands => exact fun stop => staysIn_of_reaches (reaches_document stop tokens)
  case visited =>
    intro options sink stop
    exact staysIn_of_reaches
      (Visitor.reaches_document stop (.start options sink tokens))
  case onward =>
    intro visit member
    have reaches := reaches_run visit.fuel visit.rule visit.walk
    exact ⟨reaches, reaches.forward.index_le⟩
  case production =>
    intro procedure depth locals visitor
    have reaches := Visitor.reaches_follow (Visitor.reaches_run depth) procedure
      locals visitor
    exact ⟨reaches, reaches.forward.index_le⟩
  case repeated =>
    intro visit member nonterminal called part here inner inside
    obtain ⟨fuel, rule, walk⟩ := visit
    cases called
    cases Visit.Part.of_mem here with
    | call =>
        exact ⟨Visit.index_lt_of_call inside,
          fun after => Visit.index_lt_of_resumesAt inside⟩
  case statements =>
    unfold statementVisits
    split
    · exact .nil
    · exact List.pairwise_map.mpr (statementStarts_increasing _ _ _)

/-- An enumeration whose last constant breaks off in front of the brace. -/
def brokenConstant : List Token :=
  [⟨0, 0, "enum", .keyword, {}⟩, ⟨0, 5, "E", .nil, {}⟩,
    ⟨0, 7, "\x7b", .operator, {}⟩, ⟨0, 9, "a", .nil, {}⟩, ⟨0, 11, "b", .nil, {}⟩,
    ⟨0, 13, "=", .operator, {}⟩, ⟨0, 15, "\x7d", .operator, {}⟩]

theorem walk_progresses_brokenConstant :
    ∃ visit ∈ visits brokenConstant, ∃ part ∈ visit.parts,
      ∃ inner ∈ part.within, visit.rule = .call .enumConstants ∧
        inner.rule = .call .enumConstants ∧
        visit.walk.cursor.index < inner.walk.cursor.index := by
  have turns : ∃ visit ∈ visits brokenConstant, ∃ part ∈ visit.parts,
      ∃ inner ∈ part.within, visit.rule = .call .enumConstants ∧
        inner.rule = .call .enumConstants := by
    decide +kernel
  obtain ⟨visit, member, part, here, inner, inside, called, again⟩ := turns
  obtain ⟨-, -, -, -, -, -, -, -, further, -⟩ := walk_progresses brokenConstant
  exact ⟨visit, member, part, here, inner, inside, called, again,
    (further visit member _ called part here inner inside).1 again⟩

end ComponentLang
