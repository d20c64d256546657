import ComponentLang.Proofs.Walk.Inside
import ComponentLang.Proofs.Walk.Visits

namespace ComponentLang

open Nesting

def Outcome.isAbandoned : Outcome → Bool
  | .abandoned _ => true
  | _ => false

namespace Visit

open Walk

/-- Whether the visit itself takes an opening brace that it does not ask for,
jumps over a brace without its partner, or abandons an element of a braced list
where the list cannot go on. -/
def strays (visit : Visit) : Bool :=
  match visit.rule with
  | .need _ | .advance | .define _ _ _ | .signature _ _ =>
      visit.walk.meetsOpening
  | .expect candidates =>
      (visit.walk.meetsOpening && !candidates.contains Operator.leftBrace) ||
        !isNested (visit.walk.jumped candidates)
  | .recover (.before closers) element _ _ =>
      let (outcome, after) := run (visit.fuel - 1) element visit.walk
      closers.contains Operator.rightBrace && outcome.isAbandoned &&
        !after.resumes (.before closers)
  | _ => false

/-- Nothing within the visit strays. -/
def Orderly (visit : Visit) : Prop :=
  ∀ inner ∈ visit.within, inner.strays = false

instance (visit : Visit) : Decidable visit.Orderly :=
  inferInstanceAs (Decidable (∀ inner ∈ visit.within, inner.strays = false))

theorem Orderly.self {visit : Visit} (orderly : visit.Orderly) :
    visit.strays = false :=
  orderly visit visit.self_mem_within

theorem Orderly.part {visit part : Visit} (orderly : visit.Orderly)
    (way : Part visit part) : part.Orderly :=
  fun inner inside => orderly inner (within_of_mem_parts way.mem inside)

/-- An element that is abandoned is so where its list can go on. -/
theorem Orderly.resumes {fuel line : Nat} {closers : List Terminal}
    {element next resumed : Rule} {walk after : Walk}
    (orderly : Orderly
      ⟨fuel + 1, .recover (.before closers) element next resumed, walk⟩)
    (braced : closers.contains Operator.rightBrace)
    (abandoned : run fuel element walk = (.abandoned line, after)) :
    after.resumes (.before closers) := by
  have strays := orderly.self
  simpa only [Visit.strays, Nat.add_sub_cancel, abandoned, braced,
    Outcome.isAbandoned, Bool.true_and, Bool.not_eq_false'] using strays

end Visit

namespace Walk

structure Closes (close : Token) (back : List Token) (step : Outcome × Walk) :
    Prop where
  outcome : step.1 = .finished ∨ step.1 = .exhausted
  ahead : step.1 = .finished → step.2.cursor.ahead = close :: back

def StaysInside (fuel : Nat) : Prop :=
  ∀ (rule : Rule) (walk : Walk) (close : Token) (back : List Token),
    rule.pairsBraces → Inside close back walk →
    Visit.Orderly ⟨fuel, rule, walk⟩ → Stays close back (run fuel rule walk)

def EndsBodies (fuel : Nat) : Prop :=
  ∀ (body : Nonterminal) (walk : Walk) (close : Token) (back : List Token),
    body.isBraced → Inside close back walk →
    Visit.Orderly ⟨fuel, .call body, walk⟩ →
    Closes close back (run fuel (.call body) walk)

theorem Opened.stays {close : Token} {back : List Token} {walk : Walk}
    (opened : Opened close back walk) {fuel : Nat} (ends : EndsBodies fuel)
    {body : Nonterminal} (braced : body.isBraced)
    (orderly : Visit.Orderly ⟨fuel, .call body, walk⟩) :
    Stays close back (run fuel (.call body) walk) := by
  obtain ⟨partner, rest, inner, outer⟩ := opened
  obtain ⟨outcome, ahead⟩ := ends body walk partner rest braced inner orderly
  rcases outcome with finished | exhausted
  · refine ⟨by rw [finished]; nofun, fun _ => ?_⟩
    exact outer _ (ahead finished)
  · refine ⟨by rw [exhausted]; nofun, fun unexhausted => ?_⟩
    exact absurd exhausted unexhausted

theorem stays_seq {close : Token} {back : List Token} {fuel : Nat}
    {first next : Rule} {walk : Walk}
    (front : Stays close back (run fuel first walk))
    (rest : ∀ after, run fuel first walk = (.finished, after) →
      Inside close back after → Stays close back (run fuel next after)) :
    Stays close back (run (fuel + 1) (.seq first next) walk) := by
  rw [run]
  cases run_eq : run fuel first walk with
  | mk outcome after =>
      rw [run_eq] at front
      cases outcome with
      | finished => exact rest after run_eq (front.inside (by simp))
      | _ => exact front

theorem stays_recover {close : Token} {back : List Token} {fuel : Nat}
    {resumption : Resumption} {body next resumed : Rule} {walk : Walk}
    (front : Stays close back (run fuel body walk))
    (rest : ∀ after, run fuel body walk = (.finished, after) →
      Inside close back after → Stays close back (run fuel next after))
    (resumes : ∀ line after, run fuel body walk = (.abandoned line, after) →
      after.resumes resumption → Inside close back after →
      Stays close back (run fuel resumed after)) :
    Stays close back
      (run (fuel + 1) (.recover resumption body next resumed) walk) := by
  rw [run]
  cases run_eq : run fuel body walk with
  | mk outcome after =>
      rw [run_eq] at front
      cases outcome with
      | finished => exact rest after run_eq (front.inside (by simp))
      | abandoned line =>
          dsimp only
          split
          · next here =>
              exact resumes line after run_eq here (front.inside (by simp))
          · exact front
      | _ => exact front

theorem stays_define {close : Token} {back : List Token} {fuel : Nat}
    {kind : TokenKind} {modifiers : Modifiers} {body : Rule} {walk : Walk}
    (named : Stays close back
      ((walk.define kind modifiers).1, (walk.define kind modifiers).2.2))
    (inner : ∀ after : Walk,
      Visit.Part ⟨fuel + 1, .define kind modifiers body, walk⟩
        ⟨fuel, body, after⟩ →
      Inside close back after → Stays close back (run fuel body after)) :
    Stays close back (run (fuel + 1) (.define kind modifiers body) walk) := by
  rw [run]
  cases define_eq : walk.define kind modifiers with
  | mk outcome rest =>
      obtain ⟨name, after⟩ := rest
      rw [define_eq] at named
      cases outcome with
      | finished =>
          simp only at named ⊢
          cases scope_eq : openedScope kind name with
          | none =>
              exact inner _ (.plain define_eq scope_eq) (named.inside (by simp))
          | some name =>
              have body_stays := inner _ (.opening define_eq scope_eq)
                ((named.inside (by simp)).of_behind rfl)
              exact ⟨body_stays.unended,
                fun unexhausted => (body_stays.inside unexhausted).of_behind rfl⟩
      | abandoned line => exact named
      | ended => exact named
      | exhausted => exact named

theorem stays_signature {close : Token} {back : List Token} {fuel : Nat}
    {kind : TokenKind} {modifiers : Modifiers} {walk : Walk}
    (named : Stays close back
      ((walk.define kind modifiers).1, (walk.define kind modifiers).2.2))
    (inner : ∀ after : Walk,
      Visit.Part ⟨fuel + 1, .signature kind modifiers, walk⟩
        ⟨fuel, .call .parameters, after⟩ →
      Inside close back after →
      Stays close back (run fuel (.call .parameters) after)) :
    Stays close back (run (fuel + 1) (.signature kind modifiers) walk) := by
  rw [run]
  cases define_eq : walk.define kind modifiers with
  | mk outcome rest =>
      obtain ⟨name, after⟩ := rest
      rw [define_eq] at named
      cases outcome with
      | finished =>
          simp only at named ⊢
          have inside := named.inside (by simp)
          cases take_eq : after.cursor.take? [Operator.leftParen] with
          | none => exact inside.stays (by simp)
          | some found =>
              obtain ⟨terminal, cursor⟩ := found
              have list := inner _ (.signature define_eq take_eq)
                ((inside.take rfl take_eq).of_behind rfl)
              exact ⟨list.unended,
                fun unexhausted => (list.inside unexhausted).of_behind rfl⟩
      | abandoned line => exact named
      | ended => exact named
      | exhausted => exact named

theorem stays_requiredBody {fuel : Nat}
    (stays : ∀ smaller ≤ fuel, StaysInside smaller)
    (ends : ∀ smaller ≤ fuel, EndsBodies smaller) {body : Nonterminal}
    (braced : body.isBraced) {walk : Walk} {close : Token} {back : List Token}
    (inside : Inside close back walk)
    (orderly : Visit.Orderly ⟨fuel + 1, .seq (.expect [Operator.leftBrace])
      (.branch (.spelled Operator.leftBrace) (.call body) .done), walk⟩) :
    Stays close back (run (fuel + 1) (.seq (.expect [Operator.leftBrace])
      (.branch (.spelled Operator.leftBrace) (.call body) .done)) walk) := by
  have expecting := (orderly.part .first).self
  rw [Visit.strays] at expecting
  simp only [Bool.or_eq_false_iff, Bool.not_eq_false'] at expecting
  rw [run]
  cases fuel with
  | zero => exact ⟨by simp [run], fun unexhausted => absurd rfl unexhausted⟩
  | succ fuel =>
      have opening := inside.expectOpening expecting.2
      rw [run]
      cases expect_eq : walk.expect [Operator.leftBrace] with
      | mk outcome after =>
          rw [expect_eq] at opening
          cases opening with
          | abandoned line after inside => exact inside.stays (by simp)
          | taken token after there operator wanted arrived =>
              have branching := orderly.part (.next expect_eq)
              simp only
              rw [run]
              have holds_eq : after.holds (.spelled Operator.leftBrace) =
                  (token.text == Operator.leftBrace.spelling) := by
                rw [holds, TokenCursor.holds, there]
                rfl
              by_cases spelled : token.text = Operator.leftBrace.spelling
              · have here : after.holds (.spelled Operator.leftBrace) := by
                  rw [holds_eq]
                  exact beq_iff_eq.mpr spelled
                rw [if_pos here]
                exact (arrived.opened operator spelled).stays
                  (ends fuel (Nat.le_succ _)) braced
                  (branching.part (.holding here))
              · have away : ¬after.holds (.spelled Operator.leftBrace) := by
                  rw [holds_eq, beq_iff_eq]
                  exact spelled
                rw [if_neg away]
                cases arrived with
                | plain unbraced moved =>
                    exact stays fuel (Nat.le_succ _) .done after close back rfl
                      moved (branching.part (.failing away))
                | opening opens =>
                    exact absurd (Token.text_of_brace? opens) spelled

theorem stays_foundBody {fuel : Nat}
    (stays : ∀ smaller ≤ fuel, StaysInside smaller)
    (ends : ∀ smaller ≤ fuel, EndsBodies smaller) {body : Nonterminal}
    (braced : body.isBraced) {walk : Walk} {close : Token} {back : List Token}
    (inside : Inside close back walk)
    (orderly : Visit.Orderly
      ⟨fuel + 1, .accept [Operator.leftBrace] (.call body) .done, walk⟩) :
    Stays close back
      (run (fuel + 1) (.accept [Operator.leftBrace] (.call body) .done)
        walk) := by
  rw [run]
  cases take_eq : walk.cursor.take? [Operator.leftBrace] with
  | some found =>
      obtain ⟨terminal, cursor⟩ := found
      exact (inside.takeOpening take_eq).stays (ends fuel (Nat.le_refl _))
        braced (orderly.part (.found take_eq))
  | none =>
      exact stays fuel (Nat.le_refl _) .done walk close back rfl inside
        (orderly.part (.missing take_eq))

/-- One step more: a rule that pairs its braces does not leave the body. -/
theorem staysInside_succ {fuel : Nat}
    (stays : ∀ smaller ≤ fuel, StaysInside smaller)
    (ends : ∀ smaller ≤ fuel, EndsBodies smaller) : StaysInside (fuel + 1) := by
  intro rule walk close back tidy inside orderly
  have strays := orderly.self
  fun_cases Rule.pairsBraces rule with
  | case1 body => exact stays_requiredBody stays ends tidy inside orderly
  | case2 body => exact stays_foundBody stays ends tidy inside orderly
  | case3 first next other =>
      rw [Rule.pairsBraces.eq_3 _ _ other, Bool.and_eq_true] at tidy
      apply stays_seq
      · exact stays fuel (Nat.le_refl _) first walk close back tidy.1
          inside (orderly.part .first)
      · intro after run_eq reached
        exact stays fuel (Nat.le_refl _) next after close back tidy.2 reached
          (orderly.part (.next run_eq))
  | case4 expected => exact inside.need expected tidy strays
  | case5 candidates =>
      simp only [Visit.strays, Bool.or_eq_false_iff, Bool.and_eq_false_iff,
        Bool.not_eq_false'] at strays
      refine inside.expect tidy (strays.1.resolve_right ?_) strays.2
      intro listed
      have unbraced := List.all_eq_true.mp tidy _ (List.contains_iff_mem.mp listed)
      contradiction
  | case6 candidates found missing other =>
      rw [Rule.pairsBraces.eq_6 _ _ _ other, Bool.and_eq_true,
        Bool.and_eq_true] at tidy
      obtain ⟨⟨braceless, found_tidy⟩, missing_tidy⟩ := tidy
      rw [run]
      cases take_eq : walk.cursor.take? candidates with
      | some taken =>
          obtain ⟨terminal, cursor⟩ := taken
          exact stays fuel (Nat.le_refl _) found _ close back found_tidy
            (inside.take braceless take_eq) (orderly.part (.found take_eq))
      | none =>
          exact stays fuel (Nat.le_refl _) missing walk close back missing_tidy
            inside (orderly.part (.missing take_eq))
  | case7 test holds fails =>
      rw [Rule.pairsBraces, Bool.and_eq_true] at tidy
      rw [run]
      split
      · next true_here =>
          exact stays fuel (Nat.le_refl _) holds walk close back tidy.1 inside
            (orderly.part (.holding true_here))
      · next false_here =>
          exact stays fuel (Nat.le_refl _) fails walk close back tidy.2 inside
            (orderly.part (.failing false_here))
  | case8 kind modifiers body =>
      apply stays_define (inside.define strays kind modifiers)
      intro after way reached
      exact stays fuel (Nat.le_refl _) body after close back tidy reached
        (orderly.part way)
  | case9 resumption body next resumed =>
      rw [Rule.pairsBraces, Bool.and_eq_true, Bool.and_eq_true] at tidy
      obtain ⟨⟨body_tidy, next_tidy⟩, resumed_tidy⟩ := tidy
      apply stays_recover
      · exact stays fuel (Nat.le_refl _) body walk close back body_tidy inside
          (orderly.part .body)
      · intro after run_eq reached
        exact stays fuel (Nat.le_refl _) next after close back next_tidy reached
          (orderly.part (.further run_eq))
      · intro line after run_eq here reached
        exact stays fuel (Nat.le_refl _) resumed after close back resumed_tidy
          reached (orderly.part (.resumed run_eq here))
  | case10 nonterminal =>
      rw [Rule.pairsBraces, Bool.not_eq_true'] at tidy
      rw [run]
      exact stays fuel (Nat.le_refl _) _ walk close back
        (nonterminal.pairsBraces_rule tidy) inside
        (orderly.part .call)
  | case11 => exact inside.stays (by simp)
  | case12 complaint =>
      exact Inside.stays (inside.of_behind (behind_complain walk complaint))
        (by simp)
  | case13 => exact Inside.stays inside.strings (by simp)
  | case14 =>
      exact Inside.stays (inside.of_behind (behind_resolve walk)) (by simp)
  | case15 kind modifiers =>
      apply stays_signature (inside.define strays kind modifiers)
      intro after way reached
      exact stays fuel (Nat.le_refl _) (.call .parameters) after close back rfl
        reached (orderly.part way)
  | case16 block => cases tidy
  | case17 => cases tidy

theorem Inside.takeClosing {close : Token} {back : List Token} {walk : Walk}
    (inside : Inside close back walk) :
    (∃ terminal cursor,
      walk.cursor.take? [Operator.rightBrace] = some (terminal, cursor) ∧
      cursor.ahead = close :: back) ∨
    (walk.cursor.take? [Operator.rightBrace] = none ∧
      ∃ token cursor, walk.cursor.next? = some (token, cursor) ∧
        Arrived close back token (walk.moveTo cursor)) := by
  obtain ⟨token, cursor, next_eq, operator, reached⟩ := inside.next
  have take_eq : walk.cursor.take? [Operator.rightBrace] =
      (Terminal.find? [Operator.rightBrace] token.text).map
        fun found => (found, cursor) := by
    rw [TokenCursor.take?, next_eq]
  rw [take_eq]
  rcases reached with ⟨rfl, ahead⟩ | arrived
  · left
    rw [Token.text_of_brace? inside.closes]
    exact ⟨_, cursor, rfl, ahead⟩
  · right
    refine ⟨?_, token, cursor, next_eq, arrived⟩
    rw [Option.map_eq_none_iff]
    cases find_eq : Terminal.find? [Operator.rightBrace] token.text with
    | none => rfl
    | some terminal =>
        have spelled := Terminal.spelling_of_find?_eq_some find_eq
        rw [List.mem_singleton.mp (List.mem_of_find?_eq_some find_eq)] at spelled
        rw [← spelled] at operator
        cases arrived with
        | plain unbraced =>
            rw [unbraced] at operator
            nomatch operator
        | opening opens =>
            rw [opens] at operator
            nomatch operator

theorem closes_exhausted {close : Token} {back : List Token}
    {step : Outcome × Walk} (exhausted : step.1 = .exhausted) :
    Closes close back step := by
  refine ⟨.inr exhausted, fun finished => ?_⟩
  rw [exhausted] at finished
  cases finished

theorem closes_done {close : Token} {back : List Token} {walk : Walk}
    (ahead : walk.cursor.ahead = close :: back) (fuel : Nat) :
    Closes close back (run fuel .done walk) := by
  cases fuel with
  | zero => exact closes_exhausted rfl
  | succ fuel => exact ⟨.inl rfl, fun _ => ahead⟩

theorem closes_accept {close : Token} {back : List Token} {walk : Walk}
    (inside : Inside close back walk) (fuel : Nat) {rest : Rule}
    (continues : ∀ smaller, fuel = smaller + 1 →
      walk.cursor.take? [Operator.rightBrace] = none →
      ∀ token cursor, walk.cursor.next? = some (token, cursor) →
        Arrived close back token (walk.moveTo cursor) →
        Closes close back (run smaller rest walk)) :
    Closes close back
      (run fuel (.accept [Operator.rightBrace] .done rest) walk) := by
  cases fuel with
  | zero => exact closes_exhausted rfl
  | succ fuel =>
      rw [run]
      rcases inside.takeClosing with ⟨terminal, cursor, take_eq, ahead⟩ |
        ⟨take_eq, token, cursor, next_eq, arrived⟩
      · rw [take_eq]
        exact closes_done ahead fuel
      · rw [take_eq]
        exact continues fuel rfl take_eq token cursor next_eq arrived

theorem closes_seq {close : Token} {back : List Token} {fuel : Nat}
    {first next : Rule} {walk : Walk}
    (front : Stays close back (run fuel first walk))
    (passes : ∀ line, (run fuel first walk).1 ≠ .abandoned line)
    (rest : ∀ after, run fuel first walk = (.finished, after) →
      Inside close back after → Closes close back (run fuel next after)) :
    Closes close back (run (fuel + 1) (.seq first next) walk) := by
  rw [run]
  cases run_eq : run fuel first walk with
  | mk outcome after =>
      rw [run_eq] at front passes
      cases outcome with
      | finished => exact rest after run_eq (front.inside (by simp))
      | abandoned line => exact absurd rfl (passes line)
      | ended => exact absurd rfl front.unended
      | exhausted => exact closes_exhausted rfl

theorem closes_recover {close : Token} {back : List Token} {fuel : Nat}
    {resumption : Resumption} {body next resumed : Rule} {walk : Walk}
    (front : Stays close back (run fuel body walk))
    (resumable : ∀ line after, run fuel body walk = (.abandoned line, after) →
      after.resumes resumption)
    (rest : ∀ after, run fuel body walk = (.finished, after) →
      Inside close back after → Closes close back (run fuel next after))
    (resumes : ∀ line after, run fuel body walk = (.abandoned line, after) →
      Inside close back after → Closes close back (run fuel resumed after)) :
    Closes close back
      (run (fuel + 1) (.recover resumption body next resumed) walk) := by
  rw [run]
  cases run_eq : run fuel body walk with
  | mk outcome after =>
      rw [run_eq] at front
      cases outcome with
      | finished => exact rest after run_eq (front.inside (by simp))
      | abandoned line =>
          dsimp only
          rw [if_pos (resumable line after run_eq)]
          exact resumes line after run_eq (front.inside (by simp))
      | ended => exact absurd rfl front.unended
      | exhausted => exact closes_exhausted rfl

theorem closes_list {fuel : Nat}
    (stays : ∀ smaller ≤ fuel, StaysInside smaller)
    (ends : ∀ smaller ≤ fuel, EndsBodies smaller) {body : Nonterminal}
    {element : Rule} (braced : body.isBraced) (tidy : element.pairsBraces)
    (rule_eq : body.rule = .listOf Operator.rightBrace element (.call body))
    {walk : Walk} {close : Token} {back : List Token}
    (inside : Inside close back walk)
    (orderly : Visit.Orderly ⟨fuel + 1, .call body, walk⟩) :
    Closes close back (run (fuel + 1) (.call body) walk) := by
  have ruled := orderly.part .call
  rw [run]
  rw [rule_eq] at ruled ⊢
  apply closes_accept inside
  intro smaller fuel_eq take_eq _ _ _ _
  subst fuel_eq
  have recovering := ruled.part (.missing take_eq)
  cases smaller with
  | zero => exact closes_exhausted rfl
  | succ fuel =>
      have resumable := fun line after =>
        @recovering.resumes _ line _ _ _ _ _ after rfl
      apply closes_recover _ resumable
      · intro after run_eq reached
        have going := recovering.part (.further run_eq)
        cases fuel with
        | zero => exact closes_exhausted rfl
        | succ fuel =>
            rw [run]
            cases comma_eq : after.cursor.take? [Operator.comma] with
            | none =>
                exact ends fuel (by omega) body after close back braced reached
                  (going.part (.missing comma_eq))
            | some found =>
                obtain ⟨terminal, cursor⟩ := found
                exact ends fuel (by omega) body _ close back braced
                  (reached.take rfl comma_eq)
                  (going.part (.found comma_eq))
      · intro line after run_eq reached
        have here := resumable line after run_eq
        apply closes_accept reached
        intro _ _ missing
        change after.cursor.peekIs [Operator.rightBrace] at here
        rw [TokenCursor.peekIs_eq_isSome_take?, missing] at here
        cases here
      · exact stays fuel (by omega) element walk close back tidy inside
          (recovering.part .body)

/-- A token that is taken in a body, when it is no closing brace and no opening
brace that is out of place, leaves the walk inside. -/
theorem stays_advance {close : Token} {back : List Token} {walk : Walk}
    {token : Token} {cursor : TokenCursor}
    (next_eq : walk.cursor.next? = some (token, cursor))
    (arrived : Arrived close back token (walk.moveTo cursor)) {fuel : Nat}
    (orderly : Visit.Orderly ⟨fuel, .advance, walk⟩) :
    Stays close back (run fuel .advance walk) := by
  cases fuel with
  | zero => exact ⟨by simp [run], fun unexhausted => absurd rfl unexhausted⟩
  | succ fuel =>
      rw [run, Walk.advance, next_eq]
      cases arrived with
      | plain unbraced moved => exact moved.stays (by simp)
      | opening opens =>
          have unmet : walk.meetsOpening = false := orderly.self
          rw [meetsOpening_of_next? next_eq opens] at unmet
          contradiction

theorem stays_statement {fuel : Nat}
    (stays : ∀ smaller ≤ fuel, StaysInside smaller) {block : Block}
    {walk : Walk} {close : Token} {back : List Token}
    (inside : Inside close back walk)
    (orderly : Visit.Orderly ⟨fuel, .statement block, walk⟩) :
    Stays close back (run fuel (.statement block) walk) := by
  cases fuel with
  | zero => exact ⟨by simp [run], fun unexhausted => absurd rfl unexhausted⟩
  | succ fuel =>
      rw [run]
      cases begins : walk.beginning block with
      | nothing => exact inside.stays (by simp)
      | statement statement =>
          exact stays fuel (Nat.le_succ _) statement.rule walk close back
            statement.pairsBraces_rule inside (orderly.part (.statement begins))
      | unexpected =>
          exact Inside.stays (inside.of_behind (behind_complain walk _)) (by simp)

theorem run_advance_ne_abandoned (fuel : Nat) (walk : Walk) (line : Nat) :
    (run fuel .advance walk).1 ≠ .abandoned line := by
  cases fuel with
  | zero => simp [run]
  | succ fuel =>
      rw [run, Walk.advance]
      split <;> simp

theorem run_complain_ne_abandoned (fuel : Nat) (test : Test)
    (complaint : Complaint) (walk : Walk) (line : Nat) :
    (run fuel (.branch test .done (.complain complaint)) walk).1 ≠
      .abandoned line := by
  match fuel with
  | 0 | 1 => simp [run]
  | fuel + 2 =>
      rw [run]
      split <;> simp [run]

theorem closes_members {fuel : Nat}
    (stays : ∀ smaller ≤ fuel, StaysInside smaller)
    (ends : ∀ smaller ≤ fuel, EndsBodies smaller) (block : Block)
    {walk : Walk} {close : Token} {back : List Token}
    (inside : Inside close back walk)
    (orderly : Visit.Orderly ⟨fuel + 1, .call (.members block), walk⟩) :
    Closes close back (run (fuel + 1) (.call (.members block)) walk) := by
  have ruled := orderly.part .call
  rw [run]
  apply closes_accept inside
  intro smaller fuel_eq take_eq token cursor next_eq arrived
  subst fuel_eq
  have going := ruled.part (.missing take_eq)
  cases smaller with
  | zero => exact closes_exhausted rfl
  | succ fuel =>
      apply closes_seq _ (run_advance_ne_abandoned fuel walk)
      · intro after run_eq reached
        have recovering := going.part (.next run_eq)
        cases fuel with
        | zero => exact closes_exhausted rfl
        | succ fuel =>
            apply closes_recover _ fun _ _ _ => rfl
            · intro later run_eq there
              exact ends fuel (by omega) (.members block) later close back rfl
                there (recovering.part (.further run_eq))
            · intro line later run_eq there
              exact ends fuel (by omega) (.members block) later close back rfl
                there (recovering.part (.resumed run_eq rfl))
            · exact stays_statement (fun smaller le => stays smaller (by omega))
                reached (recovering.part .body)
      · exact stays_advance next_eq arrived (going.part .first)

theorem closes_phases {fuel : Nat}
    (stays : ∀ smaller ≤ fuel, StaysInside smaller)
    (ends : ∀ smaller ≤ fuel, EndsBodies smaller) {walk : Walk}
    {close : Token} {back : List Token} (inside : Inside close back walk)
    (orderly : Visit.Orderly ⟨fuel + 1, .call .phases, walk⟩) :
    Closes close back (run (fuel + 1) (.call .phases) walk) := by
  have again {smaller : Nat} (le : smaller ≤ fuel) {after : Walk}
      (reached : Inside close back after)
      (part : Visit.Orderly ⟨smaller, .call .phases, after⟩) :
      Closes close back (run smaller (.call .phases) after) :=
    ends smaller le .phases after close back rfl reached part
  have ruled := orderly.part .call
  rw [run]
  apply closes_accept inside
  intro smaller fuel_eq take_eq token cursor next_eq arrived
  subst fuel_eq
  have going := ruled.part (.missing take_eq)
  cases smaller with
  | zero => exact closes_exhausted rfl
  | succ fuel =>
      apply closes_seq _ (run_advance_ne_abandoned fuel walk)
      · intro after run_eq reached
        have branching := going.part (.next run_eq)
        cases fuel with
        | zero => exact closes_exhausted rfl
        | succ fuel =>
            rw [run]
            split
            · next true_here =>
                have recovering := branching.part (.holding true_here)
                cases fuel with
                | zero => exact closes_exhausted rfl
                | succ fuel =>
                    have resumable := fun line after =>
                      @recovering.resumes _ line _ _ _ _ _ after rfl
                    apply closes_recover _ resumable
                    · intro later run_eq there
                      exact again (by omega) there
                        (recovering.part (.further run_eq))
                    · intro line later run_eq there
                      exact again (by omega) there (recovering.part
                        (.resumed run_eq (resumable line later run_eq)))
                    · exact stays fuel (by omega) (.expression ++ .string) after
                        close back rfl reached (recovering.part .body)
            · next false_here =>
                have sequence := branching.part (.failing false_here)
                cases fuel with
                | zero => exact closes_exhausted rfl
                | succ fuel =>
                    apply closes_seq _ (run_complain_ne_abandoned fuel _ _ after)
                    · intro later run_eq there
                      exact again (by omega) there (sequence.part (.next run_eq))
                    · exact stays fuel (by omega) _ after close back rfl reached
                        (sequence.part .first)
      · exact stays_advance next_eq arrived (going.part .first)

theorem endsBodies_succ {fuel : Nat}
    (stays : ∀ smaller ≤ fuel, StaysInside smaller)
    (ends : ∀ smaller ≤ fuel, EndsBodies smaller) : EndsBodies (fuel + 1) := by
  intro body walk close back braced inside orderly
  cases body with
  | members block => exact closes_members stays ends block inside orderly
  | enumConstants => exact closes_list stays ends braced rfl rfl inside orderly
  | structMembers => exact closes_list stays ends braced rfl rfl inside orderly
  | connections => exact closes_list stays ends braced rfl rfl inside orderly
  | instances => exact closes_list stays ends braced rfl rfl inside orderly
  | telemetryLimits =>
      exact closes_list stays ends braced rfl rfl inside orderly
  | phases => exact closes_phases stays ends inside orderly
  | expression | arrayElements | qualifiedTail | parameters => nomatch braced

theorem staysInside_and_endsBodies (fuel : Nat) :
    ∀ smaller ≤ fuel, StaysInside smaller ∧ EndsBodies smaller := by
  induction fuel with
  | zero =>
      intro smaller le
      obtain rfl := Nat.le_zero.mp le
      refine ⟨?_, ?_⟩
      · intro rule walk close back _ _ _
        exact ⟨nofun, fun unexhausted => absurd rfl unexhausted⟩
      · intro body walk close back _ _ _
        exact ⟨.inr rfl, nofun⟩
  | succ fuel induction =>
      intro smaller le
      rcases Nat.le_succ_iff.mp le with earlier | rfl
      · exact induction smaller earlier
      · exact ⟨staysInside_succ (fun smaller le => (induction smaller le).1)
            (fun smaller le => (induction smaller le).2),
          endsBodies_succ (fun smaller le => (induction smaller le).1)
            (fun smaller le => (induction smaller le).2)⟩

/-- An orderly body that does not run out of steps ends with the partner of its
brace. -/
theorem closes_body (fuel : Nat) {body : Nonterminal} {walk : Walk}
    {close : Token} {back : List Token} (braced : body.isBraced)
    (inside : Inside close back walk)
    (orderly : Visit.Orderly ⟨fuel, .call body, walk⟩) :
    Closes close back (run fuel (.call body) walk) :=
  (staysInside_and_endsBodies fuel fuel (Nat.le_refl _)).2 body walk close back
    braced inside orderly

end Walk

end ComponentLang
