import ComponentLang.Proofs.Grammar.Brackets
import ComponentLang.Proofs.Walk.Visits

namespace ComponentLang

/-- Duplicate and unknown names are no faults of the grammar. -/
def Cause.concernsNames : Cause → Bool
  | .duplicateDeclaration _ | .unknownIdentifier _ => true
  | _ => false

namespace Walk

def Faultless (walk : Walk) : Prop :=
  ∀ finding ∈ walk.findings, finding.cause.concernsNames

theorem Faultless.of_grows {before after : Walk} (faultless : after.Faultless)
    (grows : Grows before after) : before.Faultless :=
  fun finding member => faultless finding (grows.findings.mem member)

theorem not_faultless_report {cause : Cause} (walk : Walk) (anchor : Token)
    (fault : cause.concernsNames = false) :
    ¬(walk.report cause anchor).Faultless := by
  intro faultless
  have concerns := faultless ⟨cause, anchor⟩ List.mem_cons_self
  rw [fault] at concerns
  nomatch concerns

theorem findings_rescue (walk : Walk) (candidates : List Terminal) :
    (walk.rescue candidates).findings = walk.findings := by
  unfold rescue
  split <;> rfl

end Walk

open TokenCursor

/-- The cursor stands on a token whose brackets, with those behind it, are still
to be read. -/
structure TokenCursor.Faces (goal : Option (List Bracket))
    (opened : List Bracket) (token : Token) (cursor : TokenCursor) : Prop where
  current : cursor.current? = some token
  operator : token.BracketIsOperator
  ahead : openAfter opened (token :: cursor.behind) = goal

theorem TokenCursor.Faces.behind {goal : Option (List Bracket)}
    {opened after : List Bracket} {token : Token} {cursor : TokenCursor}
    (faces : cursor.Faces goal opened token)
    (known : token.read opened = some after) :
    openAfter after cursor.behind = goal := by
  rw [← openAfter_cons_of_read known]
  exact faces.ahead

namespace Reading

/-- What a reading says about a cursor: with the brackets opened so far on top of
those in `base`, the tokens ahead come to `goal`. -/
def Holds (goal : Option (List Bracket)) (base : List Bracket) :
    Reading → TokenCursor → Prop
  | .refuted, _ => False
  | .settled opened, cursor => openAfter (opened ++ base) cursor.behind = goal
  | .unread opened, cursor =>
      ∃ token, cursor.Faces goal (opened ++ base) token
  | .among opened candidates, cursor =>
      ∃ token, cursor.Faces goal (opened ++ base) token ∧
        (Terminal.find? candidates token.text).isSome

section Holds

variable {goal : Option (List Bracket)} {base : List Bracket}
  {cursor : TokenCursor} {reading result : Reading}

theorem Holds.settle (holds : reading.Holds goal base cursor)
    (settle_eq : reading.settle = some result) :
    result.Holds goal base cursor := by
  cases reading with
  | refuted => exact holds.elim
  | settled opened =>
      cases settle_eq
      exact holds
  | unread opened => nomatch settle_eq
  | among opened candidates =>
      obtain ⟨token, faces, listed⟩ := holds
      obtain ⟨terminal, found⟩ := Option.isSome_iff_exists.mp listed
      have spelled := Terminal.spelling_of_find?_eq_some found
      have member := List.mem_of_find?_eq_some found
      cases candidates with
      | nil => nomatch member
      | cons first others =>
          simp only [Reading.settle] at settle_eq
          split at settle_eq
          · next alike =>
              obtain ⟨after, first_eq, rfl⟩ := Option.map_eq_some_iff.mp settle_eq
              have read_eq : Bracket.read token.text opened = some after := by
                rw [← spelled, ← first_eq]
                rcases List.mem_cons.mp member with rfl | later
                · rfl
                · exact beq_iff_eq.mp (List.all_eq_true.mp alike terminal later)
              apply faces.behind
              rw [faces.operator]
              exact Bracket.read_append base read_eq
          · nomatch settle_eq

theorem Holds.proceed {next : List Bracket → Option Reading}
    (holds : reading.Holds goal base cursor)
    (proceed_eq : reading.proceed next = some result) :
    ∃ opened, openAfter (opened ++ base) cursor.behind = goal ∧
      next opened = some result := by
  unfold Reading.proceed at proceed_eq
  split at proceed_eq
  · next opened settle_eq => exact ⟨opened, holds.settle settle_eq, proceed_eq⟩
  · next settle_eq => exact (holds.settle settle_eq).elim
  · nomatch proceed_eq

theorem Holds.join_left {other : Reading}
    (holds : reading.Holds goal base cursor)
    (join_eq : reading.join other = some result) :
    result.Holds goal base cursor := by
  unfold Reading.join at join_eq
  split at join_eq
  · next refuted => exact (holds.settle refuted).elim
  · exact holds.settle join_eq
  · split at join_eq
    · exact holds.settle join_eq
    · nomatch join_eq

theorem Holds.join_right {other : Reading}
    (holds : reading.Holds goal base cursor)
    (join_eq : other.join reading = some result) :
    result.Holds goal base cursor := by
  unfold Reading.join at join_eq
  split at join_eq
  · exact holds.settle join_eq
  · next refuted _ => exact (holds.settle refuted).elim
  · split at join_eq
    · next same =>
        rw [beq_iff_eq.mp same] at join_eq
        exact holds.settle join_eq
    · nomatch join_eq

theorem holds_among {opened : List Bracket} {token : Token}
    {terminal : Terminal} {candidates : List Terminal}
    (faces : cursor.Faces goal (opened ++ base) token)
    (spelled : token.text = terminal.spelling)
    (member : terminal ∈ candidates) :
    (among opened candidates).Holds goal base cursor := by
  refine ⟨token, faces, ?_⟩
  rw [Terminal.find?, List.find?_isSome]
  exact ⟨terminal, member, beq_iff_eq.mpr spelled⟩

theorem Holds.assume {walk : Walk} {test : Test}
    (holds : reading.Holds goal base walk.cursor) (passed : walk.holds test) :
    (assume test reading).Holds goal base walk.cursor := by
  cases reading with
  | refuted => exact holds.elim
  | settled opened => cases test <;> exact holds
  | unread opened =>
      obtain ⟨token, faces⟩ := holds
      simp only [Walk.holds, TokenCursor.holds, faces.current] at passed
      cases test with
      | spelled terminal =>
          exact holds_among faces (beq_iff_eq.mp passed) List.mem_cons_self
      | sizedType =>
          refine faces.behind (token.read_of_test
            (· == BuiltinType.string.spelling) ?_ passed _)
          exact fun bracket => by cases bracket <;> decide
      | builtinType =>
          refine faces.behind (token.read_of_test
            (fun text => (BuiltinType.ofSpelling? text).isSome) ?_ passed _)
          exact fun bracket => by cases bracket <;> decide
      | ofKind kind =>
          rw [Reading.assume]
          split
          · exact ⟨token, faces⟩
          · next other =>
              apply faces.behind
              apply Token.read_of_kind
              rw [beq_iff_eq.mp passed]
              exact fun operator => other (beq_iff_eq.mpr operator)
      | truthWord =>
          obtain ⟨keyword, -⟩ := Bool.and_eq_true_iff.mp passed
          apply faces.behind
          apply Token.read_of_kind
          rw [beq_iff_eq.mp keyword]
          nofun
      | identifier =>
          refine faces.behind (token.read_of_test Literal.isIdentifier ?_
            passed _)
          exact fun bracket => by cases bracket <;> decide +kernel
      | lastOnLine => exact ⟨token, faces⟩
  | among opened candidates =>
      cases test with
      | spelled terminal =>
          obtain ⟨token, faces, listed⟩ := holds
          simp only [Walk.holds, TokenCursor.holds, faces.current] at passed
          obtain ⟨found, found_eq⟩ := Option.isSome_iff_exists.mp listed
          have spelled := Terminal.spelling_of_find?_eq_some found_eq
          refine holds_among faces spelled.symm (List.mem_filter.mpr ⟨?_, ?_⟩)
          · exact List.mem_of_find?_eq_some found_eq
          · rw [spelled]
            exact passed
      | _ => exact holds

theorem Holds.refute {walk : Walk} {test : Test}
    (holds : reading.Holds goal base walk.cursor) (failed : ¬walk.holds test) :
    (refute test reading).Holds goal base walk.cursor := by
  cases test with
  | spelled terminal =>
      cases reading with
      | among opened candidates =>
          obtain ⟨token, faces, listed⟩ := holds
          simp only [Walk.holds, TokenCursor.holds, faces.current] at failed
          obtain ⟨found, found_eq⟩ := Option.isSome_iff_exists.mp listed
          have spelled := Terminal.spelling_of_find?_eq_some found_eq
          refine holds_among faces spelled.symm (List.mem_filter.mpr ⟨?_, ?_⟩)
          · exact List.mem_of_find?_eq_some found_eq
          · rw [spelled]
            exact bne_iff_ne.mpr fun same => failed (beq_iff_eq.mpr same)
      | _ => exact holds
  | _ => cases reading <;> exact holds

end Holds

end Reading

namespace Walk

structure Reads (goal : Option (List Bracket)) (base : List Bracket)
    (reading : Reading) (walk : Walk) : Prop where
  operators : BracketsAreOperators walk.cursor.behind
  holds : reading.Holds goal base walk.cursor

section Reads

variable {goal : Option (List Bracket)} {base opened : List Bracket}
  {walk after : Walk} {reading result : Reading} {token : Token}
  {reached : TokenCursor}

theorem Reads.of_settled (reads : Reads goal base (.settled opened) walk)
    (behind_eq : after.cursor.behind = walk.cursor.behind) :
    Reads goal base (.settled opened) after := by
  refine ⟨behind_eq ▸ reads.operators, ?_⟩
  rw [Reading.Holds, behind_eq]
  exact reads.holds

theorem Reads.settle (reads : Reads goal base reading walk)
    (settle_eq : reading.settle = some result) :
    Reads goal base result walk :=
  ⟨reads.operators, reads.holds.settle settle_eq⟩

theorem Reads.join_left {other : Reading}
    (reads : Reads goal base reading walk)
    (join_eq : reading.join other = some result) :
    Reads goal base result walk :=
  ⟨reads.operators, reads.holds.join_left join_eq⟩

theorem Reads.join_right {other : Reading}
    (reads : Reads goal base reading walk)
    (join_eq : other.join reading = some result) :
    Reads goal base result walk :=
  ⟨reads.operators, reads.holds.join_right join_eq⟩

theorem Reads.assume {test : Test} (reads : Reads goal base reading walk)
    (passed : walk.holds test) :
    Reads goal base (.assume test reading) walk :=
  ⟨reads.operators, reads.holds.assume passed⟩

theorem Reads.refute {test : Test} (reads : Reads goal base reading walk)
    (failed : ¬walk.holds test) :
    Reads goal base (.refute test reading) walk :=
  ⟨reads.operators, reads.holds.refute failed⟩

theorem Reads.proceed {next : List Bracket → Option Reading}
    (reads : Reads goal base reading walk)
    (proceed_eq : reading.proceed next = some result) :
    ∃ opened, Reads goal base (.settled opened) walk ∧
      next opened = some result := by
  obtain ⟨opened, behind, next_eq⟩ := reads.holds.proceed proceed_eq
  exact ⟨opened, ⟨reads.operators, behind⟩, next_eq⟩

theorem Reads.pass {skipped : List Token} {last : List Token}
    (reads : Reads goal base (.settled opened) walk)
    (behind_eq : walk.cursor.behind = skipped ++ last)
    (plain : ∀ other ∈ skipped, other.isTrivia ∨ other.kind = .string) :
    openAfter (opened ++ base) last = goal ∧ BracketsAreOperators last := by
  constructor
  · have ahead := reads.holds
    rw [Reading.Holds, behind_eq, openAfter_append_of_plain] at ahead
    · exact ahead
    · intro other member
      rcases plain other member with trivia | string
      · exact Token.read_of_isTrivia trivia _
      · exact Token.read_of_kind (by rw [string]; nofun) _
  · intro other member
    apply reads.operators
    rw [behind_eq]
    exact List.mem_append_right _ member

theorem Reads.next (reads : Reads goal base (.settled opened) walk)
    (found : walk.cursor.next? = some (token, reached)) :
    reached.Faces goal (opened ++ base) token ∧
      BracketsAreOperators reached.behind := by
  obtain ⟨skipped, behind_eq, trivia⟩ := behind_of_next? found
  obtain ⟨ahead, operators⟩ := reads.pass behind_eq fun other member =>
    .inl (trivia other member)
  obtain ⟨here, later⟩ := List.forall_mem_cons.mp operators
  exact ⟨⟨(current?_of_next? found).1, here, ahead⟩, later⟩

theorem Reads.moveTo (reads : Reads goal base (.settled opened) walk)
    (found : walk.cursor.next? = some (token, reached)) :
    Reads goal base (.unread opened) (walk.moveTo reached) := by
  obtain ⟨faces, operators⟩ := reads.next found
  exact ⟨operators, token, faces⟩

theorem Reads.take {candidates : List Terminal} {terminal : Terminal}
    (reads : Reads goal base (.settled opened) walk)
    (found : walk.cursor.take? candidates = some (terminal, reached)) :
    Reads goal base (.among opened candidates) (walk.moveTo reached) := by
  obtain ⟨token, next_eq, found_eq⟩ := next?_of_take? found
  obtain ⟨faces, operators⟩ := reads.next next_eq
  exact ⟨operators, token, faces, Option.isSome_iff_exists.mpr ⟨_, found_eq⟩⟩

theorem Reads.advance {expected : Expected}
    (reads : Reads goal base (.settled opened) walk)
    (faultless : (walk.advance expected).2.Faultless) :
    (walk.advance expected).1 = .finished ∧
      Reads goal base (.unread opened) (walk.advance expected).2 := by
  unfold Walk.advance at faultless ⊢
  split
  · next token reached found => exact ⟨rfl, reads.moveTo found⟩
  · next none_left =>
      rw [none_left] at faultless
      exact absurd faultless (not_faultless_report _ _ rfl)

theorem Reads.need (reads : Reads goal base (.settled opened) walk)
    (expected : Expected)
    (faultless : (walk.need expected).2.Faultless) :
    (walk.need expected).1 = .finished ∧
      Reads goal base (.unread opened) (walk.need expected).2 := by
  unfold Walk.need at faultless ⊢
  cases next_eq : walk.cursor.next? with
  | none =>
      rw [next_eq] at faultless
      exact reads.advance faultless
  | some found =>
      simp only [next_eq] at faultless ⊢
      split at faultless
      · next fits =>
          rw [if_pos fits]
          exact ⟨rfl, reads.moveTo next_eq⟩
      · exact absurd faultless (not_faultless_report _ _ rfl)

theorem Reads.expect {candidates : List Terminal}
    (reads : Reads goal base (.settled opened) walk)
    (faultless : (walk.expect candidates).2.Faultless) :
    (walk.expect candidates).1 = .finished ∧
      Reads goal base (.among opened candidates)
        (walk.expect candidates).2 := by
  have needed := reads.need (.oneOf candidates)
  unfold Walk.expect at faultless ⊢
  cases need_eq : walk.need (.oneOf candidates) with
  | mk outcome after =>
      rw [need_eq] at needed faultless
      cases outcome with
      | finished =>
          simp only at needed faultless ⊢
          cases there : after.cursor.current? with
          | none =>
              rw [there] at faultless
              obtain ⟨token, faces⟩ := (needed faultless).2.holds
              rw [faces.current] at there
              nomatch there
          | some token =>
              simp only [there] at faultless ⊢
              split at faultless
              · next listed =>
                  obtain ⟨-, operators, other, faces⟩ := needed faultless
                  obtain rfl := Option.some.inj (there.symm.trans faces.current)
                  rw [if_pos listed]
                  exact ⟨rfl, operators, token, faces, listed⟩
              · rw [Faultless, findings_rescue] at faultless
                exact absurd faultless (not_faultless_report _ _ rfl)
      | _ => nomatch (needed faultless).1

theorem Reads.complain {complaint : Complaint}
    (reads : Reads goal base (.unread opened) walk) :
    ¬(walk.complain complaint).Faultless := by
  obtain ⟨token, faces⟩ := reads.holds
  unfold Walk.complain
  rw [faces.current]
  cases complaint <;> exact not_faultless_report _ _ rfl

theorem Reads.strings (reads : Reads goal base (.settled opened) walk) :
    Reads goal base (.settled opened) walk.strings := by
  rcases behind_passStrings walk.cursor with
    same | ⟨skipped, token, behind_eq, there, string, plain⟩
  · rwa [Walk.strings, same]
  · rw [List.append_cons] at behind_eq
    obtain ⟨ahead, operators⟩ := reads.pass behind_eq (by
      intro other member
      rcases List.mem_append.mp member with earlier | last
      · exact plain other earlier
      · exact .inr (List.mem_singleton.mp last ▸ string))
    exact ⟨operators, ahead⟩

theorem Reads.name (reads : Reads goal base (.unread opened) walk)
    (there : walk.cursor.current? = some token)
    (identifier : Literal.isIdentifier token.text) :
    Reads goal base (.settled opened) walk := by
  have passed : walk.holds .identifier := by
    simp only [Walk.holds, TokenCursor.holds, there, identifier]
  exact ⟨reads.operators, reads.holds.assume passed⟩

theorem Reads.resolve {reading : Reading}
    (reads : Reads goal base reading walk)
    (faultless : walk.resolve.Faultless)
    (followed : Rule.follow .resolve reading = some result) :
    Reads goal base result walk.resolve := by
  cases reading with
  | unread opened =>
      cases followed
      obtain ⟨token, faces⟩ := reads.holds
      by_cases identifier : Literal.isIdentifier token.text
      · exact (reads.name faces.current identifier).of_settled
          (behind_resolve walk)
      · simp only [Walk.resolve, faces.current, if_neg identifier] at faultless
        exact absurd faultless (not_faultless_report _ _ rfl)
  | _ =>
      obtain ⟨opened, settled, next_eq⟩ := reads.proceed followed
      cases next_eq
      exact settled.of_settled (behind_resolve walk)

theorem Reads.declare {kind : TokenKind} {modifiers : Modifiers}
    (reads : Reads goal base (.unread opened) walk)
    (faultless : (walk.declare kind modifiers).2.Faultless) :
    Reads goal base (.settled opened) (walk.declare kind modifiers).2 := by
  obtain ⟨token, faces⟩ := reads.holds
  unfold Walk.declare at faultless ⊢
  simp only [faces.current] at faultless ⊢
  split at faultless
  · next identifier =>
      rw [if_pos identifier]
      exact (reads.name faces.current identifier).of_settled (by
        rw [Walk.classify, behind_reclassify, cursor_reportDuplicate])
  · exact absurd faultless (not_faultless_report _ _ rfl)

theorem Reads.define (reads : Reads goal base (.settled opened) walk)
    (kind : TokenKind) (modifiers : Modifiers)
    (faultless : (walk.define kind modifiers).2.2.Faultless) :
    (walk.define kind modifiers).1 = .finished ∧
      Reads goal base (.settled opened) (walk.define kind modifiers).2.2 := by
  have needed := reads.need .identifier
  unfold Walk.define at faultless ⊢
  cases need_eq : walk.need .identifier with
  | mk outcome after =>
      rw [need_eq] at needed faultless
      cases outcome with
      | finished =>
          have taken := needed (faultless.of_grows
            (keptBySteps_grows.declare after kind modifiers))
          exact ⟨rfl, taken.2.declare faultless⟩
      | _ => nomatch (needed faultless).1

theorem Reads.beginning {block : Block}
    (reads : Reads goal base (.unread opened) walk)
    (expected : walk.beginning block ≠ .unexpected) :
    Reads goal base (.settled opened) walk := by
  obtain ⟨token, faces⟩ := reads.holds
  refine ⟨reads.operators, faces.behind ?_⟩
  unfold Walk.beginning TokenCursor.beginning at expected
  rw [faces.current] at expected
  simp only at expected
  split at expected
  · next nothing =>
      rcases Bool.or_eq_true_iff.mp nothing with trivia | string
      · exact token.read_of_isTrivia trivia _
      · exact token.read_of_kind (by rw [beq_iff_eq.mp string]; nofun) _
  · split at expected
    · next keyword =>
        exact token.read_of_kind (by rw [beq_iff_eq.mp keyword]; nofun) _
    · exact absurd rfl expected

theorem Reads.enclose (reads : Reads goal base (.settled opened) walk) :
    Reads goal (opened ++ base) (.settled []) walk :=
  ⟨reads.operators, reads.holds⟩

/-- How a step ends behind which the reading is true: without complaint it has
finished, unless it ran out of steps. -/
def Arrives (goal : Option (List Bracket)) (base : List Bracket)
    (reading : Reading) (step : Outcome × Walk) : Prop :=
  step.2.Faultless →
    step.1 = .exhausted ∨ step.1 = .finished ∧ Reads goal base reading step.2

section Arrives

variable {outcome : Outcome}

theorem Arrives.mono {others : List Bracket} {other : Reading}
    (arrives : Arrives goal base reading (outcome, after))
    (reaches : Reads goal base reading after → Reads goal others other walk)
    (findings_eq : walk.findings = after.findings) :
    Arrives goal others other (outcome, walk) := by
  intro faultless
  rw [Faultless, findings_eq] at faultless
  exact (arrives faultless).imp_right (And.imp_right reaches)

theorem Arrives.discharge (arrives : Arrives goal (opened ++ base)
    (.settled []) (outcome, after)) :
    Arrives goal base (.settled opened) (outcome, after) :=
  arrives.mono (fun reads => ⟨reads.operators, reads.holds⟩) rfl

theorem Arrives.closeScope
    (arrives : Arrives goal base reading (outcome, after)) :
    Arrives goal base reading (outcome, after.closeScope) :=
  arrives.mono (fun reads => ⟨reads.operators, reads.holds⟩) rfl

theorem Arrives.finished (arrives : Arrives goal base reading (outcome, after))
    (unexhausted : outcome ≠ .exhausted) (faultless : after.Faultless) :
    outcome = .finished ∧ Reads goal base reading after :=
  (arrives faultless).resolve_left unexhausted

theorem Arrives.stopped
    (arrives : Arrives goal base reading (outcome, after))
    (unfinished : outcome ≠ .finished) :
    Arrives goal base result (outcome, after) :=
  fun faultless => (arrives faultless).imp_right fun finished =>
    absurd finished.1 unfinished

end Arrives

def FollowsWithin (goal : Option (List Bracket)) (fuel : Nat) : Prop :=
  ∀ {rule : Rule} {walk : Walk} {base : List Bracket}
    {reading result : Reading}, rule.follow reading = some result →
      Reads goal base reading walk →
        Arrives goal base result (run fuel rule walk)

section FollowsWithin

variable {fuel : Nat}

theorem faultless_of_run {rule : Rule}
    (faultless : (run fuel rule walk).2.Faultless) : walk.Faultless :=
  faultless.of_grows
    (keptBySteps_grows.run fuel rule walk (.inl fun _ => trivial))

theorem Arrives.goesOn {next : Rule} {between : Reading}
    (arrives : Arrives goal base between (.finished, after))
    (within : FollowsWithin goal fuel)
    (followed : next.follow between = some result) :
    Arrives goal base result (run fuel next after) :=
  fun faultless => within followed
    (arrives.finished (by simp) (faultless_of_run faultless)).2 faultless

theorem FollowsWithin.scoped {rule : Rule} {name : String} {kind : TokenKind}
    (within : FollowsWithin goal fuel)
    (followed : rule.follow reading = some result)
    (reads : walk.Faultless → Reads goal base reading walk) :
    Arrives goal base result
      ((run fuel rule (walk.openScope name kind)).1,
        (run fuel rule (walk.openScope name kind)).2.closeScope) := by
  intro faultless
  have before : (walk.openScope name kind).Faultless :=
    faultless_of_run faultless
  have opens : Reads goal base reading (walk.openScope name kind) :=
    ⟨(reads before).operators, (reads before).holds⟩
  exact (within followed opens).closeScope faultless

theorem FollowsWithin.seq {first next : Rule}
    (within : FollowsWithin goal fuel) (reads : Reads goal base reading walk)
    (followed : (Rule.seq first next).follow reading = some result) :
    Arrives goal base result (run (fuel + 1) (.seq first next) walk) := by
  obtain ⟨between, first_followed, next_followed⟩ :=
    Option.bind_eq_some_iff.mp followed
  have front := within first_followed reads
  rw [run]
  cases first_eq : run fuel first walk with
  | mk outcome after =>
      rw [first_eq] at front
      cases outcome with
      | finished => exact front.goesOn within next_followed
      | _ => exact front.stopped (by simp)

theorem FollowsWithin.accept {candidates : List Terminal}
    {found missing : Rule} (within : FollowsWithin goal fuel)
    (reads : Reads goal base reading walk)
    (followed : (Rule.accept candidates found missing).follow reading =
      some result) :
    Arrives goal base result
      (run (fuel + 1) (.accept candidates found missing) walk) := by
  obtain ⟨opened, settled, next_eq⟩ := reads.proceed followed
  obtain ⟨first, found_followed, join_eq⟩ := Option.bind_eq_some_iff.mp next_eq
  obtain ⟨second, missing_followed, join_eq⟩ :=
    Option.bind_eq_some_iff.mp join_eq
  rw [run]
  split
  · next terminal cursor take_eq =>
      exact (within found_followed (settled.take take_eq)).mono
        (fun way => way.join_left join_eq) rfl
  · exact (within missing_followed settled).mono
      (fun way => way.join_right join_eq) rfl

theorem FollowsWithin.branch {test : Test} {holding failing : Rule}
    (within : FollowsWithin goal fuel) (reads : Reads goal base reading walk)
    (followed : (Rule.branch test holding failing).follow reading =
      some result) :
    Arrives goal base result
      (run (fuel + 1) (.branch test holding failing) walk) := by
  obtain ⟨first, holding_followed, join_eq⟩ :=
    Option.bind_eq_some_iff.mp followed
  obtain ⟨second, failing_followed, join_eq⟩ :=
    Option.bind_eq_some_iff.mp join_eq
  rw [run]
  split
  · next passed =>
      exact (within holding_followed (reads.assume passed)).mono
        (fun way => way.join_left join_eq) rfl
  · next failed =>
      exact (within failing_followed (reads.refute failed)).mono
        (fun way => way.join_right join_eq) rfl

theorem FollowsWithin.define {kind : TokenKind} {modifiers : Modifiers}
    {body : Rule} (within : FollowsWithin goal fuel)
    (reads : Reads goal base reading walk)
    (followed : (Rule.define kind modifiers body).follow reading =
      some result) :
    Arrives goal base result
      (run (fuel + 1) (.define kind modifiers body) walk) := by
  obtain ⟨opened, settled, body_followed⟩ := reads.proceed followed
  have named := settled.define kind modifiers
  rw [run]
  rcases define_eq : walk.define kind modifiers with ⟨outcome, name, defined⟩
  rw [define_eq] at named
  cases outcome with
  | finished =>
      simp only
      split
      · exact within.scoped body_followed fun faultless => (named faultless).2
      · exact fun faultless => within body_followed
          (named (faultless_of_run faultless)).2 faultless
  | _ =>
      intro faultless
      cases (named faultless).1

theorem FollowsWithin.signature {kind : TokenKind} {modifiers : Modifiers}
    (within : FollowsWithin goal fuel) (reads : Reads goal base reading walk)
    (followed : (Rule.signature kind modifiers).follow reading = some result) :
    Arrives goal base result
      (run (fuel + 1) (.signature kind modifiers) walk) := by
  obtain ⟨opened, settled, next_eq⟩ := reads.proceed followed
  cases next_eq
  have named := settled.define kind modifiers
  rw [run]
  rcases define_eq : walk.define kind modifiers with ⟨outcome, name, defined⟩
  rw [define_eq] at named
  cases outcome with
  | finished =>
      simp only
      split
      · next terminal cursor take_eq =>
          have parameters : Rule.follow (.call .parameters)
              (.among opened [Operator.leftParen]) =
                some (.settled opened) := rfl
          exact within.scoped parameters fun faultless =>
            (named faultless).2.take take_eq
      · exact fun faultless => .inr (named faultless)
  | _ =>
      intro faultless
      cases (named faultless).1

theorem FollowsWithin.recover {resumption : Resumption}
    {body next resumed : Rule} (within : FollowsWithin goal fuel)
    (reads : Reads goal base reading walk)
    (followed : (Rule.recover resumption body next resumed).follow reading =
      some result) :
    Arrives goal base result
      (run (fuel + 1) (.recover resumption body next resumed) walk) := by
  obtain ⟨between, body_followed, next_followed⟩ :=
    Option.bind_eq_some_iff.mp followed
  have front := within body_followed reads
  rw [run]
  cases body_eq : run fuel body walk with
  | mk outcome after =>
      rw [body_eq] at front
      cases outcome with
      | finished => exact front.goesOn within next_followed
      | abandoned line =>
          simp only
          split
          · -- That the part was given up has been reported.
            intro faultless
            cases (front.finished (by simp) (faultless_of_run faultless)).1
          · exact front.stopped (by simp)
      | _ => exact front.stopped (by simp)

theorem FollowsWithin.statement {block : Block}
    (within : FollowsWithin goal fuel) (reads : Reads goal base reading walk)
    (followed : (Rule.statement block).follow reading = some result) :
    Arrives goal base result (run (fuel + 1) (.statement block) walk) := by
  cases reading with
  | unread opened =>
      cases followed
      rw [run]
      split
      · next begins =>
          have expected : walk.beginning block ≠ .unexpected := by simp [begins]
          exact fun _ => .inr ⟨rfl, reads.beginning expected⟩
      · next statement begins =>
          have expected : walk.beginning block ≠ .unexpected := by simp [begins]
          exact (within statement.follow_rule
            (reads.beginning expected).enclose).discharge
      · exact fun faultless => absurd faultless reads.complain
  | _ => cases followed

theorem FollowsWithin.call {nonterminal : Nonterminal}
    (within : FollowsWithin goal fuel) (reads : Reads goal base reading walk)
    (followed : (Rule.call nonterminal).follow reading = some result) :
    Arrives goal base result (run (fuel + 1) (.call nonterminal) walk) := by
  obtain ⟨opened, settled, next_eq⟩ := reads.proceed followed
  have rule_followed := nonterminal.follow_rule
  rw [run]
  cases closes : nonterminal.closes? with
  | none =>
      rw [closes] at next_eq rule_followed
      cases next_eq
      exact (within rule_followed settled.enclose).discharge
  | some bracket =>
      rw [closes] at next_eq rule_followed
      cases opened with
      | nil => cases next_eq
      | cons inner outer =>
          simp only at next_eq
          split at next_eq
          · next same =>
              cases next_eq
              obtain rfl := beq_iff_eq.mp same
              have inside : Reads goal (outer ++ base)
                  (.settled [inner]) walk :=
                ⟨settled.operators, settled.holds⟩
              exact (within rule_followed inside).discharge
          · cases next_eq

end FollowsWithin

/-- The rule's reading stays true as long as nothing but names is found. -/
theorem followsWithin (fuel : Nat) : FollowsWithin goal fuel := by
  -- On the fuel and not on the rule: a call goes on to a rule of the table.
  induction fuel with
  | zero => exact fun _ _ _ => .inl rfl
  | succ fuel within =>
      intro rule walk base reading result followed reads
      cases rule with
      | done => exact fun _ => .inr ⟨rfl, reads.settle followed⟩
      | seq first next => exact within.seq reads followed
      | need expected =>
          obtain ⟨opened, settled, next_eq⟩ := reads.proceed followed
          cases next_eq
          exact fun faultless => .inr (settled.need expected faultless)
      | expect candidates =>
          obtain ⟨opened, settled, next_eq⟩ := reads.proceed followed
          cases next_eq
          exact fun faultless => .inr (settled.expect faultless)
      | accept candidates found missing => exact within.accept reads followed
      | advance =>
          obtain ⟨opened, settled, next_eq⟩ := reads.proceed followed
          cases next_eq
          exact fun faultless => .inr (settled.advance faultless)
      | branch test holding failing => exact within.branch reads followed
      | complain complaint =>
          cases reading with
          | unread opened =>
              exact fun faultless => absurd faultless reads.complain
          | _ => cases followed
      | strings =>
          obtain ⟨opened, settled, next_eq⟩ := reads.proceed followed
          cases next_eq
          exact fun _ => .inr ⟨rfl, settled.strings⟩
      | resolve =>
          exact fun faultless => .inr ⟨rfl, reads.resolve faultless followed⟩
      | define kind modifiers body => exact within.define reads followed
      | signature kind modifiers => exact within.signature reads followed
      | recover resumption body next resumed =>
          exact within.recover reads followed
      | statement block => exact within.statement reads followed
      | call nonterminal => exact within.call reads followed

theorem Reads.ended (reads : Reads goal base (.settled opened) walk)
    (none_left : walk.cursor.next? = none) : goal = some (opened ++ base) := by
  have trivia : ∀ other ∈ walk.cursor.behind,
      other.isTrivia ∨ other.kind = .string := fun other member =>
    .inl (isTrivia_of_next? none_left member)
  obtain ⟨ahead, -⟩ := reads.pass (List.append_nil _).symm trivia
  exact ahead.symm

theorem grows_statements (steps fuel : Nat) (walk : Walk) :
    Grows walk (Walk.statements (fun _ => false) steps fuel walk).2 :=
  related_statements keptBySteps_grows grows_settle fun first _ =>
    keptBySteps_grows.run steps _ first (.inl fun _ => trivial)

theorem Reads.statements {size fuel : Nat}
    (reads : Reads goal [] (.unread []) walk) (enough : walk.remaining < fuel)
    (bound : fuel ≤ size)
    (faultless : (Walk.statements (fun _ => false) (allowance size) fuel
      walk).2.Faultless) : goal = some [] := by
  induction fuel generalizing walk with
  | zero => exact absurd enough (Nat.not_lt_zero _)
  | succ fuel induction =>
      have unexhausted := run_statement_ne_exhausted
        (Nat.lt_of_lt_of_le enough bound) .document
      have ran : Arrives goal [] (.settled [])
          (run (allowance size) (.statement .document) walk) :=
        followsWithin (allowance size) rfl reads
      rw [Walk.statements, if_neg Bool.false_ne_true] at faultless
      cases run_eq : Walk.run (allowance size) (.statement .document) walk with
      | mk outcome after =>
          have forward := remaining_le_of_run run_eq
          rw [run_eq] at unexhausted ran faultless
          have settled : Grows after after.settle := grows_settle after
          cases outcome with
          | ended =>
              cases (ran.finished unexhausted (faultless.of_grows settled)).1
          | _ =>
              simp only at faultless
              cases next_eq : after.settle.cursor.next? with
              | none =>
                  rw [next_eq] at faultless
                  obtain ⟨-, arrived⟩ :=
                    ran.finished unexhausted (faultless.of_grows settled)
                  exact (arrived.of_settled
                    (congrArg _ (cursor_settle after))).ended next_eq
              | some found =>
                  simp only [next_eq] at faultless
                  have later := faultless.of_grows (grows_statements _ _ _)
                  obtain ⟨-, arrived⟩ := ran.finished unexhausted
                    (later.of_grows
                      (settled.trans (keptBySteps_grows.next next_eq)))
                  have taken := remaining_lt_of_next? next_eq
                  rw [cursor_settle] at taken
                  apply induction _ _ (Nat.le_of_succ_le bound) faultless
                  · exact (arrived.of_settled
                      (congrArg _ (cursor_settle after))).moveTo next_eq
                  · simp only [remaining, Walk.moveTo] at *
                    omega

theorem wellBracketed_of_faultless {tokens : List Token}
    (operators : BracketsAreOperators tokens)
    (faultless : (document (fun _ => false) tokens).2.Faultless) :
    WellBracketed tokens := by
  cases tokens with
  | nil => rfl
  | cons token rest =>
      obtain ⟨here, later⟩ := List.forall_mem_cons.mp operators
      have reads : Reads (openAfter [] (token :: rest)) [] (.unread [])
          (start (token :: rest)) := ⟨later, token, rfl, here, rfl⟩
      rw [document, if_neg (by simp)] at faultless
      exact reads.statements (Nat.lt_succ_self _) (Nat.le_refl _) faultless

end Reads

end Walk

end ComponentLang
