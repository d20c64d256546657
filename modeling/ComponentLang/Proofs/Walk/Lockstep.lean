import ComponentLang.Proofs.Walk.Steady

namespace ComponentLang

inductive Outcome.SameWay : Outcome → Outcome → Prop where
  | finished : SameWay .finished .finished
  | abandoned (line other : Nat) : SameWay (.abandoned line) (.abandoned other)
  | ended : SameWay .ended .ended
  | exhausted : SameWay .exhausted .exhausted

namespace Walk

/-- Two walks come next to tokens that are taken alike, or to the end of both, or
they part. -/
inductive ComeAlike (related : Bool → Walk → Walk → Prop)
    (parted : Bool → Walk → Bool → Walk → Prop) (first second : Walk) :
    Prop where
  | ended (left : first.cursor.next? = none)
      (right : second.cursor.next? = none)
  | token {token other : Token} {reached arrived : TokenCursor}
      (left : first.cursor.next? = some (token, reached))
      (right : second.cursor.next? = some (other, arrived))
      (text : token.text = other.text)
      (takes : ∀ expected : Expected,
        (expected.accepts token || !first.canResumeAt token) =
          (expected.accepts other || !second.canResumeAt other))
      (later : first.isLater token = second.isLater other)
      (moved : related true (first.moveTo reached) (second.moveTo arrived))
  | apart (parts : parted false first false second)

theorem canResumeAt_eq {first second : Walk} {token other : Token}
    (text : token.text = other.text) (kind : token.kind = other.kind)
    (later : first.isLater token = second.isLater other) :
    first.canResumeAt token = second.canResumeAt other := by
  rw [canResumeAt_def, canResumeAt_def, text, kind, later]

theorem accepts_eq (expected : Expected) {token other : Token}
    (text : token.text = other.text) (kind : token.kind = other.kind) :
    expected.accepts token = expected.accepts other := by
  cases expected <;>
    simp only [Expected.accepts, Expected.startsExpression,
      Expected.isTruthWord, Expected.startsType, text, kind]

theorem ComeAlike.of_kind {related : Bool → Walk → Walk → Prop}
    {parted : Bool → Walk → Bool → Walk → Prop} {first second : Walk}
    {token other : Token} {reached arrived : TokenCursor}
    (left : first.cursor.next? = some (token, reached))
    (right : second.cursor.next? = some (other, arrived))
    (text : token.text = other.text) (kind : token.kind = other.kind)
    (later : first.isLater token = second.isLater other)
    (moved : related true (first.moveTo reached) (second.moveTo arrived)) :
    ComeAlike related parted first second :=
  .token left right text
    (fun expected => by
      rw [accepts_eq expected text kind, canResumeAt_eq text kind later])
    later moved

def Onward (related : Bool → Walk → Walk → Prop)
    (parted : Bool → Walk → Bool → Walk → Prop) (first second : Walk) : Prop :=
  related false first second ∨ parted false first false second

/-- What every step has to keep. The first argument of the relation tells
whether the current tokens are fresh; of walks that have parted, each has an
argument of its own. Where the kinds of fresh tokens differ, the walks part as
soon as the first one leaves its token as it is. -/
structure Lockstep (related : Bool → Walk → Walk → Prop)
    (parted : Bool → Walk → Bool → Walk → Prop) : Prop where
  left : ∀ {fresh second}, SteadyInvariant fun free first =>
    parted free first fresh second
  right : ∀ {free first}, SteadyInvariant fun fresh second =>
    parted free first fresh second
  weaken : related true first second → related false first second
  current : related fresh first second →
    ∃ token other, first.cursor.current? = some token ∧
      second.cursor.current? = some other ∧ token.text = other.text ∧
      (fresh → token.kind = other.kind ∨
        other.kind.isSemantic ∧ parted false first true second)
  next : related false first second → ComeAlike related parted first second
  ended : related false first second → first.cursor.next? = none →
    second.cursor.next? = none →
    related false
      (first.report (.endOfInput expected) (.marker first.place))
      (second.report (.endOfInput expected) (.marker second.place))
  abandoned : related false first second →
    first.cursor.next? = some (token, reached) →
    second.cursor.next? = some (other, arrived) → token.text = other.text →
    related true (first.moveTo reached) (second.moveTo arrived) →
    first.isLater token = second.isLater other →
    related false
      (first.report (.abandoned expected token.text)
        (if first.isLater token then .marker first.place else token))
      (second.report (.abandoned expected other.text)
        (if second.isLater other then .marker second.place else other))
  mismatch : related true first second →
    first.cursor.current? = some token → second.cursor.current? = some other →
    related true (first.report (.mismatch candidates) token)
      (second.report (.mismatch candidates) other)
  rescue : candidates.all Terminal.isMeaningful → related true first second →
    Onward related parted (first.rescue candidates) (second.rescue candidates)
  complain : ∀ complaint, related true first second →
    Onward related parted (first.complain complaint)
      (second.complain complaint)
  strings : related true first second →
    Onward related parted first.strings second.strings
  resolve : related true first second →
    Onward related parted first.resolve second.resolve
  declare : kind.isSemantic → ∀ modifiers, related true first second →
    Onward related parted (first.declare kind modifiers).2
      (second.declare kind modifiers).2
  openScope : ∀ name kind, related fresh first second →
    related fresh (first.openScope name kind) (second.openScope name kind)
  closeScope : related fresh first second →
    related fresh first.closeScope second.closeScope
  settle : related fresh first second →
    related fresh first.settle second.settle

/-- Two steps ended the same way, in walks that are in step, or the walks have
parted. What `fresh` says holds of finished steps only. -/
inductive Abreast (related : Bool → Walk → Walk → Prop)
    (parted : Bool → Walk → Bool → Walk → Prop) (fresh : Bool)
    (first second : Outcome × Walk) : Prop where
  | level (way : first.1.SameWay second.1)
      (alike : related (fresh && first.1 == .finished) first.2 second.2)
  | apart (parts : parted (fresh && first.1 == .finished) first.2
      (fresh && second.1 == .finished) second.2)

theorem current?_moveTo_of_next? {walk : Walk} {token : Token}
    {cursor : TokenCursor} (found : walk.cursor.next? = some (token, cursor)) :
    (walk.moveTo cursor).cursor.current? = some token :=
  (TokenCursor.current?_of_next? found).1

namespace Lockstep

variable {related : Bool → Walk → Walk → Prop}
  {parted : Bool → Walk → Bool → Walk → Prop} {first second : Walk}
  {free fresh : Bool}

theorem any (lock : Lockstep related parted)
    (alike : related fresh first second) : related false first second := by
  cases fresh with
  | false => exact alike
  | true => exact lock.weaken alike

theorem level_of (lock : Lockstep related parted) {outcome other : Outcome}
    (way : outcome.SameWay other) (alike : related fresh first second) :
    Abreast related parted false (outcome, first) (other, second) :=
  .level way (lock.any alike)

/-! Walks that have parted go on on their own. -/

theorem apart_any (lock : Lockstep related parted)
    (parts : parted free first fresh second) :
    parted false first false second :=
  lock.right.any (lock.left.any parts)

theorem abreast_any (lock : Lockstep related parted)
    {left right : Outcome × Walk}
    (agreed : Abreast related parted fresh left right) :
    Abreast related parted false left right := by
  cases agreed with
  | level way alike => exact .level way (lock.any alike)
  | apart parts => exact .apart (lock.apart_any parts)

theorem apart_runs (lock : Lockstep related parted) (rule : Rule)
    (speaks : rule.speaksFirst false)
    (parts : parted false first false second) (fuel : Nat) :
    Abreast related parted rule.freshens (Walk.run fuel rule first)
      (Walk.run fuel rule second) := by
  have fresh := Rule.speaksFresh_of_speaksFirst speaks
  exact .apart (lock.right.run fuel rule second false fresh
    (lock.left.run fuel rule first false fresh parts))

theorem abreast_of_onward (onward : Onward related parted first second) :
    Abreast related parted false (.finished, first) (.finished, second) :=
  onward.elim (fun alike => .level .finished alike) fun parts => .apart parts

theorem agree_advance (lock : Lockstep related parted)
    (alike : related false first second) (expected : Expected) :
    Abreast related parted true (first.advance expected)
      (second.advance expected) := by
  cases lock.next alike with
  | ended left right =>
      rw [advance, advance, left, right]
      exact .level .ended (lock.ended alike left right)
  | token left right text takes later moved =>
      rw [advance, advance, left, right]
      exact .level .finished moved
  | apart parts =>
      exact .apart (lock.right.advance (lock.left.advance parts expected)
        expected)

/-- Both walks take the token that they need, or both stop without it, or they
part. -/
theorem need_cases (lock : Lockstep related parted)
    (alike : related false first second) (expected : Expected) :
    (∃ left right,
      first.need expected = (.finished, left) ∧
      second.need expected = (.finished, right) ∧ related true left right) ∨
    (∃ outcome other left right,
      first.need expected = (outcome, left) ∧
      second.need expected = (other, right) ∧ outcome.SameWay other ∧
      outcome ≠ .finished ∧ related false left right) ∨
    parted false first false second := by
  cases lock.next alike with
  | apart parts => exact .inr (.inr parts)
  | ended left right =>
      right
      left
      rw [need, need, left, right]
      simp only
      rw [advance, advance, left, right]
      exact ⟨_, _, _, _, rfl, rfl, .ended, nofun, lock.ended alike left right⟩
  | token left right text takes later moved =>
      rw [need, need, left, right]
      simp only [takes expected]
      split
      · exact .inl ⟨_, _, rfl, rfl, moved⟩
      · exact .inr (.inl ⟨_, _, _, _, rfl, rfl, .abandoned _ _, nofun,
          lock.abandoned alike left right text moved later⟩)

theorem agree_need (lock : Lockstep related parted)
    (alike : related false first second) (expected : Expected) :
    Abreast related parted true (first.need expected)
      (second.need expected) := by
  rcases lock.need_cases alike expected with
    ⟨left, right, left_eq, right_eq, taken⟩ |
      ⟨outcome, other, left, right, left_eq, right_eq, way, unfinished, stay⟩ |
      parts
  · rw [left_eq, right_eq]
    exact .level .finished taken
  · rw [left_eq, right_eq]
    refine .level way ?_
    rw [beq_eq_false_iff_ne.mpr unfinished]
    exact stay
  · exact .apart (lock.right.need (lock.left.need parts expected) expected)

theorem agree_expect (lock : Lockstep related parted)
    {candidates : List Terminal}
    (meaningful : candidates.all Terminal.isMeaningful)
    (alike : related false first second) :
    Abreast related parted false (first.expect candidates)
      (second.expect candidates) := by
  rcases lock.need_cases alike (.oneOf candidates) with
    ⟨left, right, left_eq, right_eq, taken⟩ |
      ⟨outcome, other, left, right, left_eq, right_eq, way, unfinished, stay⟩ |
      parts
  · obtain ⟨token, counterpart, here, there, text, -⟩ := lock.current taken
    have accepts : (Expected.oneOf candidates).accepts token =
        (Expected.oneOf candidates).accepts counterpart := by
      simp only [Expected.accepts, text]
    rw [expect, expect, left_eq, right_eq]
    simp only [here, there, accepts]
    split
    · exact .level .finished (lock.weaken taken)
    · exact abreast_of_onward
        (lock.rescue meaningful (lock.mismatch taken here there))
  · rw [expect, expect, left_eq, right_eq]
    cases way with
    | finished => exact absurd rfl unfinished
    | abandoned line other => exact .level (.abandoned line other) stay
    | ended => exact .level .ended stay
    | exhausted => exact .level .exhausted stay
  · exact .apart (lock.right.expect (lock.left.expect parts candidates)
      candidates)

/-- Either both walks take one of the candidates, or none does, or they part. -/
theorem take_cases (lock : Lockstep related parted)
    (alike : related false first second) (candidates : List Terminal) :
    (first.cursor.take? candidates = none ∧
      second.cursor.take? candidates = none) ∨
    (∃ terminal cursor place,
      first.cursor.take? candidates = some (terminal, cursor) ∧
      second.cursor.take? candidates = some (terminal, place) ∧
      related true (first.moveTo cursor) (second.moveTo place)) ∨
    parted false first false second := by
  cases lock.next alike with
  | ended left right =>
      left
      rw [TokenCursor.take?, TokenCursor.take?, left, right]
      exact ⟨rfl, rfl⟩
  | @token token other cursor place left right text takes later moved =>
      simp only [TokenCursor.take?, left, right, text]
      cases Terminal.find? candidates other.text with
      | none => exact .inl ⟨rfl, rfl⟩
      | some terminal =>
          exact .inr (.inl ⟨terminal, cursor, place, rfl, rfl, moved⟩)
  | apart parts => exact .inr (.inr parts)

theorem peekIs_eq (lock : Lockstep related parted)
    (alike : related false first second) :
    (∀ candidates,
      first.cursor.peekIs candidates = second.cursor.peekIs candidates) ∨
    parted false first false second := by
  cases lock.next alike with
  | ended left right =>
      left
      intro candidates
      rw [TokenCursor.peekIs, TokenCursor.peekIs, TokenCursor.peek?,
        TokenCursor.peek?, left, right]
  | token left right text takes later moved =>
      left
      intro candidates
      rw [TokenCursor.peekIs, TokenCursor.peekIs, TokenCursor.peek?,
        TokenCursor.peek?, left, right]
      simp only [Option.map_some, Option.any_some, text]
  | apart parts => exact .inr parts

theorem resumes_eq (lock : Lockstep related parted)
    (alike : related false first second) (resumption : Resumption) :
    first.resumes resumption = second.resumes resumption ∨
    parted false first false second := by
  cases resumption with
  | anywhere => exact .inl rfl
  | before terminals =>
      exact (lock.peekIs_eq alike).imp_left fun same => same terminals

theorem lastOnLine_eq (lock : Lockstep related parted)
    (alike : related false first second) :
    first.holds .lastOnLine = second.holds .lastOnLine ∨
    parted false first false second := by
  obtain ⟨here, there, left_eq, right_eq, -⟩ := lock.current alike
  cases lock.next alike with
  | ended left right =>
      left
      simp only [holds, TokenCursor.holds, left_eq, right_eq,
        TokenCursor.peek?, left, right]
      rfl
  | token left right text takes later moved =>
      left
      simp only [holds, TokenCursor.holds, left_eq, right_eq,
        TokenCursor.peek?, left, right]
      exact later
  | apart parts => exact .inr parts

theorem textTest_eq (lock : Lockstep related parted)
    (alike : related fresh first second) {test : Test} (asks : test.asksText) :
    first.holds test = second.holds test := by
  obtain ⟨token, other, left, right, text, -⟩ := lock.current alike
  rw [holds, holds, TokenCursor.holds, TokenCursor.holds, left, right]
  cases test with
  | lastOnLine | ofKind | truthWord => nomatch asks
  | _ => simp only [text]

theorem kindTest_eq_false {walk : Walk} {token : Token} {test : Test}
    (there : walk.cursor.current? = some token)
    (semantic : token.kind.isSemantic) (here : test ≠ .lastOnLine)
    (asks : test.asksText = false) (lexical : test.asksLexical) :
    walk.holds test = false := by
  cases test with
  | lastOnLine => exact absurd rfl here
  | truthWord =>
      have other : token.kind ≠ .keyword := by
        intro keyword
        rw [keyword] at semantic
        nomatch semantic
      simp only [holds, TokenCursor.holds, there,
        beq_eq_false_iff_ne.mpr other, Bool.false_and]
  | ofKind kind =>
      have other : token.kind ≠ kind := by
        rintro rfl
        rw [Test.asksLexical, semantic] at lexical
        nomatch lexical
      simp only [holds, TokenCursor.holds, there, beq_eq_false_iff_ne.mpr other]
  | spelled | sizedType | builtinType | identifier => nomatch asks

theorem holds_cases (lock : Lockstep related parted)
    (alike : related true first second) {test : Test}
    (here : test ≠ .lastOnLine) (lexical : test.asksLexical) :
    first.holds test = second.holds test ∨
      first.holds test = true ∧ second.holds test = false ∧
        parted false first true second := by
  cases asks : test.asksText with
  | true => exact .inl (lock.textTest_eq alike asks)
  | false =>
      obtain ⟨token, other, left, right, text, kinds⟩ := lock.current alike
      rcases kinds rfl with kind | ⟨semantic, parts⟩
      · left
        rw [holds, holds, TokenCursor.holds, TokenCursor.holds, left, right]
        cases test with
        | lastOnLine => exact absurd rfl here
        | _ => simp only [kind, Expected.isTruthWord, text]
      · rw [kindTest_eq_false right semantic here asks lexical]
        cases first.holds test with
        | false => exact .inl rfl
        | true => exact .inr ⟨rfl, rfl, parts⟩

theorem beginning_eq (lock : Lockstep related parted)
    (alike : related true first second) (block : Block) :
    first.beginning block = second.beginning block ∨
    parted false first false second := by
  obtain ⟨token, other, left, right, text, kinds⟩ := lock.current alike
  rcases kinds rfl with kind | ⟨-, parts⟩
  · refine (lock.peekIs_eq (lock.weaken alike)).imp_left fun same => ?_
    rw [beginning, beginning, TokenCursor.beginning, TokenCursor.beginning,
      left, right]
    simp only [Token.isTrivia, text, kind, same]
    rfl
  · exact .inr (lock.apart_any parts)

theorem fst_declare_eq (lock : Lockstep related parted)
    (alike : related fresh first second) (kind : TokenKind)
    (modifiers : Modifiers) :
    (first.declare kind modifiers).1 = (second.declare kind modifiers).1 := by
  obtain ⟨token, other, left, right, text, -⟩ := lock.current alike
  rw [Walk.declare, Walk.declare, left, right]
  simp only [text]
  split <;> rfl

/-- Both walks define the same name, or both stop without one, or they part. -/
theorem define_cases (lock : Lockstep related parted) {kind : TokenKind}
    (semantic : kind.isSemantic) (modifiers : Modifiers)
    (alike : related false first second) :
    (∃ name left right,
      first.define kind modifiers = (.finished, name, left) ∧
      second.define kind modifiers = (.finished, name, right) ∧
      Onward related parted left right) ∨
    (∃ outcome other left right,
      first.define kind modifiers = (outcome, none, left) ∧
      second.define kind modifiers = (other, none, right) ∧
      outcome.SameWay other ∧ outcome ≠ .finished ∧
      related false left right) ∨
    parted false first false second := by
  rcases lock.need_cases alike .identifier with
    ⟨left, right, left_eq, right_eq, taken⟩ |
      ⟨outcome, other, left, right, left_eq, right_eq, way, unfinished, stay⟩ |
      parts
  · left
    rw [define, define, left_eq, right_eq]
    have declared := lock.declare semantic modifiers taken
    have named := lock.fst_declare_eq taken kind modifiers
    refine ⟨(left.declare kind modifiers).1, (left.declare kind modifiers).2,
      (right.declare kind modifiers).2, rfl, ?_, declared⟩
    rw [named]
  · right
    left
    rw [define, define, left_eq, right_eq]
    cases way with
    | finished => exact absurd rfl unfinished
    | abandoned line other =>
        exact ⟨_, _, _, _, rfl, rfl, .abandoned line other, nofun, stay⟩
    | ended => exact ⟨_, _, _, _, rfl, rfl, .ended, nofun, stay⟩
    | exhausted => exact ⟨_, _, _, _, rfl, rfl, .exhausted, nofun, stay⟩
  · exact .inr (.inr parts)

/-! Following a rule. -/

def RulesAgree (related : Bool → Walk → Walk → Prop)
    (parted : Bool → Walk → Bool → Walk → Prop) (fuel : Nat) : Prop :=
  ∀ (rule : Rule) (fresh : Bool) (first second : Walk),
    rule.speaksFirst fresh → related fresh first second →
    Abreast related parted rule.freshens (Walk.run fuel rule first)
      (Walk.run fuel rule second)

theorem onward_openScope (lock : Lockstep related parted)
    (onward : Onward related parted first second) (name : String)
    (kind : TokenKind) :
    Onward related parted (first.openScope name kind)
      (second.openScope name kind) :=
  onward.imp (lock.openScope name kind) fun parts =>
    lock.right.openScope (lock.left.openScope parts name kind) name kind

/-- What follows a rule need not know how fresh its last token is. -/
theorem agree_among (lock : Lockstep related parted) {fuel : Nat}
    (rules : RulesAgree related parted fuel) {rule : Rule}
    (speaks : rule.speaksFirst fresh) (alike : related fresh first second) :
    Abreast related parted false (Walk.run fuel rule first)
      (Walk.run fuel rule second) :=
  lock.abreast_any (rules rule fresh first second speaks alike)

theorem onward_runs (lock : Lockstep related parted) {fuel : Nat}
    (rules : RulesAgree related parted fuel) {rule : Rule}
    (speaks : rule.speaksFirst false)
    (onward : Onward related parted first second) :
    Abreast related parted false (Walk.run fuel rule first)
      (Walk.run fuel rule second) := by
  rcases onward with alike | parts
  · exact lock.agree_among rules speaks alike
  · exact lock.abreast_any (lock.apart_runs rule speaks parts fuel)

theorem agree_seq (lock : Lockstep related parted) {fuel : Nat}
    (rules : RulesAgree related parted fuel) {front back : Rule}
    (speaks : (Rule.seq front back).speaksFirst fresh)
    (alike : related fresh first second) :
    Abreast related parted false (Walk.run (fuel + 1) (.seq front back) first)
      (Walk.run (fuel + 1) (.seq front back) second) := by
  rw [Rule.speaksFirst, Bool.and_eq_true] at speaks
  have agreed := rules front fresh first second speaks.1 alike
  simp only [Walk.run]
  generalize Walk.run fuel front first = left,
    Walk.run fuel front second = right at agreed ⊢
  cases agreed with
  | apart parts =>
      have later := Rule.speaksFresh_of_speaksFirst speaks.2
      exact .apart (lock.right.seq later (lock.left.seq later parts))
  | level way alike =>
      obtain ⟨outcome, left⟩ := left
      obtain ⟨other, right⟩ := right
      cases way with
      | finished =>
          rw [show (Outcome.finished == Outcome.finished) = true from rfl,
            Bool.and_true] at alike
          exact lock.agree_among rules speaks.2 alike
      | abandoned line other => exact lock.level_of (.abandoned _ _) alike
      | ended => exact lock.level_of .ended alike
      | exhausted => exact lock.level_of .exhausted alike

theorem agree_recover (lock : Lockstep related parted) {fuel : Nat}
    (rules : RulesAgree related parted fuel) {resumption : Resumption}
    {body next resumed : Rule}
    (speaks : (Rule.recover resumption body next resumed).speaksFirst fresh)
    (alike : related fresh first second) :
    Abreast related parted false
      (Walk.run (fuel + 1) (.recover resumption body next resumed) first)
      (Walk.run (fuel + 1) (.recover resumption body next resumed) second) := by
  simp only [Rule.speaksFirst, Bool.and_eq_true] at speaks
  obtain ⟨⟨body_speaks, next_speaks⟩, resumed_speaks⟩ := speaks
  have agreed := rules body fresh first second body_speaks alike
  simp only [Walk.run]
  generalize Walk.run fuel body first = left,
    Walk.run fuel body second = right at agreed ⊢
  have next_fresh := Rule.speaksFresh_of_speaksFirst next_speaks
  have resumed_fresh := Rule.speaksFresh_of_speaksFirst resumed_speaks
  cases agreed with
  | apart parts =>
      exact .apart (lock.right.recover next_fresh resumed_fresh
        (lock.left.recover next_fresh resumed_fresh parts))
  | level way alike =>
      have stays := lock.any alike
      obtain ⟨outcome, left⟩ := left
      obtain ⟨other, right⟩ := right
      cases way with
      | finished => exact lock.agree_among rules next_speaks stays
      | abandoned line other =>
          rcases lock.resumes_eq stays resumption with same | parts
          · simp only [same]
            split
            · exact lock.agree_among rules resumed_speaks stays
            · exact lock.level_of (.abandoned line other) stays
          · exact .apart (lock.right.resume fuel other resumption resumed_fresh
              (lock.left.resume fuel line resumption resumed_fresh parts))
      | ended => exact lock.level_of .ended stays
      | exhausted => exact lock.level_of .exhausted stays

/-- What is in step, or apart, behind a rule stays so when its scope closes. -/
theorem closing (lock : Lockstep related parted) {left right : Outcome × Walk}
    (agreed : Abreast related parted free left right) :
    Abreast related parted false (left.1, left.2.closeScope)
      (right.1, right.2.closeScope) := by
  cases lock.abreast_any agreed with
  | level way alike => exact .level way (lock.closeScope alike)
  | apart parts =>
      exact .apart (lock.right.closeScope (lock.left.closeScope parts))

theorem agree_define (lock : Lockstep related parted) {fuel : Nat}
    (rules : RulesAgree related parted fuel) {kind : TokenKind}
    (modifiers : Modifiers) {body : Rule}
    (speaks : (Rule.define kind modifiers body).speaksFirst false)
    (alike : related false first second) :
    Abreast related parted false
      (Walk.run (fuel + 1) (.define kind modifiers body) first)
      (Walk.run (fuel + 1) (.define kind modifiers body) second) := by
  have apart_speaks := speaks
  rw [Rule.speaksFirst, Bool.and_eq_true] at speaks
  obtain ⟨semantic, speaks⟩ := speaks
  rcases lock.define_cases semantic modifiers alike with
    ⟨name, left, right, left_eq, right_eq, walks⟩ |
      ⟨outcome, other, left, right, left_eq, right_eq, way, unfinished, walks⟩ |
      parts
  · simp only [Walk.run, left_eq, right_eq]
    cases openedScope kind name with
    | none => exact lock.onward_runs rules speaks walks
    | some name =>
        exact lock.closing
          (lock.onward_runs rules speaks (lock.onward_openScope walks name kind))
  · simp only [Walk.run, left_eq, right_eq]
    cases way with
    | finished => exact absurd rfl unfinished
    | abandoned line other => exact .level (.abandoned line other) walks
    | ended => exact .level .ended walks
    | exhausted => exact .level .exhausted walks
  · exact lock.apart_runs _ apart_speaks parts (fuel + 1)

theorem agree_signature (lock : Lockstep related parted) {fuel : Nat}
    (rules : RulesAgree related parted fuel) {kind : TokenKind}
    (modifiers : Modifiers) (semantic : kind.isSemantic)
    (alike : related false first second) :
    Abreast related parted false
      (Walk.run (fuel + 1) (.signature kind modifiers) first)
      (Walk.run (fuel + 1) (.signature kind modifiers) second) := by
  rcases lock.define_cases semantic modifiers alike with
    ⟨name, left, right, left_eq, right_eq, walks⟩ |
      ⟨outcome, other, left, right, left_eq, right_eq, way, unfinished, walks⟩ |
      parts
  · simp only [Walk.run, left_eq, right_eq]
    -- With or without parameters, what one walk does alone keeps them apart.
    have alone (parts : parted false left false right) :=
      lock.right.parameters fuel name (lock.left.parameters fuel name parts)
    rcases walks with alike | parts
    · rcases lock.take_cases alike [Operator.leftParen] with
        ⟨left_none, right_none⟩ |
          ⟨_, cursor, place, left_some, right_some, taken⟩ | parts
      · rw [left_none, right_none]
        exact .level .finished alike
      · simp only [left_some, right_some]
        exact lock.closing (rules (.call .parameters) true _ _ rfl
          (lock.openScope (parameterScope name) .nil taken))
      · exact .apart (alone parts)
    · exact .apart (alone parts)
  · simp only [Walk.run, left_eq, right_eq]
    cases way with
    | finished => exact absurd rfl unfinished
    | abandoned line other => exact .level (.abandoned line other) walks
    | ended => exact .level .ended walks
    | exhausted => exact .level .exhausted walks
  · exact lock.apart_runs (.signature kind modifiers) semantic parts (fuel + 1)

theorem agree_statement (lock : Lockstep related parted) {fuel : Nat}
    (rules : RulesAgree related parted fuel) (block : Block)
    (alike : related true first second) :
    Abreast related parted false
      (Walk.run (fuel + 1) (.statement block) first)
      (Walk.run (fuel + 1) (.statement block) second) := by
  rcases lock.beginning_eq alike block with same | parts
  · simp only [Walk.run, same]
    cases second.beginning block with
    | nothing => exact .level .finished (lock.weaken alike)
    | statement statement =>
        exact lock.agree_among rules statement.speaksFirst_rule
          (lock.weaken alike)
    | unexpected => exact abreast_of_onward (lock.complain .unexpectedToken alike)
  · exact .apart (lock.right.begins (fuel + 1) block
      (lock.left.begins (fuel + 1) block parts))

theorem agree_accept (lock : Lockstep related parted) {fuel : Nat}
    (rules : RulesAgree related parted fuel) {candidates : List Terminal}
    {found missing : Rule}
    (speaks : (Rule.accept candidates found missing).speaksFirst false)
    (alike : related false first second) :
    Abreast related parted false
      (Walk.run (fuel + 1) (.accept candidates found missing) first)
      (Walk.run (fuel + 1) (.accept candidates found missing) second) := by
  have apart_speaks := speaks
  simp only [Rule.speaksFirst, Bool.and_eq_true] at speaks
  obtain ⟨⟨-, found_speaks⟩, missing_speaks⟩ := speaks
  rcases lock.take_cases alike candidates with ⟨left_none, right_none⟩ |
    ⟨_, cursor, place, left_some, right_some, taken⟩ | parts
  · simp only [Walk.run, left_none, right_none]
    exact lock.agree_among rules missing_speaks alike
  · simp only [Walk.run, left_some, right_some]
    exact lock.agree_among rules found_speaks taken
  · exact lock.apart_runs _ apart_speaks parts (fuel + 1)

theorem agree_lastOnLine (lock : Lockstep related parted) {fuel : Nat}
    (rules : RulesAgree related parted fuel) {holding failing : Rule}
    (speaks : (Rule.branch .lastOnLine holding failing).speaksFirst false)
    (alike : related false first second) :
    Abreast related parted false
      (Walk.run (fuel + 1) (.branch .lastOnLine holding failing) first)
      (Walk.run (fuel + 1) (.branch .lastOnLine holding failing) second) := by
  have apart_speaks := speaks
  simp only [Rule.speaksFirst, beq_self_eq_true, if_true,
    Bool.and_eq_true] at speaks
  rcases lock.lastOnLine_eq alike with same | parts
  · simp only [Walk.run, same]
    split
    · exact lock.agree_among rules speaks.1 alike
    · exact lock.agree_among rules speaks.2 alike
  · exact lock.apart_runs _ apart_speaks parts (fuel + 1)

theorem agree_branch (lock : Lockstep related parted) {fuel : Nat}
    (rules : RulesAgree related parted fuel) {test : Test}
    (elsewhere : test ≠ .lastOnLine) {holding failing : Rule} {fresh : Bool}
    (speaks : (Rule.branch test holding failing).speaksFirst fresh)
    (alike : related fresh first second) :
    Abreast related parted false
      (Walk.run (fuel + 1) (.branch test holding failing) first)
      (Walk.run (fuel + 1) (.branch test holding failing) second) := by
  rw [Rule.speaksFirst, if_neg (by simpa using elsewhere)] at speaks
  simp only [Bool.and_eq_true] at speaks
  obtain ⟨⟨asks, holding_speaks⟩, failing_speaks⟩ := speaks
  have level (same : first.holds test = second.holds test) :
      Abreast related parted false
        (Walk.run (fuel + 1) (.branch test holding failing) first)
        (Walk.run (fuel + 1) (.branch test holding failing) second) := by
    simp only [Walk.run, same]
    split
    · exact lock.agree_among rules holding_speaks alike
    · exact lock.agree_among rules failing_speaks alike
  rcases Bool.or_eq_true_iff.mp asks with text | kinds
  · exact level (lock.textTest_eq alike text)
  · simp only [Bool.and_eq_true] at kinds
    obtain ⟨⟨rfl, lexical⟩, forgoes⟩ := kinds
    rcases lock.holds_cases alike elsewhere lexical with
      same | ⟨left_holds, right_fails, parts⟩
    · exact level same
    · -- The first walk leaves its token as it is, the second need not.
      have left := lock.left.forgo forgoes parts fuel
      have right := lock.right.any (lock.right.run fuel failing second true
        (Rule.speaksFresh_of_speaksFirst failing_speaks) left)
      simp only [Walk.run, left_holds, right_fails]
      exact .apart right

theorem rulesAgree_succ (lock : Lockstep related parted) {fuel : Nat}
    (rules : RulesAgree related parted fuel) :
    RulesAgree related parted (fuel + 1) := by
  intro rule fresh first second speaks alike
  have stays := lock.any alike
  cases rule with
  | done => exact .level .finished stays
  | seq front back => exact lock.agree_seq rules speaks alike
  | need expected => exact lock.agree_need stays expected
  | expect candidates => exact lock.agree_expect speaks stays
  | accept candidates found missing =>
      exact lock.agree_accept rules speaks stays
  | advance => exact lock.agree_advance stays _
  | branch test holding failing =>
      by_cases ahead : test = .lastOnLine
      · subst ahead
        exact lock.agree_lastOnLine rules speaks stays
      · exact lock.agree_branch rules ahead speaks alike
  | complain complaint =>
      obtain rfl : fresh = true := speaks
      exact abreast_of_onward (lock.complain complaint alike)
  | strings =>
      obtain rfl : fresh = true := speaks
      exact abreast_of_onward (lock.strings alike)
  | resolve =>
      obtain rfl : fresh = true := speaks
      exact abreast_of_onward (lock.resolve alike)
  | define kind modifiers body =>
      exact lock.agree_define rules modifiers speaks stays
  | signature kind modifiers =>
      exact lock.agree_signature rules modifiers speaks stays
  | recover resumption body next resumed =>
      exact lock.agree_recover rules speaks alike
  | statement block =>
      obtain rfl : fresh = true := speaks
      exact lock.agree_statement rules block alike
  | call nonterminal =>
      exact lock.agree_among rules nonterminal.speaksFirst_rule stays

/-- Walks in step that follow one rule stay in step, or they part. -/
theorem rulesAgree (lock : Lockstep related parted) (fuel : Nat) :
    RulesAgree related parted fuel := by
  induction fuel with
  | zero =>
      intro rule fresh first second _ alike
      refine .level .exhausted ?_
      change related (rule.freshens && false) first second
      rw [Bool.and_false]
      exact lock.any alike
  | succ fuel rules => exact lock.rulesAgree_succ rules

/-! The statements of a document. -/

/-- Walks in step stay so along the statements of a document, or they part. -/
theorem statements (lock : Lockstep related parted) (steps fuel : Nat)
    (alike : related true first second) :
    Onward related parted (Walk.statements (fun _ => false) steps fuel first).2
      (Walk.statements (fun _ => false) steps fuel second).2 := by
  induction fuel generalizing first second with
  | zero => exact .inl (lock.weaken alike)
  | succ fuel induction =>
      have agreed :=
        lock.rulesAgree steps (.statement .document) true first second rfl alike
      rw [statements_step, statements_step]
      generalize Walk.run steps (.statement .document) first = left,
        Walk.run steps (.statement .document) second = right at agreed ⊢
      cases agreed with
      | apart parts =>
          exact .inr (lock.right.turn (lock.left.turn parts steps fuel) steps
            fuel)
      | level way alike =>
          have settled := lock.settle alike
          have ended_iff : left.1 = .ended ↔ right.1 = .ended := by
            obtain ⟨outcome, left⟩ := left
            obtain ⟨other, right⟩ := right
            cases way <;> simp
          simp only [ended_iff]
          split
          · exact .inl settled
          · unfold furtherStatements
            cases lock.next settled with
            | ended left_none right_none =>
                rw [left_none, right_none]
                exact .inl settled
            | token left_some right_some text kind later moved =>
                rw [left_some, right_some]
                exact induction moved
            | apart parts =>
                exact .inr (lock.right.goOn (lock.left.goOn parts steps fuel)
                  steps fuel)

end Lockstep

end Walk

end ComponentLang
