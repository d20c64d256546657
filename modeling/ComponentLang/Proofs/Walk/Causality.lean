import ComponentLang.Proofs.Token.Extension
import ComponentLang.Proofs.Walk.Lockstep

namespace ComponentLang.Walk

variable {walk first second : Walk} {count : Nat} {token : Token}
  {tokens : List Token} {fresh : Bool}

/-! What is said of the first lines. -/

/-- What a walk has to say of the first lines of a document. -/
structure Account where
  tokens : List Token
  classified : List Token
  symbols : List Symbol

def account (count : Nat) (walk : Walk) : Account where
  tokens := walk.cursor.toList.filter fun token => token.line < count
  classified := walk.classified.filter fun token => token.line < count
  symbols := walk.symbols.toList.filter fun symbol => symbol.line < count

theorem account_moveTo {cursor : TokenCursor}
    (same : cursor.toList = walk.cursor.toList) :
    (walk.moveTo cursor).account count = walk.account count := by
  rw [account, account, moveTo, same]

theorem account_classify (there : walk.cursor.current? = some token)
    (late : count ≤ token.line) (kind : TokenKind) (modifiers : Modifiers) :
    (walk.classify kind modifiers).account count = walk.account count := by
  obtain ⟨⟨passed, _ | ⟨current, rest⟩⟩, scopes, symbols, classified, findings,
    resets⟩ := walk
  · nomatch there
  · cases there
    have out : ¬token.line < count := Nat.not_lt.mpr late
    simp [account, classify, TokenCursor.reclassify, TokenCursor.toList,
      TokenCursor.current?, Token.reclassify, out]

theorem account_register {symbol : Symbol} (late : count ≤ symbol.line) :
    account count
        { walk with symbols := (walk.symbols.declare symbol).2 } =
      walk.account count := by
  simp only [account, SymbolTable.toList_declare]
  split
  · rfl
  · rw [List.filter_append, List.filter_cons_of_neg (by simpa using late),
      List.filter_nil, List.append_nil]

theorem account_reportDuplicate (registration : Registration)
    (kind : TokenKind) (token : Token) :
    (walk.reportDuplicate registration kind token).account count =
      walk.account count := by
  obtain ⟨findings, same⟩ := walk.exists_reportDuplicate registration kind token
  rw [same]
  rfl

/-! Beyond the first lines. -/

structure Beyond (count : Nat) (fresh : Bool) (walk : Walk) : Prop where
  behind : ∀ token ∈ walk.cursor.behind, token.isTrivia = false →
    count ≤ token.line
  current : fresh → ∀ token, walk.cursor.current? = some token →
    count ≤ token.line

/-- The walk is beyond the first lines and has said of them what is known. -/
def Settled (count : Nat) (known : Account) (fresh : Bool) (walk : Walk) :
    Prop :=
  walk.Beyond count fresh ∧ walk.account count = known

namespace Settled

variable {known : Account}

theorem weaken (settled : Settled count known fresh walk) :
    Settled count known false walk :=
  ⟨⟨settled.1.behind, nofun⟩, settled.2⟩

theorem moveTo (settled : Settled count known fresh walk) {cursor : TokenCursor}
    (further : cursor.behind <:+ walk.cursor.behind)
    (same : cursor.toList = walk.cursor.toList) :
    Settled count known false (walk.moveTo cursor) :=
  ⟨⟨fun token member => settled.1.behind token (further.mem member), nofun⟩,
    (account_moveTo same).trans settled.2⟩

theorem report (settled : Settled count known fresh walk) (cause : Cause)
    (anchor : Token) : Settled count known fresh (walk.report cause anchor) :=
  ⟨⟨settled.1.behind, settled.1.current⟩, settled.2⟩

theorem behind_suffix {cursor reached : TokenCursor} {skipped : List Token}
    (behind_eq : cursor.behind = skipped ++ token :: reached.behind) :
    reached.behind <:+ cursor.behind := by
  rw [behind_eq]
  exact (List.suffix_cons token reached.behind).trans
    (List.suffix_append skipped _)

theorem next (settled : Settled count known false walk)
    {reached : TokenCursor}
    (found : walk.cursor.next? = some (token, reached)) :
    Settled count known true (walk.moveTo reached) := by
  obtain ⟨skipped, behind_eq, -⟩ := TokenCursor.behind_of_next? found
  obtain ⟨there, carries⟩ := TokenCursor.current?_of_next? found
  have moved := settled.moveTo (behind_suffix behind_eq)
    (TokenCursor.toList_of_next? found)
  refine ⟨⟨moved.1.behind, fun _ current current_eq => ?_⟩, moved.2⟩
  obtain rfl : token = current := Option.some.inj (there.symm.trans current_eq)
  refine settled.1.behind token ?_ carries
  rw [behind_eq]
  exact List.mem_append_right _ List.mem_cons_self

theorem rescue (settled : Settled count known fresh walk)
    {candidates : List Terminal} {reached : TokenCursor}
    (found : walk.cursor.rescue? candidates = some reached) :
    Settled count known false (walk.moveTo reached) := by
  obtain ⟨skipped, token, behind_eq, -⟩ := TokenCursor.behind_of_rescue? found
  exact settled.moveTo (behind_suffix behind_eq)
    (TokenCursor.toList_of_rescue? found)

theorem strings (settled : Settled count known fresh walk) :
    Settled count known false walk.strings := by
  refine settled.moveTo ?_ (TokenCursor.toList_passStrings _)
  rcases TokenCursor.behind_passStrings walk.cursor with same |
    ⟨skipped, token, behind_eq, -⟩
  · exact ⟨[], congrArg TokenCursor.behind same⟩
  · exact behind_suffix behind_eq

theorem resolve (settled : Settled count known true walk) :
    Settled count known false walk.resolve := by
  refine ⟨⟨by rw [behind_resolve]; exact settled.1.behind, nofun⟩, ?_⟩
  unfold Walk.resolve
  split
  · exact settled.2
  · next token there =>
      have late := settled.1.current rfl token there
      split
      · split
        · exact (account_classify there late _ _).trans settled.2
        · exact settled.2
      · exact settled.2

theorem declare (settled : Settled count known true walk) (kind : TokenKind)
    (modifiers : Modifiers) :
    Settled count known false (walk.declare kind modifiers).2 := by
  refine ⟨⟨by rw [behind_declare]; exact settled.1.behind, nofun⟩, ?_⟩
  unfold Walk.declare
  split
  · exact settled.2
  · next token there =>
      have late := settled.1.current rfl token there
      split
      · rw [account_classify (by rw [cursor_reportDuplicate]; exact there) late,
          account_reportDuplicate, account_register late]
        exact settled.2
      · exact settled.2

end Settled

def Apart (count : Nat) (free : Bool) (first : Walk) (fresh : Bool)
    (second : Walk) : Prop :=
  Settled count (second.account count) free first ∧ second.Beyond count fresh

theorem Apart.symm {free : Bool} (apart : Apart count free first fresh second) :
    Apart count fresh second free first :=
  ⟨⟨apart.2, apart.1.2.symm⟩, apart.1.1⟩

theorem steady_apart (count : Nat) (fresh : Bool) (second : Walk) :
    SteadyInvariant fun free first => Apart count free first fresh second where
  weaken apart := ⟨apart.1.weaken, apart.2⟩
  scopes apart := ⟨⟨⟨apart.1.1.behind, apart.1.1.current⟩, apart.1.2⟩, apart.2⟩
  next apart found := ⟨apart.1.next found, apart.2⟩
  ended apart _ := ⟨apart.1.report _ _, apart.2⟩
  abandoned apart _ := ⟨apart.1.report _ _, apart.2⟩
  report apart _ _ := ⟨apart.1.report _ _, apart.2⟩
  rescue apart found := ⟨apart.1.rescue found, apart.2⟩
  strings apart := ⟨apart.1.strings, apart.2⟩
  resolve apart := ⟨apart.1.resolve, apart.2⟩
  declare _ apart := ⟨apart.1.declare _ _, apart.2⟩
  reported apart := ⟨apart.1.report _ _, apart.2⟩
  passed apart := ⟨apart.1.strings, apart.2⟩

theorem steady_apart_right (count : Nat) (free : Bool) (first : Walk) :
    SteadyInvariant fun fresh second =>
      Apart count free first fresh second := by
  have same : (fun fresh second => Apart count free first fresh second) =
      fun fresh second => Apart count fresh second free first :=
    funext₂ fun _ _ => propext ⟨.symm, .symm⟩
  rw [same]
  exact steady_apart count free first

/-! Within the first lines. -/

def extend (walk : Walk) (tokens : List Token) : Walk :=
  walk.moveTo (walk.cursor.extend tokens)

structure Within (count : Nat) (walk : Walk) : Prop where
  stands : ∃ token, walk.cursor.current? = some token
  ahead : ∀ token ∈ walk.cursor.ahead, token.line < count

/-- The walks are one walk within the first lines, over documents that go on
differently. -/
inductive InCommon (count : Nat) (fresh : Bool) : Walk → Walk → Prop where
  | mk {walk : Walk} {left right : List Token} (within : walk.Within count)
      (left_late : ∀ token ∈ left, count ≤ token.line)
      (right_late : ∀ token ∈ right, count ≤ token.line) :
      InCommon count fresh (walk.extend left) (walk.extend right)

theorem settle_extend (tokens : List Token) :
    (walk.extend tokens).settle = walk.settle.extend tokens := by
  rw [extend, extend, settle_moveTo, cursor_settle]

theorem reportDuplicate_extend (tokens : List Token)
    (registration : Registration) (kind : TokenKind) (token : Token) :
    (walk.extend tokens).reportDuplicate registration kind token =
      (walk.reportDuplicate registration kind token).extend tokens := by
  unfold reportDuplicate
  split
  · split <;> rfl
  · rfl

section Extend

variable (there : walk.cursor.current? = some token) (tokens : List Token)

include there

theorem current?_extend :
    (walk.extend tokens).cursor.current? = some token :=
  TokenCursor.current?_extend there tokens

theorem classify_extend (kind : TokenKind) (modifiers : Modifiers) :
    (walk.extend tokens).classify kind modifiers =
      (walk.classify kind modifiers).extend tokens := by
  obtain ⟨⟨passed, _ | ⟨current, rest⟩⟩, scopes, symbols, classified, findings,
    resets⟩ := walk
  · nomatch there
  · rfl

theorem complain_extend (complaint : Complaint) :
    (walk.extend tokens).complain complaint =
      (walk.complain complaint).extend tokens := by
  rw [complain, complain, current?_extend there, there]
  cases complaint <;> rfl

theorem resolve_extend :
    (walk.extend tokens).resolve = walk.resolve.extend tokens := by
  rw [resolve, resolve, current?_extend there, there]
  have same (name : String) : (walk.extend tokens).symbols.lookup? name =
      walk.symbols.lookup? name := rfl
  simp only [same]
  split
  · split
    · exact classify_extend there tokens _ _
    · rfl
  · rfl

theorem strings_extend
    (goes_on : ¬∀ other ∈ walk.strings.cursor.behind, other.isTrivia) :
    (walk.extend tokens).strings = walk.strings.extend tokens := by
  have passed := TokenCursor.passStrings_extend there tokens
  have same := passed.resolve_right fun ends => goes_on ends.1
  exact congrArg walk.moveTo same

theorem declare_extend (kind : TokenKind) (modifiers : Modifiers) :
    ((walk.extend tokens).declare kind modifiers).2 =
      (walk.declare kind modifiers).2.extend tokens := by
  rw [declare, declare, current?_extend there, there]
  simp only
  split
  · have registered (symbols : SymbolTable) :
        { walk.extend tokens with symbols } =
          extend { walk with symbols } tokens := rfl
    rw [registered, reportDuplicate_extend, classify_extend]
    · rfl
    · rw [cursor_reportDuplicate]
      exact there
  · rfl

end Extend

namespace Within

theorem exists_cons (within : walk.Within count) :
    ∃ token, walk.cursor.ahead = token :: walk.cursor.behind ∧
      walk.cursor.current? = some token ∧ token.line < count := by
  obtain ⟨token, there⟩ := within.stands
  have ahead := TokenCursor.ahead_of_current? there
  refine ⟨token, ahead, there, within.ahead token ?_⟩
  rw [ahead]
  exact List.mem_cons_self

theorem report (within : walk.Within count) (cause : Cause) (anchor : Token) :
    (walk.report cause anchor).Within count :=
  ⟨within.stands, within.ahead⟩

theorem moveTo (within : walk.Within count) {reached : TokenCursor}
    {skipped : List Token}
    (behind_eq : walk.cursor.behind = skipped ++ token :: reached.behind)
    (there : reached.current? = some token) :
    (walk.moveTo reached).Within count := by
  refine ⟨⟨token, there⟩, fun other member => within.ahead other ?_⟩
  change other ∈ reached.ahead at member
  apply List.mem_of_mem_tail
  change other ∈ walk.cursor.behind
  rw [TokenCursor.ahead_of_current? there] at member
  rw [behind_eq]
  exact List.mem_append_right _ member

theorem next (within : walk.Within count) {reached : TokenCursor}
    (found : walk.cursor.next? = some (token, reached)) :
    (walk.moveTo reached).Within count := by
  obtain ⟨skipped, behind_eq, -⟩ := TokenCursor.behind_of_next? found
  exact within.moveTo behind_eq (TokenCursor.current?_of_next? found).1

theorem rescue (within : walk.Within count) {candidates : List Terminal}
    {reached : TokenCursor}
    (found : walk.cursor.rescue? candidates = some reached) :
    (walk.moveTo reached).Within count := by
  obtain ⟨skipped, token, behind_eq, there, -⟩ :=
    TokenCursor.behind_of_rescue? found
  exact within.moveTo behind_eq there

theorem strings (within : walk.Within count) : walk.strings.Within count := by
  rcases TokenCursor.behind_passStrings walk.cursor with same |
    ⟨skipped, token, behind_eq, there, -⟩
  · rw [Walk.strings, same]
    exact ⟨within.stands, within.ahead⟩
  · exact within.moveTo behind_eq there

theorem classify (within : walk.Within count) (kind : TokenKind)
    (modifiers : Modifiers) : (walk.classify kind modifiers).Within count := by
  obtain ⟨token, ahead, there, early⟩ := within.exists_cons
  have moved : (walk.classify kind modifiers).cursor.current? =
      some (token.reclassify kind modifiers) := by
    rw [Walk.classify, TokenCursor.current?_reclassify, there]
    rfl
  refine ⟨⟨_, moved⟩, ?_⟩
  rw [TokenCursor.ahead_of_current? moved, Walk.classify,
    TokenCursor.behind_reclassify]
  refine List.forall_mem_cons.mpr ⟨early, fun other member => ?_⟩
  exact within.ahead other (List.mem_of_mem_tail member)

theorem complain (within : walk.Within count) (complaint : Complaint) :
    (walk.complain complaint).Within count := by
  unfold Walk.complain
  split
  · exact within
  · cases complaint <;> exact within.report _ _

theorem resolve (within : walk.Within count) : walk.resolve.Within count := by
  unfold Walk.resolve
  split
  · exact within
  · split
    · split
      · exact within.classify _ _
      · exact within.report _ _
    · exact within.report _ _

theorem declare (within : walk.Within count) (kind : TokenKind)
    (modifiers : Modifiers) : (walk.declare kind modifiers).2.Within count := by
  unfold Walk.declare
  split
  · exact within
  · next token there =>
      split
      · apply Within.classify
        constructor
        · rw [cursor_reportDuplicate]
          exact within.stands
        · rw [cursor_reportDuplicate]
          exact within.ahead
      · exact within.report _ _

theorem settle (within : walk.Within count) : walk.settle.Within count := by
  unfold Walk.settle
  split
  · exact within
  · exact ⟨within.stands, within.ahead⟩

end Within

/-! Where the walks part. -/

theorem account_extend (late : ∀ token ∈ tokens, count ≤ token.line) :
    (walk.extend tokens).account count = walk.account count := by
  have none_early : tokens.filter (fun token => token.line < count) = [] := by
    rw [List.filter_eq_nil_iff]
    intro token member
    have := late token member
    simpa using this
  simp only [account, extend, moveTo, TokenCursor.toList_extend,
    List.filter_append, none_early, List.append_nil]

theorem Within.beyond (within : walk.Within count)
    (rest : ∀ token ∈ walk.cursor.behind, token.isTrivia)
    (late : ∀ token ∈ tokens, count ≤ token.line) :
    (walk.extend tokens).Beyond count false := by
  obtain ⟨current, -, there, -⟩ := within.exists_cons
  refine ⟨fun token member carries => ?_, nofun⟩
  change token ∈ (walk.cursor.extend tokens).behind at member
  rw [TokenCursor.behind_extend there] at member
  rcases List.mem_append.mp member with early | later
  · rw [rest token early] at carries
    nomatch carries
  · exact late token later

theorem Within.beyond_strings (within : walk.Within count)
    (rest : ∀ token ∈ walk.strings.cursor.behind, token.isTrivia)
    (late : ∀ token ∈ tokens, count ≤ token.line) :
    (walk.extend tokens).strings.Beyond count false := by
  obtain ⟨current, -, there, -⟩ := within.exists_cons
  rcases TokenCursor.passStrings_extend there tokens with same | ⟨-, subset⟩
  · have strings_eq : (walk.extend tokens).strings =
        walk.strings.extend tokens := congrArg walk.moveTo same
    rw [strings_eq]
    exact within.strings.beyond rest late
  · exact ⟨fun token member _ => late token (subset member), nofun⟩

theorem Within.rescue_extend (within : walk.Within count)
    (late : ∀ token ∈ tokens, count ≤ token.line)
    (candidates : List Terminal) :
    (walk.extend tokens).rescue candidates =
      (walk.rescue candidates).extend tokens := by
  obtain ⟨current, -, there, early⟩ := within.exists_cons
  have outside : ∀ token ∈ tokens, token.line ≠ current.line := by
    intro token member
    have := late token member
    omega
  have found := TokenCursor.rescue?_extend there outside candidates
  rw [Walk.rescue, Walk.rescue, extend, Walk.moveTo, found]
  cases walk.cursor.rescue? candidates <;> rfl

theorem Within.rescued (within : walk.Within count)
    (candidates : List Terminal) : (walk.rescue candidates).Within count := by
  unfold Walk.rescue
  split
  · next reached found => exact within.rescue found
  · exact within

namespace InCommon

theorem current? (common : InCommon count fresh first second) :
    ∃ token, first.cursor.current? = some token ∧
      second.cursor.current? = some token := by
  obtain ⟨within, -, -⟩ := common
  obtain ⟨token, there⟩ := within.stands
  exact ⟨token, current?_extend there _, current?_extend there _⟩

theorem account_eq (common : InCommon count fresh first second) :
    first.account count = second.account count := by
  obtain ⟨within, left_late, right_late⟩ := common
  rw [account_extend left_late, account_extend right_late]

theorem place_eq (common : InCommon count fresh first second) :
    first.place = second.place := by
  obtain ⟨token, here, there⟩ := common.current?
  rw [place, place, TokenCursor.place, TokenCursor.place, here, there]

theorem isLater_eq (common : InCommon count fresh first second)
    (token : Token) : first.isLater token = second.isLater token := by
  obtain ⟨token, here, there⟩ := common.current?
  rw [isLater, isLater, TokenCursor.isLater, TokenCursor.isLater, here, there]

theorem report (common : InCommon count fresh first second) (cause : Cause)
    (anchor : Token) :
    InCommon count fresh (first.report cause anchor)
      (second.report cause anchor) := by
  obtain ⟨within, left_late, right_late⟩ := common
  exact .mk (within.report cause anchor) left_late right_late

theorem next (common : InCommon count false first second) :
    ComeAlike (InCommon count) (Apart count) first second := by
  have accounts := common.account_eq
  have later := common.isLater_eq
  obtain @⟨walk, left, right, within, left_late, right_late⟩ := common
  cases next_eq : walk.cursor.next? with
  | none =>
      have rest : ∀ token ∈ walk.cursor.behind, token.isTrivia :=
        fun _ => TokenCursor.isTrivia_of_next? next_eq
      exact .apart ⟨⟨within.beyond rest left_late, accounts⟩,
        within.beyond rest right_late⟩
  | some place =>
      obtain ⟨token, reached⟩ := place
      exact .of_kind (TokenCursor.next?_extend next_eq left)
        (TokenCursor.next?_extend next_eq right) rfl rfl (later token)
        (.mk (within.next next_eq) left_late right_late)

theorem strings (common : InCommon count true first second) :
    InCommon count false first.strings second.strings ∨
      Apart count false first.strings false second.strings := by
  have accounts := common.account_eq
  obtain @⟨walk, left, right, within, left_late, right_late⟩ := common
  obtain ⟨current, there⟩ := within.stands
  by_cases rest : ∀ token ∈ walk.strings.cursor.behind, token.isTrivia
  · right
    refine ⟨⟨within.beyond_strings rest left_late, ?_⟩,
      within.beyond_strings rest right_late⟩
    rw [Walk.strings, Walk.strings,
      account_moveTo (TokenCursor.toList_passStrings _),
      account_moveTo (TokenCursor.toList_passStrings _), accounts]
  · left
    rw [strings_extend there left rest, strings_extend there right rest]
    exact .mk within.strings left_late right_late

end InCommon

theorem lockstep_inCommon (count : Nat) :
    Lockstep (InCommon count) (Apart count) where
  left := steady_apart count _ _
  right := steady_apart_right count _ _
  weaken := by
    rintro _ _ ⟨within, left_late, right_late⟩
    exact .mk within left_late right_late
  current common := by
    obtain ⟨token, here, there⟩ := common.current?
    exact ⟨token, token, here, there, rfl, fun _ => .inl rfl⟩
  next common := common.next
  ended common _ _ := by
    rw [common.place_eq]
    exact common.report _ _
  abandoned := by
    intro first second token reached other arrived expected common left right _
      moved _
    obtain ⟨current, here, there⟩ := moved.current?
    rw [current?_moveTo_of_next? left] at here
    rw [current?_moveTo_of_next? right] at there
    cases here
    cases there
    rw [common.isLater_eq, common.place_eq]
    exact common.report _ _
  mismatch := by
    intro first second token other candidates common left right
    obtain ⟨current, here, there⟩ := common.current?
    cases left.symm.trans here
    cases right.symm.trans there
    exact common.report _ _
  rescue := by
    rintro _ _ candidates - ⟨within, left_late, right_late⟩
    rw [within.rescue_extend left_late, within.rescue_extend right_late]
    exact .inl (.mk (within.rescued candidates) left_late right_late)
  complain complaint := by
    rintro ⟨within, left_late, right_late⟩
    obtain ⟨current, there⟩ := within.stands
    rw [complain_extend there, complain_extend there]
    exact .inl (.mk (within.complain complaint) left_late right_late)
  strings common := common.strings
  resolve := by
    rintro _ _ ⟨within, left_late, right_late⟩
    obtain ⟨current, there⟩ := within.stands
    rw [resolve_extend there, resolve_extend there]
    exact .inl (.mk within.resolve left_late right_late)
  declare := by
    rintro _ _ kind - modifiers ⟨within, left_late, right_late⟩
    obtain ⟨current, there⟩ := within.stands
    rw [declare_extend there, declare_extend there]
    exact .inl (.mk (within.declare kind modifiers) left_late right_late)
  openScope name kind := by
    rintro @⟨walk, left, right, within, left_late, right_late⟩
    change InCommon count _ ((walk.openScope name kind).extend left)
      ((walk.openScope name kind).extend right)
    exact .mk ⟨within.stands, within.ahead⟩ left_late right_late
  closeScope := by
    rintro _ _ _ @⟨walk, left, right, within, left_late, right_late⟩
    change InCommon count _ (walk.closeScope.extend left)
      (walk.closeScope.extend right)
    exact .mk ⟨within.stands, within.ahead⟩ left_late right_late
  settle := by
    rintro _ _ _ ⟨within, left_late, right_late⟩
    rw [settle_extend, settle_extend]
    exact .mk within.settle left_late right_late

theorem beyond_start (late : ∀ token ∈ tokens, count ≤ token.line) :
    (start tokens).Beyond count true := by
  refine ⟨fun token member _ => late token (List.mem_of_mem_tail member),
    fun _ token there => late token ?_⟩
  exact List.mem_of_mem_head? there

theorem account_start (late : ∀ token ∈ tokens, count ≤ token.line) :
    (start tokens).account count = (start []).account count := by
  have empty : start tokens = (start []).extend tokens := rfl
  rw [empty, account_extend late]

/-- Documents that share their first lines are told the same of these. -/
theorem account_document {front left right : List Token}
    (early : ∀ token ∈ front, token.line < count)
    (left_late : ∀ token ∈ left, count ≤ token.line)
    (right_late : ∀ token ∈ right, count ≤ token.line) :
    (document (fun _ => false) (front ++ left)).2.account count =
      (document (fun _ => false) (front ++ right)).2.account count := by
  have lock := lockstep_inCommon count
  cases front with
  | nil =>
      have apart : Apart count true (start left) true (start right) :=
        ⟨⟨beyond_start left_late, by
          rw [account_start left_late, account_start right_late]⟩,
          beyond_start right_late⟩
      have first := lock.left.document (fun _ => false) apart
      have both := lock.right.document (fun _ => false) first
      exact both.1.2
  | cons token rest =>
      have within : (start (token :: rest)).Within count := ⟨⟨token, rfl⟩, early⟩
      have common : InCommon count true (start (token :: rest ++ left))
        (start (token :: rest ++ right)) := .mk within left_late right_late
      have fits := Nat.le_max_left (token :: rest ++ left).length
        (token :: rest ++ right).length
      have enough := Nat.le_max_right (token :: rest ++ left).length
        (token :: rest ++ right).length
      have some_token (others : List Token) : token :: rest ++ others ≠ [] :=
        List.cons_ne_nil token (rest ++ others)
      rw [document_eq_statements (some_token left) fits fits,
        document_eq_statements (some_token right) enough enough]
      rcases lock.statements _ _ common with together | apart
      · exact together.account_eq
      · exact apart.1.2

end ComponentLang.Walk
