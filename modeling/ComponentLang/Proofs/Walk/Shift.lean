import ComponentLang.Proofs.Symbol.Tables
import ComponentLang.Proofs.Token.Pairing
import ComponentLang.Proofs.Token.Shift
import ComponentLang.Proofs.Walk.Lockstep

namespace ComponentLang

/-- What a diagnostic says, and where. -/
structure Notice where
  severity : Severity
  code : DiagnosticCode
  message : String
  line : Nat
  column : Nat
  length : Nat
  deriving DecidableEq, Repr

namespace Notice

def shift (count : Nat) (notice : Notice) : Notice :=
  { notice with line := notice.line + count }

def position (notice : Notice) : Position :=
  ⟨notice.line, notice.column⟩

theorem count_le_of_mem_map_shift {count : Nat} {notices : List Notice} :
    ∀ notice ∈ notices.map (shift count), count ≤ notice.line := by
  intro notice member
  obtain ⟨original, -, rfl⟩ := List.mem_map.mp member
  exact Nat.le_add_left count original.line

end Notice

def Diagnostic.notice (diagnostic : Diagnostic) : Notice where
  severity := diagnostic.severity
  code := diagnostic.code
  message := diagnostic.message
  line := diagnostic.token.line
  column := diagnostic.token.column
  length := diagnostic.token.length

/-- Whether what is reported depends on the names that are known. -/
def DiagnosticCode.concernsNames : DiagnosticCode → Bool
  | .unknownIdentifier | .duplicateDeclaration => true
  | _ => false

namespace Finding

def concernsNames (finding : Finding) : Bool :=
  finding.cause.code.concernsNames

def notice (finding : Finding) : Notice :=
  (finding.diagnostic .error).notice

def notices (findings : List Finding) : List Notice :=
  (findings.filter fun finding => !finding.concernsNames).map notice

theorem notices_cons {cause : Cause}
    (grammar : cause.code.concernsNames = false) (anchor : Token)
    (findings : List Finding) :
    notices (⟨cause, anchor⟩ :: findings) =
      notice ⟨cause, anchor⟩ :: notices findings := by
  rw [notices, List.filter_cons_of_pos (by simp [concernsNames, grammar])]
  rfl

theorem notices_cons_of_concernsNames {cause : Cause}
    (names : cause.code.concernsNames) (anchor : Token)
    (findings : List Finding) :
    notices (⟨cause, anchor⟩ :: findings) = notices findings := by
  rw [notices, List.filter_cons_of_neg (by simp [concernsNames, names])]
  rfl

theorem notices_append (front back : List Finding) :
    notices (front ++ back) = notices front ++ notices back := by
  rw [notices, List.filter_append, List.map_append]
  rfl

theorem notices_reverse (findings : List Finding) :
    notices findings.reverse = (notices findings).reverse := by
  rw [notices, List.filter_reverse, List.map_reverse]
  rfl

end Finding

namespace Walk

open TokenCursor (Below)

variable {count : Nat} {base first second : Walk} {fresh : Bool}

/-- The second walk is on the same tokens as the first one, further down, and
says the same of them but for what concerns names. Before, it was at `base`. -/
structure Shifted (count : Nat) (base : Walk) (fresh : Bool)
    (first second : Walk) : Prop where
  cursor : Below count base.cursor.passed fresh first.cursor second.cursor
  first_plain : first.symbols.IsPlain
  second_plain : second.symbols.IsPlain
  classified : declared second.classified =
    (declared first.classified).map (Token.shift count) ++
      declared base.classified
  notices : Finding.notices second.findings =
    (Finding.notices first.findings).map (Notice.shift count) ++
      Finding.notices base.findings

namespace Shifted

theorem weaken (shifted : Shifted count base true first second) :
    Shifted count base false first second :=
  { shifted with cursor := shifted.cursor.weaken }

theorem moveTo {free : Bool} (shifted : Shifted count base free first second)
    {cursor cursorBelow : TokenCursor}
    (below : Below count base.cursor.passed fresh cursor cursorBelow) :
    Shifted count base fresh (first.moveTo cursor)
      (second.moveTo cursorBelow) :=
  { shifted with cursor := below }

theorem exists_current (shifted : Shifted count base fresh first second) :
    ∃ token other, first.cursor.current? = some token ∧
      second.cursor.current? = some other ∧ other.text = token.text ∧
      other.line = token.line + count ∧ other.column = token.column ∧
      (fresh → other = token.shift count) := by
  obtain ⟨⟨passed, ahead⟩, scopes, symbols, classified, findings, resets⟩ :=
    first
  obtain ⟨⟨others, further⟩, _, _, _, _, _⟩ := second
  cases shifted.cursor with
  | @mk _ _ rest token other passed_below same untouched plain =>
      have texts := congrArg Token.text same
      have columns := congrArg Token.column same
      rw [Token.text_face, Token.text_face] at texts
      rw [Token.column_face, Token.column_face] at columns
      exact ⟨token, other, rfl, rfl, texts, Below.line_eq_of_face same, columns,
        fun here => (untouched here).1⟩

theorem place_eq (shifted : Shifted count base fresh first second) :
    Token.marker second.place = (Token.marker first.place).shift count := by
  obtain ⟨token, other, left, right, text, line, column, -⟩ :=
    shifted.exists_current
  rw [place, place, TokenCursor.place, TokenCursor.place, left, right]
  simp only [Option.map_some, Option.getD_some, Token.stop, Token.length,
    text, line, column]
  rfl

theorem isLater_eq (shifted : Shifted count base fresh first second)
    (token : Token) :
    second.isLater (token.shift count) = first.isLater token := by
  obtain ⟨current, other, left, right, -, line, -⟩ := shifted.exists_current
  rw [isLater, isLater, TokenCursor.isLater, TokenCursor.isLater, left, right,
    Option.any_some, Option.any_some, line,
    Bool.eq_iff_iff, decide_eq_true_iff, decide_eq_true_iff]
  exact Nat.add_lt_add_iff_right

/-! What is found. -/

theorem report (shifted : Shifted count base fresh first second)
    {cause causeBelow : Cause} {anchor : Token}
    (grammar : cause.code.concernsNames = false)
    (code : causeBelow.code = cause.code)
    (message : causeBelow.message anchor.text = cause.message anchor.text) :
    Shifted count base fresh (first.report cause anchor)
      (second.report causeBelow (anchor.shift count)) := by
  refine { shifted with notices := ?_ }
  have grammarBelow : causeBelow.code.concernsNames = false := by
    rw [code, grammar]
  have same : Finding.notice ⟨causeBelow, anchor.shift count⟩ =
      (Finding.notice ⟨cause, anchor⟩).shift count := by
    simp only [Finding.notice, Finding.diagnostic, Diagnostic.notice, code,
      Token.shift, message]
    rfl
  simp only [Walk.report]
  rw [Finding.notices_cons grammar, Finding.notices_cons grammarBelow, same,
    shifted.notices]
  rfl

theorem report_same (shifted : Shifted count base fresh first second)
    {cause : Cause} (grammar : cause.code.concernsNames = false)
    (anchor : Token) :
    Shifted count base fresh (first.report cause anchor)
      (second.report cause (anchor.shift count)) :=
  shifted.report grammar rfl rfl

theorem report_left (shifted : Shifted count base fresh first second)
    {cause : Cause} (names : cause.code.concernsNames) (anchor : Token) :
    Shifted count base fresh (first.report cause anchor) second := by
  refine { shifted with notices := ?_ }
  simp only [Walk.report]
  rw [Finding.notices_cons_of_concernsNames names, shifted.notices]

theorem report_right (shifted : Shifted count base fresh first second)
    {cause : Cause} (names : cause.code.concernsNames) (anchor : Token) :
    Shifted count base fresh first (second.report cause anchor) := by
  refine { shifted with notices := ?_ }
  simp only [Walk.report]
  rw [Finding.notices_cons_of_concernsNames names, shifted.notices]

/-! What is classified. -/

theorem declared_classify {walk : Walk} {token : Token}
    (there : walk.cursor.current? = some token) (kind : TokenKind)
    (modifiers : Modifiers) :
    declared (walk.classify kind modifiers).classified =
      if modifiers.declaration then
        token.reclassify kind modifiers :: declared walk.classified
      else declared walk.classified := by
  rw [classify, TokenCursor.current?_reclassify, there]
  exact List.filter_cons

theorem classify (shifted : Shifted count base true first second)
    {kind kindBelow : TokenKind} {modifiers modifiersBelow : Modifiers}
    (agrees : kind = kindBelow ∧ modifiers = modifiersBelow ∨
      modifiers.declaration = false ∧ modifiersBelow.declaration = false) :
    Shifted count base false (first.classify kind modifiers)
      (second.classify kindBelow modifiersBelow) := by
  obtain ⟨token, other, left, right, -, -, -, untouched⟩ :=
    shifted.exists_current
  obtain rfl := untouched rfl
  refine { shifted with
    cursor := shifted.cursor.reclassify agrees
    classified := ?_ }
  rw [declared_classify left, declared_classify right, shifted.classified]
  rcases agrees with ⟨rfl, rfl⟩ | ⟨above, below⟩
  · split <;> rfl
  · rw [above, below, if_neg Bool.false_ne_true, if_neg Bool.false_ne_true]

theorem classify_left (shifted : Shifted count base true first second)
    (kind : TokenKind) {modifiers : Modifiers}
    (reference : modifiers.declaration = false) :
    Shifted count base false (first.classify kind modifiers) second := by
  obtain ⟨token, -, left, -⟩ := shifted.exists_current
  refine { shifted with
    cursor := shifted.cursor.reclassify_left kind reference
    classified := ?_ }
  rw [declared_classify left, reference, if_neg Bool.false_ne_true,
    shifted.classified]

theorem classify_right (shifted : Shifted count base true first second)
    (kind : TokenKind) {modifiers : Modifiers}
    (reference : modifiers.declaration = false) :
    Shifted count base false first (second.classify kind modifiers) := by
  obtain ⟨-, other, -, right, -⟩ := shifted.exists_current
  refine { shifted with
    cursor := shifted.cursor.reclassify_right kind reference
    classified := ?_ }
  rw [declared_classify right, reference, if_neg Bool.false_ne_true,
    shifted.classified]

theorem next (shifted : Shifted count base false first second) :
    ComeAlike (Shifted count base) (fun _ _ _ _ => False) first second := by
  rcases none_or_some_of_rel shifted.cursor.next?_rel with
    ⟨left, right⟩ | ⟨⟨token, reached⟩, ⟨_, arrived⟩, left, right, rfl, below⟩
  · exact .ended left right
  · exact .of_kind left right rfl rfl (shifted.isLater_eq token).symm
      (shifted.moveTo below)

theorem rescue (shifted : Shifted count base true first second)
    (candidates : List Terminal) :
    Shifted count base false (first.rescue candidates)
      (second.rescue candidates) := by
  have found := shifted.cursor.rescue?_rel candidates
  unfold Walk.rescue
  generalize first.cursor.rescue? candidates = left,
    second.cursor.rescue? candidates = right at found ⊢
  cases found with
  | none => exact shifted.weaken
  | some below => exact (shifted.moveTo below).weaken

theorem complain (shifted : Shifted count base true first second)
    (complaint : Complaint) :
    Shifted count base false (first.complain complaint)
      (second.complain complaint) := by
  obtain ⟨token, other, left, right, -, -, -, untouched⟩ :=
    shifted.exists_current
  obtain rfl := untouched rfl
  rw [Walk.complain, Walk.complain, left, right]
  apply weaken
  cases complaint <;> exact shifted.report (by rfl) rfl rfl

theorem resolve (shifted : Shifted count base true first second) :
    Shifted count base false first.resolve second.resolve := by
  obtain ⟨token, other, left, right, -, -, -, untouched⟩ :=
    shifted.exists_current
  obtain rfl := untouched rfl
  rw [Walk.resolve, Walk.resolve, left, right]
  simp only
  by_cases identifier : Literal.isIdentifier token.text
  · have identifierBelow : Literal.isIdentifier (token.shift count).text :=
      identifier
    rw [if_pos identifier, if_pos identifierBelow]
    cases above : first.symbols.lookup? (Literal.nameOf token.text) with
    | none =>
        cases below : second.symbols.lookup?
            (Literal.nameOf (token.shift count).text) with
        | none =>
            exact weaken (report_right (report_left shifted (by rfl) token)
              (by rfl) _)
        | some symbol =>
            exact classify_right (report_left shifted (by rfl) token)
              symbol.kind (shifted.second_plain.lookup? below)
    | some symbol =>
        have plain := shifted.first_plain.lookup? above
        cases below : second.symbols.lookup?
            (Literal.nameOf (token.shift count).text) with
        | none =>
            exact classify_left (report_right shifted (by rfl) _) symbol.kind
              plain
        | some earlier =>
            exact shifted.classify
              (.inr ⟨plain, shifted.second_plain.lookup? below⟩)
  · have anonymous : ¬Literal.isIdentifier (token.shift count).text :=
      identifier
    rw [if_neg identifier, if_neg anonymous]
    exact weaken (report_same shifted (by rfl) token)

theorem register (shifted : Shifted count base fresh first second)
    (symbol symbolBelow : Symbol) :
    Shifted count base fresh
      { first with symbols := (first.symbols.declare symbol).2 }
      { second with symbols := (second.symbols.declare symbolBelow).2 } :=
  { shifted with
    first_plain := shifted.first_plain.declare symbol
    second_plain := shifted.second_plain.declare symbolBelow }

theorem reportDuplicate_left (shifted : Shifted count base fresh first second)
    (registration : Registration) (kind : TokenKind) (token : Token) :
    Shifted count base fresh
      (first.reportDuplicate registration kind token) second := by
  unfold Walk.reportDuplicate
  split
  · split
    · exact shifted
    · exact shifted.report_left (by rfl) token
  · exact shifted

theorem reportDuplicate_right (shifted : Shifted count base fresh first second)
    (registration : Registration) (kind : TokenKind) (token : Token) :
    Shifted count base fresh first
      (second.reportDuplicate registration kind token) := by
  unfold Walk.reportDuplicate
  split
  · split
    · exact shifted
    · exact shifted.report_right (by rfl) token
  · exact shifted

theorem declare (shifted : Shifted count base true first second)
    (kind : TokenKind) (modifiers : Modifiers) :
    Shifted count base false (first.declare kind modifiers).2
      (second.declare kind modifiers).2 := by
  obtain ⟨token, other, left, right, -, -, -, untouched⟩ :=
    shifted.exists_current
  obtain rfl := untouched rfl
  rw [Walk.declare, Walk.declare, left, right]
  simp only
  by_cases identifier : Literal.isIdentifier token.text
  · have identifierBelow : Literal.isIdentifier (token.shift count).text :=
      identifier
    rw [if_pos identifier, if_pos identifierBelow]
    refine classify (reportDuplicate_left (reportDuplicate_right ?_ _ kind _)
      _ kind _) (.inl ⟨rfl, rfl⟩)
    exact shifted.register _ _
  · have anonymous : ¬Literal.isIdentifier (token.shift count).text :=
      identifier
    rw [if_neg identifier, if_neg anonymous]
    exact weaken (report_same shifted (by rfl) token)

theorem scopes (shifted : Shifted count base fresh first second)
    (stack other : ScopeStack) (resets more : Nat) :
    Shifted count base fresh { first with scopes := stack, resets }
      { second with scopes := other, resets := more } :=
  { shifted with }

theorem settle (shifted : Shifted count base fresh first second) :
    Shifted count base fresh first.settle second.settle := by
  unfold Walk.settle
  repeat' split
  all_goals exact { shifted with }

end Shifted

theorem lockstep_shifted (count : Nat) (base : Walk) :
    Lockstep (Shifted count base) fun _ _ _ _ => False where
  left := steady_const False
  right := steady_const False
  weaken := .weaken
  current shifted := by
    obtain ⟨token, other, left, right, text, -, -, untouched⟩ :=
      shifted.exists_current
    refine ⟨token, other, left, right, text.symm, fun here => .inl ?_⟩
    rw [untouched here]
    rfl
  next shifted := shifted.next
  ended shifted _ _ := by
    rw [shifted.place_eq]
    exact Shifted.report_same shifted (by rfl) _
  abandoned := by
    intro first second token reached other arrived expected shifted left right _
      _ _
    have found := shifted.cursor.next?_rel
    rw [left, right] at found
    cases found with
    | some found =>
        obtain ⟨rfl, -⟩ := found
        rw [shifted.isLater_eq, shifted.place_eq]
        split
        · exact shifted.report_same (by rfl) _
        · exact shifted.report_same (by rfl) _
  mismatch := by
    intro first second token other candidates shifted left right
    obtain ⟨_, _, here, there, -, -, -, untouched⟩ := shifted.exists_current
    cases left.symm.trans here
    cases right.symm.trans there
    obtain rfl := untouched rfl
    exact shifted.report_same (by rfl) _
  rescue _ shifted := .inl (shifted.rescue _)
  complain complaint shifted := .inl (shifted.complain complaint)
  strings shifted := .inl (shifted.moveTo shifted.cursor.passStrings).weaken
  resolve shifted := .inl shifted.resolve
  declare _ modifiers shifted := .inl (shifted.declare _ modifiers)
  openScope _ _ shifted := shifted.scopes _ _ _ _
  closeScope shifted := shifted.scopes _ _ _ _
  settle shifted := shifted.settle

theorem shifted_start {tokens : List Token} {reached : Walk}
    (some_token : tokens ≠ [])
    (undeclared : ∀ token ∈ tokens, token.isDeclaration = false)
    (ahead_eq : reached.cursor.ahead = tokens.map (Token.shift count))
    (plain : reached.symbols.IsPlain) :
    Shifted count reached true (start tokens) reached := by
  refine ⟨?_, nofun, plain, rfl, rfl⟩
  obtain ⟨⟨passed, ahead⟩, scopes, symbols, classified, findings, resets⟩ :=
    reached
  obtain rfl : ahead = _ := ahead_eq
  cases tokens with
  | nil => exact absurd rfl some_token
  | cons token rest =>
      have nothing : TokenCursor.PassedBelow count passed [] passed := rfl
      exact .of_passed nothing undeclared

/-- From the first token of a document below other text on, the walk does what
a walk over that document does. -/
theorem document_shifted {tokens : List Token} {reached : Walk}
    (some_token : tokens ≠ [])
    (undeclared : ∀ token ∈ tokens, token.isDeclaration = false)
    (ahead_eq : reached.cursor.ahead = tokens.map (Token.shift count))
    (plain : reached.symbols.IsPlain) {size turns : Nat}
    (fits : tokens.length ≤ size) (enough : reached.remaining < turns) :
    Shifted count reached false (document (fun _ => false) tokens).2
      (statements (fun _ => false) (allowance size) turns reached).2 := by
  have enough_turns : tokens.length ≤ turns := by
    rw [remaining, TokenCursor.remaining, ahead_eq, List.length_tail,
      List.length_map] at enough
    omega
  rw [document_eq_statements some_token fits enough_turns]
  rcases (lockstep_shifted count reached).statements (allowance size) turns
    (shifted_start some_token undeclared ahead_eq plain) with shifted | never
  · exact shifted
  · exact never.elim

end Walk

end ComponentLang
