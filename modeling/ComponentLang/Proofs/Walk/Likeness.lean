import ComponentLang.Proofs.Token.Pairing
import ComponentLang.Proofs.Walk.Simulation

namespace ComponentLang

/-- What related tokens have in common is all that the grammar asks for. -/
structure Token.Likeness (alike : Token → Token → Prop) : Prop where
  line : alike left right → left.line = right.line
  kind : alike left right → left.kind = right.kind
  trivia : alike left right → left.isTrivia = right.isTrivia
  spelled : Terminal.areLookedFor candidates → alike left right →
    Terminal.find? candidates left.text = Terminal.find? candidates right.text
  keyword : alike left right → left.kind = .keyword →
    Keyword.ofSpelling? left.text = Keyword.ofSpelling? right.text
  builtinType : alike left right →
    BuiltinType.ofSpelling? left.text = BuiltinType.ofSpelling? right.text
  identifier : alike left right →
    Literal.isIdentifier left.text = Literal.isIdentifier right.text
  expression : alike left right →
    Expected.startsExpression left = Expected.startsExpression right

namespace Token.Likeness

variable {alike : Token → Token → Prop} {left right : Token}

theorem spelling (likeness : Likeness alike) (pair : alike left right)
    (terminal : Terminal) (listed : Terminal.areLookedFor [terminal]) :
    (left.text == terminal.spelling) = (right.text == terminal.spelling) := by
  have found := likeness.spelled listed pair
  simp only [Terminal.find?, List.find?_cons, List.find?_nil] at found
  cases here : left.text == terminal.spelling <;>
    cases there : right.text == terminal.spelling <;> simp_all

theorem sizedType (likeness : Likeness alike) (pair : alike left right) :
    (left.text == BuiltinType.string.spelling) =
      (right.text == BuiltinType.string.spelling) := by
  rw [Bool.eq_iff_iff, beq_iff_eq, beq_iff_eq, eq_comm,
    ← BuiltinType.ofSpelling?_eq_some_iff, likeness.builtinType pair,
    BuiltinType.ofSpelling?_eq_some_iff, eq_comm]

theorem accepts (likeness : Likeness alike) (pair : alike left right)
    (expected : Expected) (listed : expected.isLookedFor) :
    expected.accepts left = expected.accepts right := by
  cases expected with
  | identifier => exact likeness.identifier pair
  | expression => exact likeness.expression pair
  | typeName =>
      simp only [Expected.accepts, Expected.startsType,
        likeness.builtinType pair, likeness.identifier pair]
  | stringLiteral => simp only [Expected.accepts, likeness.kind pair]
  | oneOf candidates =>
      simp only [Expected.accepts, likeness.spelled listed pair]

end Token.Likeness

structure Finding.Likewise (anchored : Token → Token → Prop)
    (first second : Finding) : Prop where
  code : first.cause.code = second.cause.code
  anchor : anchored first.anchor second.anchor

namespace Walk

structure Memory where
  scopes : ScopeStack
  symbols : SymbolTable
  classified : List Token
  resets : Nat

def memory (walk : Walk) : Memory where
  scopes := walk.scopes
  symbols := walk.symbols
  classified := walk.classified
  resets := walk.resets

/-- The walks stand at one place, have found the same wrong, and remember what
is related. -/
structure Likewise (alike anchored : Token → Token → Prop)
    (remembered : Memory → Memory → Prop) (first second : Walk) : Prop where
  cursor : TokenCursor.Paired alike first.cursor second.cursor
  findings : List.Forall₂ (Finding.Likewise anchored) first.findings
    second.findings
  memory : remembered first.memory second.memory

/-- Related tokens anchor related findings, at the tokens or behind them. -/
structure Likeness (alike anchored : Token → Token → Prop) : Prop extends
    Token.Likeness alike where
  anchor : alike left right → anchored left right
  behind : alike left right →
    anchored (.marker left.stop) (.marker right.stop)
  origin : anchored (.marker ⟨0, 0⟩) (.marker ⟨0, 0⟩)

namespace Likewise

variable {alike anchored : Token → Token → Prop}
  {remembered : Memory → Memory → Prop} {first second : Walk}
  {token other : Token}

theorem moveTo (same : Likewise alike anchored remembered first second)
    {left right : TokenCursor}
    (cursors : TokenCursor.Paired alike left right) :
    Likewise alike anchored remembered (first.moveTo left)
      (second.moveTo right) :=
  ⟨cursors, same.findings, same.memory⟩

theorem report (same : Likewise alike anchored remembered first second)
    {cause otherCause : Cause} (code : cause.code = otherCause.code)
    (anchors : anchored token other) :
    Likewise alike anchored remembered (first.report cause token)
      (second.report otherCause other) :=
  ⟨same.cursor, .cons ⟨code, anchors⟩ same.findings, same.memory⟩

variable (likeness : Likeness alike anchored)

include likeness

theorem place (same : Likewise alike anchored remembered first second) :
    anchored (.marker first.place) (.marker second.place) := by
  have current := same.cursor.current?_rel
  unfold Walk.place TokenCursor.place
  generalize first.cursor.current? = left,
    second.cursor.current? = right at current ⊢
  cases current with
  | none => exact likeness.origin
  | some pair => exact likeness.behind pair

theorem isLater_eq (same : Likewise alike anchored remembered first second)
    (pair : alike token other) :
    first.isLater token = second.isLater other := by
  have current := same.cursor.current?_rel
  unfold isLater TokenCursor.isLater
  generalize first.cursor.current? = left,
    second.cursor.current? = right at current ⊢
  cases current with
  | none => rfl
  | some current =>
      simp only [Option.any_some, likeness.line current, likeness.line pair]

theorem canResumeAt_eq (same : Likewise alike anchored remembered first second)
    (pair : alike token other) :
    first.canResumeAt token = second.canResumeAt other := by
  have brace := likeness.spelling pair Operator.rightBrace rfl
  simp only [Terminal.spelling] at brace
  rw [canResumeAt_def, canResumeAt_def, brace, same.isLater_eq likeness pair,
    ← likeness.kind pair]
  by_cases keyword : token.kind = .keyword
  · rw [likeness.keyword pair keyword]
  · simp only [beq_eq_false_iff_ne.mpr keyword, Bool.false_and]

theorem next (same : Likewise alike anchored remembered first second) :
    AgreeOn (Likewise alike anchored remembered) first second
      (first.cursor.next?.map (·.2)) (second.cursor.next?.map (·.2)) := by
  have found := same.cursor.next?_rel fun _ _ => likeness.trivia
  generalize first.cursor.next? = left, second.cursor.next? = right at found ⊢
  cases found with
  | none => exact .none
  | some found => exact .some (same.moveTo found.2)

theorem take (same : Likewise alike anchored remembered first second)
    {candidates : List Terminal}
    (spelled : ∀ left right, alike left right →
      Terminal.find? candidates left.text =
        Terminal.find? candidates right.text) :
    AgreeOn (Likewise alike anchored remembered) first second
      ((first.cursor.take? candidates).map (·.2))
      ((second.cursor.take? candidates).map (·.2)) := by
  have found := same.cursor.take?_rel spelled fun _ _ => likeness.trivia
  generalize first.cursor.take? candidates = left,
    second.cursor.take? candidates = right at found ⊢
  cases found with
  | none => exact .none
  | some found => exact .some (same.moveTo found.2)

theorem advance (same : Likewise alike anchored remembered first second)
    (expected : Expected) :
    Agree (Likewise alike anchored remembered) (first.advance expected)
      (second.advance expected) := by
  have found := same.cursor.next?_rel fun _ _ => likeness.trivia
  unfold Walk.advance
  generalize first.cursor.next? = left, second.cursor.next? = right at found ⊢
  cases found with
  | none => exact ⟨rfl, same.report rfl (same.place likeness)⟩
  | some found => exact ⟨rfl, same.moveTo found.2⟩

theorem need (same : Likewise alike anchored remembered first second)
    (expected : Expected) (listed : expected.isLookedFor) :
    Agree (Likewise alike anchored remembered) (first.need expected)
      (second.need expected) := by
  have found := same.cursor.next?_rel fun _ _ => likeness.trivia
  have advanced := same.advance likeness expected
  unfold Walk.need
  generalize first.cursor.next? = left, second.cursor.next? = right at found ⊢
  cases found with
  | none => exact advanced
  | @some left right found =>
      obtain ⟨token, leftCursor⟩ := left
      obtain ⟨other, rightCursor⟩ := right
      obtain ⟨pair, cursors⟩ := found
      simp only
      rw [likeness.accepts pair expected listed, same.canResumeAt_eq likeness pair]
      split
      · exact ⟨rfl, same.moveTo cursors⟩
      · refine ⟨congrArg Outcome.abandoned (likeness.line pair),
          same.report rfl ?_⟩
        rw [same.isLater_eq likeness pair]
        split
        · exact same.place likeness
        · exact likeness.anchor pair

theorem rescue (same : Likewise alike anchored remembered first second)
    {candidates : List Terminal}
    (listed : Terminal.areLookedFor candidates) :
    Likewise alike anchored remembered (first.rescue candidates)
      (second.rescue candidates) := by
  have found := same.cursor.rescue?_rel
    (fun _ _ => likeness.spelled listed) fun _ _ => likeness.line
  unfold Walk.rescue
  generalize first.cursor.rescue? candidates = left,
    second.cursor.rescue? candidates = right at found ⊢
  cases found with
  | none => exact same
  | some cursors => exact same.moveTo cursors

theorem expect (same : Likewise alike anchored remembered first second)
    {candidates : List Terminal}
    (listed : Terminal.areLookedFor candidates) :
    Agree (Likewise alike anchored remembered) (first.expect candidates)
      (second.expect candidates) := by
  have needed := same.need likeness (.oneOf candidates) listed
  unfold Walk.expect
  generalize first.need (.oneOf candidates) = left,
    second.need (.oneOf candidates) = right at needed ⊢
  obtain ⟨outcome, left⟩ := left
  obtain ⟨_, right⟩ := right
  obtain ⟨rfl, walks⟩ := needed
  simp only at walks
  cases outcome with
  | finished =>
      have current := walks.cursor.current?_rel
      simp only
      generalize left.cursor.current? = token,
        right.cursor.current? = other at current ⊢
      cases current with
      | none => exact ⟨rfl, walks⟩
      | some pair =>
          simp only
          rw [likeness.accepts pair (.oneOf candidates) listed]
          split
          · exact ⟨rfl, walks⟩
          · exact ⟨rfl,
              (walks.report rfl (likeness.anchor pair)).rescue likeness listed⟩
  | abandoned line => exact ⟨rfl, walks⟩
  | ended => exact ⟨rfl, walks⟩
  | exhausted => exact ⟨rfl, walks⟩

theorem holds_eq (same : Likewise alike anchored remembered first second)
    {test : Test} (listed : test.isLookedFor) :
    first.holds test = second.holds test := by
  have current := same.cursor.current?_rel
  have next := same.cursor.peek?_rel fun _ _ => likeness.trivia
  unfold holds TokenCursor.holds
  generalize first.cursor.current? = left,
    second.cursor.current? = right at current ⊢
  cases current with
  | none => rfl
  | @some token other pair =>
      cases test with
      | spelled terminal => exact likeness.spelling pair terminal listed
      | sizedType => exact likeness.sizedType pair
      | builtinType => simp only [likeness.builtinType pair]
      | ofKind kind => simp only [likeness.kind pair]
      | truthWord =>
          simp only [← likeness.kind pair]
          by_cases keyword : token.kind = .keyword
          · simp only [Expected.isTruthWord, likeness.keyword pair keyword]
          · simp only [beq_eq_false_iff_ne.mpr keyword, Bool.false_and]
      | identifier => exact likeness.identifier pair
      | lastOnLine =>
          simp only
          generalize first.cursor.peek? = left,
            second.cursor.peek? = right at next ⊢
          cases next with
          | none => rfl
          | some next => exact same.isLater_eq likeness next

theorem resumes_eq (same : Likewise alike anchored remembered first second)
    {resumption : Resumption} (listed : resumption.isLookedFor) :
    first.resumes resumption = second.resumes resumption := by
  cases resumption with
  | anywhere => rfl
  | before terminals =>
      exact same.cursor.peekIs_eq (fun _ _ => likeness.spelled listed)
        fun _ _ => likeness.trivia

theorem beginning_eq (same : Likewise alike anchored remembered first second)
    (block : Block) : first.beginning block = second.beginning block := by
  have current := same.cursor.current?_rel
  unfold beginning TokenCursor.beginning
  generalize first.cursor.current? = left,
    second.cursor.current? = right at current ⊢
  cases current with
  | none => rfl
  | @some token other pair =>
      simp only [← likeness.trivia pair, ← likeness.kind pair]
      by_cases keyword : token.kind = .keyword
      · rw [← likeness.keyword pair keyword]
        have selected : Statement.select block
              (fun terminal => first.cursor.peekIs [terminal]) =
            Statement.select block
              (fun terminal => second.cursor.peekIs [terminal]) := by
          funext word
          apply Statement.select_congr
          intro terminal member
          refine same.cursor.peekIs_eq (fun _ _ => likeness.spelled ?_)
            fun _ _ => likeness.trivia
          revert terminal
          decide
        rw [selected]
      · simp only [beq_eq_false_iff_ne.mpr keyword]
        rfl

theorem complain (same : Likewise alike anchored remembered first second)
    (complaint : Complaint) :
    Likewise alike anchored remembered (first.complain complaint)
      (second.complain complaint) := by
  have current := same.cursor.current?_rel
  unfold Walk.complain
  generalize first.cursor.current? = left,
    second.cursor.current? = right at current ⊢
  cases current with
  | none => exact same
  | some pair =>
      cases complaint <;> exact same.report rfl (likeness.anchor pair)

theorem strings (same : Likewise alike anchored remembered first second) :
    Likewise alike anchored remembered first.strings second.strings :=
  same.moveTo (same.cursor.passStrings (fun _ _ => likeness.trivia)
    fun _ _ pair => by rw [likeness.kind pair])

theorem define (same : Likewise alike anchored remembered first second)
    {named : String → String → Prop} {kind : TokenKind} {modifiers : Modifiers}
    (declare : ∀ {left right : Walk},
      Likewise alike anchored remembered left right →
      Option.Rel named (left.declare kind modifiers).1
          (right.declare kind modifiers).1 ∧
        Likewise alike anchored remembered (left.declare kind modifiers).2
          (right.declare kind modifiers).2) :
    Agree (Likewise alike anchored remembered)
        ((first.define kind modifiers).1, (first.define kind modifiers).2.2)
        ((second.define kind modifiers).1, (second.define kind modifiers).2.2) ∧
      Option.Rel named (first.define kind modifiers).2.1
        (second.define kind modifiers).2.1 := by
  have needed := same.need likeness .identifier rfl
  unfold Walk.define
  generalize first.need .identifier = left,
    second.need .identifier = right at needed ⊢
  obtain ⟨outcome, left⟩ := left
  obtain ⟨_, right⟩ := right
  obtain ⟨rfl, walks⟩ := needed
  simp only at walks
  cases outcome with
  | finished =>
      obtain ⟨names, declared⟩ := declare walks
      exact ⟨⟨rfl, declared⟩, names⟩
  | abandoned line => exact ⟨⟨rfl, walks⟩, .none⟩
  | ended => exact ⟨⟨rfl, walks⟩, .none⟩
  | exhausted => exact ⟨⟨rfl, walks⟩, .none⟩

end Likewise

/-- What steps have to keep that speak of names or take a word about a full
queue. -/
structure KeepsNames (related : Walk → Walk → Prop)
    (named : String → String → Prop) : Prop where
  queue : related first second →
    UpToString related first.passQueueWord second.passQueueWord
  resolve : related first second → related first.resolve second.resolve
  declare : ∀ kind modifiers, related first second →
    Option.Rel named (first.declare kind modifiers).1
        (second.declare kind modifiers).1 ∧
      related (first.declare kind modifiers).2
        (second.declare kind modifiers).2
  anonymous : named (parameterScope none) (parameterScope none)
  openScope : ∀ kind, named left right → related first second →
    related (first.openScope left kind) (second.openScope right kind)
  closeScope : related first second → related first.closeScope second.closeScope
  settle : related first second → related first.settle second.settle

/-- Over tokens that read alike, names are all that has to be looked after. -/
theorem Likeness.simulation {alike anchored : Token → Token → Prop}
    {remembered : Memory → Memory → Prop} {named : String → String → Prop}
    (likeness : Likeness alike anchored)
    (names : KeepsNames (Likewise alike anchored remembered) named) :
    Simulation (Likewise alike anchored remembered) named where
  next same := same.next likeness
  take listed same := same.take likeness fun _ _ => likeness.spelled listed
  advance same := same.advance likeness _
  need listed same := same.need likeness _ listed
  expect listed same := same.expect likeness listed
  queue := names.queue
  holds listed same := same.holds_eq likeness listed
  resumes listed same := same.resumes_eq likeness listed
  beginning same := same.beginning_eq likeness _
  complain complaint same := same.complain likeness complaint
  strings same := same.strings likeness
  resolve := names.resolve
  define kind modifiers same :=
    same.define likeness (names.declare kind modifiers)
  anonymous := names.anonymous
  openScope := names.openScope
  closeScope := names.closeScope
  settle := names.settle

end Walk

end ComponentLang
