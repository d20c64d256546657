import ComponentLang.Proofs.Token.Passing

namespace ComponentLang

namespace Token

def shift (count : Nat) (token : Token) : Token :=
  { token with line := token.line + count }

theorem count_le_of_mem_map_shift {count : Nat} {tokens : List Token} :
    ∀ token ∈ tokens.map (shift count), count ≤ token.line := by
  intro token member
  obtain ⟨original, -, rfl⟩ := List.mem_map.mp member
  exact Nat.le_add_left count original.line

/-- The token without its role, unless it is declared. -/
def face (token : Token) : Token :=
  if token.isDeclaration then token else token.reclassify .nil {}

theorem face_of_isDeclaration {token : Token} (declared : token.isDeclaration) :
    token.face = token :=
  if_pos declared

theorem face_of_not_isDeclaration {token : Token}
    (plain : token.isDeclaration = false) :
    token.face = token.reclassify .nil {} :=
  if_neg (by rw [plain]; exact Bool.false_ne_true)

theorem face_eq {first second : Token} (left : first.isDeclaration = false)
    (right : second.isDeclaration = false)
    (same : first.reclassify .nil {} = second.reclassify .nil {}) :
    first.face = second.face := by
  rw [face_of_not_isDeclaration left, face_of_not_isDeclaration right, same]

theorem isDeclaration_face (token : Token) :
    token.face.isDeclaration = token.isDeclaration := by
  cases declared : token.isDeclaration with
  | true => rw [face_of_isDeclaration declared, declared]
  | false =>
      rw [face_of_not_isDeclaration declared]
      rfl

theorem line_face (token : Token) : token.face.line = token.line := by
  unfold face
  split <;> rfl

theorem column_face (token : Token) : token.face.column = token.column := by
  unfold face
  split <;> rfl

theorem text_face (token : Token) : token.face.text = token.text := by
  unfold face
  split <;> rfl

end Token

def declared (tokens : List Token) : List Token :=
  tokens.filter Token.isDeclaration

theorem declared_append (front back : List Token) :
    declared (front ++ back) = declared front ++ declared back :=
  List.filter_append ..

theorem declared_reverse (tokens : List Token) :
    declared tokens.reverse = (declared tokens).reverse :=
  List.filter_reverse ..

theorem declared_map_face (tokens : List Token) :
    declared (tokens.map Token.face) = declared tokens := by
  induction tokens with
  | nil => rfl
  | cons token rest induction =>
      rw [List.map_cons, declared, declared, List.filter_cons, List.filter_cons,
        token.isDeclaration_face]
      split
      · next here =>
          rw [token.face_of_isDeclaration here]
          exact congrArg _ induction
      · exact induction

theorem declared_map_shift (count : Nat) (tokens : List Token) :
    declared (tokens.map (Token.shift count)) =
      (declared tokens).map (Token.shift count) := by
  rw [declared, declared, List.filter_map]
  rfl

namespace TokenCursor

variable {count : Nat} {base passed others tokens : List Token}
  {first second : TokenCursor} {fresh : Bool}

/-- What the second cursor has passed is what the first one has, further down,
with other tokens in front. -/
def PassedBelow (count : Nat) (base passed others : List Token) : Prop :=
  others.map Token.face =
    (passed.map (Token.shift count)).map Token.face ++ base.map Token.face

theorem PassedBelow.cons (below : PassedBelow count base passed others)
    {token other : Token} (same : other.face = (token.shift count).face) :
    PassedBelow count base (token :: passed) (other :: others) := by
  rw [PassedBelow, List.map_cons, List.map_cons, List.map_cons, same, below]
  rfl

/-- The second cursor stands on the same token as the first one, further down,
with the same tokens behind it. As long as the token is fresh, neither has been
given a role. -/
inductive Below (count : Nat) (base : List Token) (fresh : Bool) :
    TokenCursor → TokenCursor → Prop where
  | mk {passed others rest : List Token} {token other : Token}
      (passed_below : PassedBelow count base passed others)
      (same : other.face = (token.shift count).face)
      (untouched : fresh →
        other = token.shift count ∧ token.isDeclaration = false)
      (plain : ∀ token ∈ rest, token.isDeclaration = false) :
      Below count base fresh ⟨passed, token :: rest⟩
        ⟨others, other :: rest.map (Token.shift count)⟩

theorem Below.weaken (below : Below count base true first second) :
    Below count base false first second := by
  obtain ⟨passed_below, same, -, plain⟩ := below
  exact .mk passed_below same nofun plain

theorem Below.of_passed (below : PassedBelow count base passed others)
    {token : Token} {rest : List Token}
    (plain : ∀ other ∈ token :: rest, other.isDeclaration = false) :
    Below count base true ⟨passed, token :: rest⟩
      ⟨others, (token :: rest).map (Token.shift count)⟩ := by
  obtain ⟨here, behind⟩ := List.forall_mem_cons.mp plain
  exact .mk below rfl (fun _ => ⟨rfl, here⟩) behind

def FoundBelow (count : Nat) (base : List Token)
    (first second : Token × TokenCursor) : Prop :=
  second.1 = first.1.shift count ∧ Below count base true first.2 second.2

theorem cursors_of_foundBelow {left right : Option (Token × TokenCursor)}
    (found : Option.Rel (FoundBelow count base) left right) :
    Option.Rel (Below count base true) (left.map (·.2)) (right.map (·.2)) := by
  cases found with
  | none => exact .none
  | some found => exact .some found.2

theorem foundBelow_seek {within wanted withinBelow wantedBelow : Token → Bool}
    (within_eq : ∀ token, withinBelow (token.shift count) = within token)
    (wanted_eq : ∀ token, wantedBelow (token.shift count) = wanted token)
    (below : PassedBelow count base passed others)
    (plain : ∀ token ∈ tokens, token.isDeclaration = false) :
    Option.Rel (FoundBelow count base) (seek within wanted passed tokens)
      (seek withinBelow wantedBelow others
        (tokens.map (Token.shift count))) := by
  induction tokens generalizing passed others with
  | nil => exact .none
  | cons token rest induction =>
      rw [List.map_cons, seek, seek, within_eq, wanted_eq]
      split
      · exact .none
      · split
        · exact .some ⟨rfl, .of_passed below plain⟩
        · exact induction (below.cons rfl)
            (List.forall_mem_cons.mp plain).2

namespace Below

theorem next?_rel (below : Below count base fresh first second) :
    Option.Rel (FoundBelow count base) first.next? second.next? := by
  obtain ⟨passed_below, same, -, plain⟩ := below
  exact foundBelow_seek (fun _ => rfl) (fun _ => rfl)
    (passed_below.cons same) plain

theorem line_eq_of_face {token other : Token}
    (same : other.face = (token.shift count).face) :
    other.line = token.line + count := by
  have lines := congrArg Token.line same
  rwa [Token.line_face, Token.line_face] at lines

theorem rescue?_rel (below : Below count base fresh first second)
    (candidates : List Terminal) :
    Option.Rel (Below count base true) (first.rescue? candidates)
      (second.rescue? candidates) := by
  obtain @⟨passed, others, rest, token, other, passed_below, same, -, plain⟩ :=
    below
  have line_eq := line_eq_of_face same
  have found : Option.Rel (FoundBelow count base)
      (seek (fun late => late.line == token.line)
        (fun late => (Terminal.find? candidates late.text).isSome)
        (token :: passed) rest)
      (seek (fun late => late.line == other.line)
        (fun late => (Terminal.find? candidates late.text).isSome)
        (other :: others) (rest.map (Token.shift count))) := by
    refine foundBelow_seek (fun late => ?_) (fun _ => rfl)
      (passed_below.cons same) plain
    rw [line_eq, Bool.eq_iff_iff, beq_iff_eq, beq_iff_eq]
    exact Nat.add_right_cancel_iff
  exact cursors_of_foundBelow found

theorem passStringsFrom {last lastBelow : TokenCursor}
    (lasts : Below count base true last lastBelow)
    (below : PassedBelow count base passed others)
    (plain : ∀ token ∈ tokens, token.isDeclaration = false) :
    Below count base true (passStringsFrom last passed tokens)
      (passStringsFrom lastBelow others (tokens.map (Token.shift count))) := by
  induction tokens generalizing last lastBelow passed others with
  | nil => exact lasts
  | cons token rest induction =>
      have later := (List.forall_mem_cons.mp plain).2
      rw [List.map_cons, TokenCursor.passStringsFrom,
        TokenCursor.passStringsFrom]
      change Below count base true
        (if token.isTrivia then _ else if token.kind == .string then _ else _)
        (if token.isTrivia then _ else if token.kind == .string then _ else _)
      split
      · exact induction lasts (below.cons rfl) later
      · split
        · exact induction (.of_passed below plain) (below.cons rfl) later
        · exact lasts

theorem passStrings (below : Below count base true first second) :
    Below count base true first.passStrings second.passStrings := by
  have start := below
  obtain ⟨passed_below, same, -, plain⟩ := below
  exact passStringsFrom start (passed_below.cons same) plain

/-- The tokens that the cursors stand on may be given roles, as long as these
are the same where one of them is declared. -/
theorem reclassify (below : Below count base true first second)
    {kind kindBelow : TokenKind} {modifiers modifiersBelow : Modifiers}
    (agrees : kind = kindBelow ∧ modifiers = modifiersBelow ∨
      modifiers.declaration = false ∧ modifiersBelow.declaration = false) :
    Below count base false (first.reclassify kind modifiers)
      (second.reclassify kindBelow modifiersBelow) := by
  obtain ⟨passed_below, same, untouched, plain⟩ := below
  obtain ⟨rfl, -⟩ := untouched rfl
  refine .mk passed_below ?_ nofun plain
  rcases agrees with ⟨rfl, rfl⟩ | ⟨left, right⟩
  · rfl
  · exact Token.face_eq right left rfl

theorem reclassify_left (below : Below count base true first second)
    (kind : TokenKind) {modifiers : Modifiers}
    (reference : modifiers.declaration = false) :
    Below count base false (first.reclassify kind modifiers) second := by
  obtain ⟨passed_below, same, untouched, plain⟩ := below
  obtain ⟨rfl, undeclared⟩ := untouched rfl
  refine .mk passed_below ?_ nofun plain
  exact Token.face_eq undeclared reference rfl

theorem reclassify_right (below : Below count base true first second)
    (kind : TokenKind) {modifiers : Modifiers}
    (reference : modifiers.declaration = false) :
    Below count base false first (second.reclassify kind modifiers) := by
  obtain ⟨passed_below, same, untouched, plain⟩ := below
  obtain ⟨rfl, undeclared⟩ := untouched rfl
  refine .mk passed_below ?_ nofun plain
  exact Token.face_eq reference undeclared rfl

theorem map_face_toList (below : Below count base fresh first second) :
    second.toList.map Token.face =
      (base.reverse ++ first.toList.map (Token.shift count)).map
        Token.face := by
  obtain ⟨passed_below, same, -, -⟩ := below
  unfold PassedBelow at passed_below
  simp only [toList, List.map_append, List.map_reverse, List.map_cons, same,
    passed_below, List.reverse_append, List.append_assoc]

/-- The names that are declared among the tokens in front, and those that are
declared among the tokens themselves. -/
theorem declared_toList (below : Below count base fresh first second) :
    declared second.toList =
      declared base.reverse ++
        (declared first.toList).map (Token.shift count) := by
  rw [← declared_map_face, below.map_face_toList, declared_map_face,
    declared_append, declared_map_shift]

end Below

end TokenCursor

end ComponentLang
