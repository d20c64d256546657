import ComponentLang.Proofs.Syntax.Lexemes

namespace ComponentLang

def Token.Breaks (last next : Token) : Prop :=
  last.line < next.line

instance (last next : Token) : Decidable (last.Breaks next) :=
  inferInstanceAs (Decidable (last.line < next.line))

namespace Syntax

/-- The parts of an expression. -/
inductive Part where
  /-- Signed operands with binary operators between them. -/
  | chain
  /-- What can follow the first operand of a chain. -/
  | further
  | signed
  | primary
  /-- What can follow the first of the names with points between them. -/
  | points
  | elements
  deriving DecidableEq, Repr

/-- The tokens form the part. Neighbours that are `apart` can belong to different
elements without a comma between them. -/
inductive Forms (apart : Token → Token → Prop) : Part → List Token → Prop
  | chain {first others} (signed : Forms apart .signed first)
      (further : Forms apart .further others) :
      Forms apart .chain (first ++ others)
  | alone : Forms apart .further []
  | further {sign others} (binary : sign.lexeme.isBinary)
      (chain : Forms apart .chain others) :
      Forms apart .further (sign :: others)
  | minus {sign operand} (minus : sign.lexeme = .sign .minus)
      (signed : Forms apart .signed operand) :
      Forms apart .signed (sign :: operand)
  | plain {operand} (primary : Forms apart .primary operand) :
      Forms apart .signed operand
  | number {token} (counts : token.lexeme = .number) :
      Forms apart .primary [token]
  | strings {first others} (quoted : first.lexeme = .string)
      (strings : ∀ token ∈ others, token.lexeme = .string) :
      Forms apart .primary (first :: others)
  | truth {token} (decided : token.lexeme = .truth) :
      Forms apart .primary [token]
  | name {first others} (named : first.lexeme = .name)
      (points : Forms apart .points others) :
      Forms apart .primary (first :: others)
  | group {opener inner closer} (opens : opener.lexeme = .sign .leftParen)
      (chain : Forms apart .chain inner)
      (closes : closer.lexeme = .sign .rightParen) :
      Forms apart .primary (opener :: (inner ++ [closer]))
  | emptyArray {opener closer} (opens : opener.lexeme = .sign .leftBracket)
      (closes : closer.lexeme = .sign .rightBracket) :
      Forms apart .primary [opener, closer]
  | array {opener inner closer} (opens : opener.lexeme = .sign .leftBracket)
      (elements : Forms apart .elements inner)
      (closes : closer.lexeme = .sign .rightBracket) :
      Forms apart .primary (opener :: (inner ++ [closer]))
  | unpointed : Forms apart .points []
  | points {point name others} (dotted : point.lexeme = .sign .dot)
      (named : name.lexeme = .name) (points : Forms apart .points others) :
      Forms apart .points (point :: name :: others)
  | last {element} (chain : Forms apart .chain element) :
      Forms apart .elements element
  | lastComma {element comma} (chain : Forms apart .chain element)
      (separated : comma.lexeme = .sign .comma) :
      Forms apart .elements (element ++ [comma])
  | comma {element comma others} (chain : Forms apart .chain element)
      (separated : comma.lexeme = .sign .comma)
      (elements : Forms apart .elements others) :
      Forms apart .elements (element ++ comma :: others)
  | line {element others last next} (chain : Forms apart .chain element)
      (elements : Forms apart .elements others)
      (ends : element.getLast? = some last) (begins : others.head? = some next)
      (far : apart last next) : Forms apart .elements (element ++ others)

def ClosedElements (apart : Token → Token → Prop) (word : List Token) : Prop :=
  ∃ inner closer, Forms apart .elements inner ∧
    closer.lexeme = .sign .rightBracket ∧ word = inner ++ [closer]

/-- The token after an expression does not belong to it. -/
def Stops (word rest : List Token) : Prop :=
  ∀ last ∈ word.getLast?, ∀ next ∈ rest.head?,
    next.lexeme.goesOn last.lexeme = false

/-- The token after a name or string is no part of it. -/
def Unjoined (word rest : List Token) : Prop :=
  ∀ last ∈ word.getLast?, ∀ next ∈ rest.head?,
    next.lexeme.joins last.lexeme = false

section Ends

variable {word first others rest : List Token} {sign : Token}

theorem Unjoined.of_append (unjoined : Unjoined (first ++ others) rest) :
    Unjoined others rest := by
  intro last ends
  refine unjoined last ?_
  rw [List.getLast?_append, Option.mem_def.mp ends]
  rfl

theorem Unjoined.unquoted (unjoined : Unjoined word rest)
    (string : ∃ last ∈ word.getLast?, last.lexeme = .string) :
    ∀ next ∈ rest.head?, next.lexeme ≠ .string := by
  obtain ⟨last, ends, string⟩ := string
  intro next begins quoted
  have apart := unjoined last ends next begins
  rw [quoted, string] at apart
  nomatch apart

theorem Unjoined.undotted (unjoined : Unjoined word rest)
    (name : ∃ last ∈ word.getLast?, last.lexeme = .name) :
    ∀ next ∈ rest.head?, next.lexeme ≠ .sign .dot := by
  obtain ⟨last, ends, named⟩ := name
  intro next begins dotted
  have apart := unjoined last ends next begins
  rw [dotted, named] at apart
  nomatch apart

namespace Stops

theorem unjoined (stops : Stops word rest) : Unjoined word rest :=
  fun last ends next begins =>
    (Bool.or_eq_false_iff.mp (stops last ends next begins)).2

theorem isBinary_eq_false (stops : Stops word rest) {last : Token}
    (ends : word.getLast? = some last) :
    ∀ next ∈ rest.head?, next.lexeme.isBinary = false :=
  fun next begins => (Bool.or_eq_false_iff.mp (stops last ends next begins)).1

theorem of_append (stops : Stops (first ++ others) rest) :
    Stops others rest := by
  intro last ends
  refine stops last ?_
  rw [List.getLast?_append, Option.mem_def.mp ends]
  rfl

theorem of_sign {operator : Operator} (spelled : sign.lexeme = .sign operator)
    (separates : operator ∈ [.comma, .rightParen, .rightBracket]) :
    Stops word (sign :: rest) := by
  rintro last - _ ⟨⟩
  rw [spelled]
  exact Lexeme.goesOn_sign separates last.lexeme

end Stops

end Ends

namespace Forms

variable {apart : Token → Token → Prop} {part : Part}
  {word first second strings rest : List Token} {token : Token}

theorem exists_start (forms : Forms apart part word)
    (further : part ≠ .further) (points : part ≠ .points) :
    ∃ token rest, word = token :: rest ∧ token.lexeme.starts := by
  induction forms with
  | alone | further | unpointed | points => contradiction
  | chain _ _ signed_ih _ =>
      obtain ⟨token, rest, rfl, starts⟩ := signed_ih nofun nofun
      exact ⟨token, _, rfl, starts⟩
  | minus minus => exact ⟨_, _, rfl, by rw [minus]; rfl⟩
  | plain _ induction => exact induction nofun nofun
  | number counts => exact ⟨_, _, rfl, by rw [counts]; rfl⟩
  | strings quoted => exact ⟨_, _, rfl, by rw [quoted]; rfl⟩
  | truth decided => exact ⟨_, _, rfl, by rw [decided]; rfl⟩
  | name named => exact ⟨_, _, rfl, by rw [named]; rfl⟩
  | group opens => exact ⟨_, _, rfl, by rw [opens]; rfl⟩
  | emptyArray opens => exact ⟨_, _, rfl, by rw [opens]; rfl⟩
  | array opens => exact ⟨_, _, rfl, by rw [opens]; rfl⟩
  | last _ induction => exact induction nofun nofun
  | lastComma _ _ induction | comma _ _ _ induction _
  | line _ _ _ _ _ induction _ =>
      obtain ⟨token, rest, rfl, starts⟩ := induction nofun nofun
      exact ⟨token, _, rfl, starts⟩

theorem exists_getLast? (forms : Forms apart part word)
    (further : part ≠ .further) (points : part ≠ .points) :
    ∃ last, word.getLast? = some last := by
  obtain ⟨token, rest, rfl, -⟩ := forms.exists_start further points
  exact ⟨_, List.getLast?_eq_some_getLast (List.cons_ne_nil token rest)⟩

theorem append_further (forms : Forms apart part word)
    (goes : part = .chain ∨ part = .further)
    (back : Forms apart .further rest) : Forms apart part (word ++ rest) := by
  induction forms with
  | chain signed _ _ induction =>
      rw [List.append_assoc]
      exact .chain signed (induction (.inr rfl))
  | alone => exact back
  | further binary _ induction => exact .further binary (induction (.inl rfl))
  | _ => simp at goes

theorem of_minus (forms : Forms apart .signed (token :: rest))
    (minus : token.lexeme = .sign .minus) : Forms apart .signed rest := by
  cases forms with
  | minus _ signed => exact signed
  | plain primary => cases primary <;> simp_all

theorem of_string (forms : Forms apart .signed (token :: rest))
    (string : token.lexeme = .string) :
    ∀ other ∈ token :: rest, other.lexeme = .string := by
  cases forms with
  | minus minus _ => simp_all
  | plain primary => cases primary <;> simp_all

theorem last_points (points : Forms apart .points word) :
    ∀ last ∈ word.getLast?, last.lexeme = .name := by
  generalize part_eq : Part.points = part at points
  induction points with
  | unpointed => nofun
  | @points point name others _ named _ induction =>
      cases others with
      | nil =>
          rintro _ ⟨⟩
          exact named
      | cons =>
          rw [List.getLast?_cons_cons, List.getLast?_cons_cons]
          exact induction part_eq
  | _ => nomatch part_eq

theorem exists_last_string (quoted : token.lexeme = .string)
    (strings_only : ∀ token ∈ strings, token.lexeme = .string) :
    ∃ last ∈ (token :: strings).getLast?, last.lexeme = .string := by
  have nonempty := List.cons_ne_nil token strings
  have all_quoted : ∀ other ∈ token :: strings, other.lexeme = .string :=
    List.forall_mem_cons.mpr ⟨quoted, strings_only⟩
  exact ⟨_, List.getLast?_eq_some_getLast nonempty,
    all_quoted _ (List.getLast_mem nonempty)⟩

theorem exists_last_name (named : token.lexeme = .name)
    (points : Forms apart .points rest) :
    ∃ last ∈ (token :: rest).getLast?, last.lexeme = .name := by
  rw [List.getLast?_cons]
  cases ends : rest.getLast? with
  | none => exact ⟨token, rfl, named⟩
  | some last => exact ⟨last, rfl, points.last_points last ends⟩

theorem unclosed (forms : Forms apart .elements word) :
    ∀ next ∈ (word ++ [token] ++ rest).head?,
      next.lexeme.isAmong [.rightBracket] = false := by
  obtain ⟨next, others, rfl, starts⟩ := forms.exists_start nofun nofun
  rintro _ ⟨⟩
  exact (Lexeme.isAmong_of_starts starts).2

theorem append_strings (forms : Forms apart part word)
    (elements : part ≠ .elements)
    (quoted : ∃ last ∈ word.getLast?, last.lexeme = .string)
    (strings_only : ∀ token ∈ strings, token.lexeme = .string) :
    Forms apart part (word ++ strings) := by
  obtain ⟨last, ends, string⟩ := quoted
  -- The last token is the last one of the last part, to which the strings go.
  induction forms with
  | chain signed further signed_ih further_ih =>
      cases further with
      | alone =>
          rw [List.append_nil] at ends ⊢
          rw [← List.append_nil (_ ++ _)]
          exact .chain (signed_ih nofun ends) .alone
      | further =>
          rw [List.getLast?_append_cons] at ends
          rw [List.append_assoc]
          exact .chain signed (further_ih nofun ends)
  | further binary chain induction =>
      obtain ⟨inner, inner_eq⟩ := chain.exists_getLast? nofun nofun
      rw [List.getLast?_cons, inner_eq] at ends
      exact .further binary (induction nofun (inner_eq.trans ends))
  | minus minus signed induction =>
      obtain ⟨inner, inner_eq⟩ := signed.exists_getLast? nofun nofun
      rw [List.getLast?_cons, inner_eq] at ends
      exact .minus minus (induction nofun (inner_eq.trans ends))
  | plain _ induction => exact .plain (induction nofun ends)
  | strings quoted strings =>
      exact .strings quoted (List.forall_mem_append.mpr ⟨strings, strings_only⟩)
  | @name first others named points =>
      rw [List.getLast?_cons] at ends
      cases others_ends : others.getLast? with
      | none => simp_all
      | some other =>
          have pointed := points.last_points other others_ends
          simp_all
  | points dotted named points =>
      have pointed := (points.points dotted named).last_points last ends
      simp_all
  | alone | unpointed => nomatch ends
  | number | truth | emptyArray => simp_all
  | group | array =>
      rw [← List.cons_append, List.getLast?_concat] at ends
      simp_all
  | last | lastComma | comma | line => contradiction

/-- An expression that goes on in the next one is one expression with it. -/
theorem chain_join (front : Forms apart .chain first)
    (back : Forms apart .chain second) {last next : Token}
    (ends : first.getLast? = some last) (begins : second.head? = some next)
    (goes : next.lexeme.goesOn last.lexeme) :
    Forms apart .chain (first ++ second) := by
  cases back with
  | chain signed further =>
      obtain ⟨token, rest, rfl, starts⟩ := signed.exists_start nofun nofun
      cases begins
      -- What goes on is a minus, which is binary then, or a string.
      rcases Bool.or_eq_true_iff.mp goes with binary | joins
      · have minus := Lexeme.eq_minus starts binary
        refine front.append_further (.inl rfl) (.further binary ?_)
        exact .chain (signed.of_minus minus) further
      · obtain ⟨quoted, string⟩ := Lexeme.eq_string_of_joins starts joins
        rw [← List.append_assoc]
        refine append_further ?_ (.inl rfl) further
        exact front.append_strings nofun ⟨last, ends, string⟩
          (signed.of_string quoted)

theorem elements_join (front : Forms apart .chain first)
    (back : Forms apart .elements second) {last next : Token}
    (ends : first.getLast? = some last) (begins : second.head? = some next)
    (goes : next.lexeme.goesOn last.lexeme) :
    Forms apart .elements (first ++ second) := by
  have joined {element rest : List Token} (chain : Forms apart .chain element)
      (begins : (element ++ rest).head? = some next) :
      Forms apart .chain (first ++ element) := by
    obtain ⟨token, rest, rfl, -⟩ := chain.exists_start nofun nofun
    exact front.chain_join chain ends begins goes
  -- Only the first of the elements is joined, whatever follows it.
  cases back with
  | last chain =>
      rw [← List.append_nil second] at begins
      exact .last (joined chain begins)
  | lastComma chain separated =>
      rw [← List.append_assoc]
      exact .lastComma (joined chain begins) separated
  | comma chain separated elements =>
      rw [← List.append_assoc]
      exact .comma (joined chain begins) separated elements
  | line chain elements chain_ends rest_begins far =>
      rw [← List.append_assoc]
      refine .line (joined chain begins) elements ?_ rest_begins far
      rw [List.getLast?_append, chain_ends]
      rfl

/-- Line breaks that an expression goes on behind need not count: the elements
around them are one. -/
theorem tight (forms : Forms apart part word) :
    Forms (fun last next => apart last next ∧
      next.lexeme.goesOn last.lexeme = false) part word := by
  induction forms with
  | chain _ _ signed further => exact .chain signed further
  | alone => exact .alone
  | further binary _ chain => exact .further binary chain
  | minus minus _ signed => exact .minus minus signed
  | plain _ primary => exact .plain primary
  | number counts => exact .number counts
  | strings quoted strings => exact .strings quoted strings
  | truth decided => exact .truth decided
  | name named _ points => exact .name named points
  | group opens _ closes chain => exact .group opens chain closes
  | emptyArray opens closes => exact .emptyArray opens closes
  | array opens _ closes elements => exact .array opens elements closes
  | unpointed => exact .unpointed
  | points dotted named _ points => exact .points dotted named points
  | last _ chain => exact .last chain
  | lastComma _ separated chain => exact .lastComma chain separated
  | comma _ separated _ chain elements =>
      exact .comma chain separated elements
  | @line _ _ last next _ _ ends begins far chain elements =>
      cases goes : next.lexeme.goesOn last.lexeme with
      | true => exact chain.elements_join elements ends begins goes
      | false => exact .line chain elements ends begins ⟨far, goes⟩

end Forms

end Syntax

end ComponentLang
