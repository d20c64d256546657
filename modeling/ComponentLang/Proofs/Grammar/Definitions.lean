import ComponentLang.Proofs.Grammar.Expressions

namespace ComponentLang

open Rule Terminal

namespace Syntax

variable {scopes : List Scope} {current : Option Item} {rest : List Item}

/-- The terminals that can go on with a definition or a part of one. -/
def extending : List Terminal :=
  continuing ++
    [Operator.arrow, .leftParen, .equals].map Terminal.operator ++
    [Keyword.default, .format, .opcode, .priority, .id, .set, .save, .assert,
      .block, .drop].map Terminal.keyword

/-! The parts of definitions. -/

theorem Quotation.string_accepted (string : Quotation)
    (unquoted : ∀ item ∈ rest.head?, item.kind ≠ .string) :
    Accepts scopes current .string string.items rest :=
  .takeThen (.need rfl rfl) (.holds nofun rfl (.strings unquoted))

theorem Name.fits_sizedType (name : Name) :
    Test.sizedType.fits name.item = false := by
  rw [Bool.eq_false_iff]
  intro fits
  have unknown := Literal.builtinType_eq_none name.valid
  rw [show name.text = BuiltinType.string.spelling from beq_iff_eq.mp fits,
    BuiltinType.ofSpelling?_spelling] at unknown
  nomatch unknown

theorem TypeName.accepted (type : TypeName) (ends : Ends continuing rest) :
    Accepts scopes current .typeName type.items rest := by
  cases type with
  | builtin type =>
      have known : Test.builtinType.fits (builtinItem type) :=
        Option.isSome_iff_exists.mpr ⟨type, BuiltinType.ofSpelling?_spelling type⟩
      refine .takeLast (.need ?_ rfl) ?_
      · exact Bool.or_eq_true_iff.mpr (.inl known)
      · cases sized : Test.sizedType.fits (builtinItem type) with
        | true =>
            refine .holds nofun sized (.missing ?_ .done)
            exact ends.apart.mono (by decide)
        | false => exact .fails nofun sized (.holds nofun known .done)
  | sized size =>
      refine .takeThen (.need rfl rfl) (.holds nofun rfl ?_)
      exact .found List.mem_cons_self (size.accepted ends)
  | declared name =>
      have identifier := name.first.valid
      have unknown : Test.builtinType.fits name.first.item = false := by
        change (BuiltinType.ofSpelling? name.first.text).isSome = false
        rw [Literal.builtinType_eq_none identifier]
        rfl
      refine .takeThen (.need (Bool.or_eq_true_iff.mpr (.inr identifier)) rfl) ?_
      refine .fails nofun name.first.fits_sizedType (.fails nofun unknown ?_)
      refine .holds nofun identifier (.behind (.resolve identifier) ?_)
      exact names_accepted name.others (ends.apart.mono (by decide))

theorem TypeName.apart (type : TypeName) :
    Apart [Operator.leftBracket] (type.items ++ rest) := by
  cases type with
  | builtin type => exact apart_cons (by cases type <;> decide)
  | sized size => exact apart_cons (by decide)
  | declared name => exact apart_cons (name.first.find?_eq_none (by decide))

structure IsElement (scopes : List Scope) (closer : Terminal) (element : Rule)
    (part : List Item) : Prop where
  apart : ∀ rest, Apart [closer] (part ++ rest)
  accepted : ∀ current rest, Ends extending rest →
    Accepts scopes current element part rest

section Lists

variable {closer : Terminal} {element : Rule} {nonterminal : Nonterminal}
  {part front : List Item}

theorem accepted_last
    (rule_eq : nonterminal.rule = .listOf closer element (.call nonterminal))
    (closing : closer ∉ .operator .comma :: extending)
    (is_element : IsElement scopes closer element part) :
    Accepts scopes current (.call nonterminal) (part ++ lone closer) rest := by
  have closed : Accepts scopes none (.call nonterminal) (lone closer) rest := by
    refine .call ?_
    rw [rule_eq]
    exact .found List.mem_cons_self .done
  refine .call ?_
  rw [rule_eq]
  refine .missing ?_ (.recover (is_element.accepted _ _ ?_) (.missing ?_ closed))
  · rw [List.append_assoc]
    exact is_element.apart _
  · exact ends_terminal fun member => closing (List.mem_cons_of_mem _ member)
  · apply apart_terminal
    intro comma
    obtain rfl := List.mem_singleton.mp comma
    exact closing List.mem_cons_self

theorem accepted_more
    (rule_eq : nonterminal.rule = .listOf closer element (.call nonterminal))
    (is_element : IsElement scopes closer element part)
    (others : Accepts scopes none (.call nonterminal) front rest) :
    Accepts scopes current (.call nonterminal)
      (part ++ (lone Operator.comma ++ front)) rest := by
  refine .call ?_
  rw [rule_eq]
  refine .missing ?_ (.recover (is_element.accepted _ _ ?_)
    (.found List.mem_cons_self others))
  · rw [List.append_assoc]
    exact is_element.apart _
  · exact ends_terminal (by decide)

theorem list_accepted {parts : List (List Item)}
    (rule_eq : nonterminal.rule = .listOf closer element (.call nonterminal))
    (closing : closer ∉ .operator .comma :: extending)
    (elements : ∀ part ∈ parts, IsElement scopes closer element part) :
    Accepts scopes current (.call nonterminal)
      (separated parts ++ lone closer) rest := by
  fun_induction separated parts generalizing current with
  | case1 =>
      refine .call ?_
      rw [rule_eq]
      exact .found List.mem_cons_self .done
  | case2 part =>
      exact accepted_last rule_eq closing (elements part List.mem_cons_self)
  | case3 part others _ induction =>
      rw [List.append_assoc, List.append_assoc]
      obtain ⟨first, later⟩ := List.forall_mem_cons.mp elements
      exact accepted_more rule_eq first (induction later)

end Lists

section Clauses

variable {terminal : Terminal} (ends : Ends (terminal :: continuing) rest)
include ends

theorem optional_expression_accepted {value : Option Expression} :
    Accepts scopes current (.optional terminal .expression)
      (clause terminal (value.map Expression.items)) rest :=
  .optional ends.of_cons.1 fun value => value.accepted ends.of_cons.2

theorem optional_typeName_accepted {type : Option TypeName} :
    Accepts scopes current (.optional terminal .typeName)
      (clause terminal (type.map TypeName.items)) rest :=
  .optional ends.of_cons.1 fun type => type.accepted ends.of_cons.2

theorem optional_string_accepted {string : Option Quotation} :
    Accepts scopes current (.optional terminal .string)
      (clause terminal (string.map Quotation.items)) rest :=
  .optional ends.of_cons.1 fun string => string.string_accepted ends.unquoted

end Clauses

theorem EnumConstant.isElement (constant : EnumConstant) :
    IsElement scopes Operator.rightBrace
      (.define .enumMember { readonly := true } .done ++
        .optional Operator.equals .expression)
      (constant.items scopes) where
  apart rest := apart_cons (constant.name.find?_eq_none (by decide))
  accepted current rest ends := by
    refine .seq (.declaration _ _ _ rfl) ?_
    exact optional_expression_accepted (ends.mono (by decide))

theorem StructMember.isElement (member : StructMember) :
    IsElement scopes Operator.rightBrace
      (.declaration .variable ++ .require Operator.colon ++ .optionalIndex ++
        .typeName ++ .optional Keyword.format .string)
      (member.items scopes) where
  apart rest := apart_cons (member.name.find?_eq_none (by decide))
  accepted current rest ends := by
    have formatted : Ends continuing
        (clause Keyword.format (member.format.map Quotation.items) ++ rest) :=
      .clause (ends.mono (by decide)) (by decide)
    refine .seq ?_ (optional_string_accepted (ends.mono (by decide)))
    refine .seq ?_ (member.type.accepted formatted)
    refine .seq (.seq (.declaration _ _ _ rfl) (.require _)) ?_
    refine .optional ?_ fun size => .seq (size.accepted ?_) (.require _)
    · exact member.type.apart
    · exact ends_terminal (by decide)

theorem Parameter.isElement (parameter : Parameter) :
    IsElement scopes Operator.rightParen
      (.optional Keyword.ref .done ++ .declaration .parameter ++
        .require Operator.colon ++ .typeName)
      (parameter.items scopes) where
  apart rest := by
    unfold Parameter.items
    cases parameter.isReference with
    | true => exact apart_terminal (by decide)
    | false => exact apart_cons (parameter.name.find?_eq_none (by decide))
  accepted current rest ends := by
    refine .seq ?_ (parameter.type.accepted (ends.mono (by decide)))
    refine .seq (.seq ?_ (.declaration _ _ _ rfl)) (.require _)
    cases parameter.isReference with
    | true => exact .found List.mem_cons_self .done
    | false =>
        exact .missing (apart_cons (parameter.name.find?_eq_none (by decide)))
          .done

theorem signature_accepted (name : Name) (kind : TokenKind)
    (modifiers : Modifiers) (plain : modifiers.declaration = false)
    (parameters : Option (List Parameter))
    (apart : Apart [Operator.leftParen] rest) :
    Accepts scopes current (.signature kind modifiers)
      (signature scopes name kind modifiers parameters) rest := by
  cases parameters with
  | none => exact .signature name plain apart
  | some parameters =>
      refine .parameters name plain (list_accepted rfl (by decide) ?_)
      exact List.forall_mem_map.mpr fun parameter _ => parameter.isElement

/-! Definitions, each behind its first word. -/

theorem select_eq_none {word : Keyword}
    (member : Terminal.keyword word ∈ extending) (block : Block)
    (follows : Terminal → Bool) : Statement.select block follows word = none := by
  cases word <;> first | rfl | exact absurd member (by decide)

theorem ends_word {block : Block} {word : Keyword} {statement : Statement}
    (selected : Statement.select block (fun _ => false) word = some statement) :
    Ends extending (.terminal word :: rest) := by
  refine ends_terminal fun member => ?_
  rw [select_eq_none member] at selected
  nomatch selected

namespace PlainDefinition

def statement : PlainDefinition → Statement
  | .array .. => .arrayDefinition
  | .constant .. => .constantDefinition
  | .enum .. => .enumDefinition
  | .struct .. => .structDefinition
  | .type .. => .typeDefinition

theorem apart (definition : PlainDefinition) :
    Apart Statement.followers (definition.body scopes ++ rest) := by
  cases definition with
  | _ name => exact apart_cons (name.find?_eq_none (by decide))

theorem accepted (definition : PlainDefinition) (ends : Ends extending rest) :
    Accepts scopes none definition.statement.rule (definition.body scopes)
      rest := by
  cases definition with
  | array name size element default format =>
      have formatted : Ends (.keyword .default :: continuing)
          (clause Keyword.format (format.map Quotation.items) ++ rest) :=
        .clause (ends.mono (by decide)) (by decide)
      refine .seq ?_ (optional_string_accepted (ends.mono (by decide)))
      refine .seq ?_ (optional_expression_accepted formatted)
      refine .seq ?_ (element.accepted (.clause formatted.of_cons.2 (by decide)))
      refine .seq (.seq ?_ (size.accepted (ends_terminal (by decide))))
        (.require _)
      exact .seq (.seq (.declaration _ _ _ rfl) (.require _)) (.require _)
  | constant name value =>
      refine .seq ?_ (value.accepted (ends.mono (by decide)))
      exact .seq (.declaration _ _ _ rfl) (.require _)
  | enum name base constants default =>
      refine .seq (.define name rfl (.seq ?_ (.requireThen ?_)))
        (optional_expression_accepted (ends.mono (by decide)))
      · exact optional_typeName_accepted (ends_terminal (by decide))
      · refine list_accepted rfl (by decide) ?_
        exact List.forall_mem_map.mpr fun constant _ => constant.isElement
  | struct name members default =>
      refine .seq (.define name rfl (.requireThen ?_))
        (optional_expression_accepted (ends.mono (by decide)))
      refine list_accepted rfl (by decide) ?_
      exact List.forall_mem_map.mpr fun member _ => member.isElement
  | type name equal =>
      refine .seq (.declaration _ _ _ rfl) ?_
      exact optional_typeName_accepted (ends.mono (by decide))

end PlainDefinition

namespace ComponentMember

def statement : ComponentMember → Statement
  | .plain definition => definition.statement
  | .command mode .. => .command (mode == .async)
  | .param .. => .param

theorem accepted (member : ComponentMember) (ends : Ends extending rest) :
    Accepts scopes none member.statement.rule (member.body scopes) rest := by
  cases member with
  | plain definition => exact definition.accepted ends
  | command mode name parameters opcode priority =>
      refine .ahead (.seq ?_ (optional_expression_accepted
        (ends.mono (by decide)))) ?_
      · refine .seq ?_ (optional_expression_accepted
          (.clause (ends.mono (by decide)) (by decide)))
        refine .seq (.require _) (signature_accepted _ _ _ rfl _ ?_)
        exact Ends.apart (.clause (.clause (ends.mono (by decide)) (by decide))
          (by decide))
      · cases mode with
        | async => exact .missing (ends.apart.mono (by decide)) .done
        | _ => exact .done
  | param name type default id =>
      have identified : Ends (.keyword .default :: continuing)
          (clause Keyword.id (id.map Expression.items) ++ rest) :=
        .clause (ends.mono (by decide)) (by decide)
      refine .ahead (.ahead ?_ ?_) ?_
      · refine .seq ?_ (optional_expression_accepted (ends.mono (by decide)))
        refine .seq ?_ (optional_expression_accepted identified)
        refine .seq ?_ (type.accepted (.clause identified.of_cons.2 (by decide)))
        exact .seq (.declaration _ _ _ rfl) (.require _)
      · exact .missing (ends.apart.mono (by decide)) .done
      · exact .missing (ends.apart.mono (by decide)) .done

theorem apart (member : ComponentMember) :
    Apart Statement.followers (member.body scopes ++ rest) := by
  cases member with
  | plain definition => exact definition.apart
  | command => exact apart_terminal (by decide)
  | param name => exact apart_cons (name.find?_eq_none (by decide))

theorem selected (member : ComponentMember) :
    Statement.select .component (fun _ => false) member.word =
      some member.statement := by
  cases member with
  | plain definition => cases definition <;> rfl
  | command mode => cases mode <;> rfl
  | param => rfl

end ComponentMember

section Members

variable {block : Block} {word : Keyword} {body front : List Item}

theorem members_accepted_nil :
    Accepts scopes current (.call (.members block)) (lone Operator.rightBrace)
      rest :=
  .call (.found List.mem_cons_self .done)

theorem members_accepted_cons
    (statement : Accepts scopes (some (.terminal word)) (.statement block) body
      (front ++ rest))
    (others : Accepts scopes none (.call (.members block)) front rest) :
    Accepts scopes current (.call (.members block))
      (lone word ++ (body ++ front)) rest :=
  .call (.missing (apart_terminal nofun)
    (.takeThen .advance (.recover statement others)))

end Members

theorem ends_componentMembers (members : List ComponentMember)
    (ends : Ends extending rest) :
    Ends extending (members.flatMap (ComponentMember.items scopes) ++ rest) := by
  cases members with
  | nil => exact ends
  | cons member others => exact ends_word member.selected

theorem componentMembers_accepted (members : List ComponentMember) :
    Accepts scopes current (.call (.members .component))
      (members.flatMap (ComponentMember.items scopes) ++
        lone Operator.rightBrace) rest := by
  induction members generalizing current with
  | nil => exact members_accepted_nil
  | cons member others induction =>
      rw [List.flatMap_cons, List.append_assoc, ComponentMember.items,
        List.append_assoc]
      refine members_accepted_cons
        (.statement member.apart member.selected (member.accepted ?_)) induction
      rw [List.append_assoc]
      exact ends_componentMembers others (ends_terminal (by decide))

namespace Definition

def statement : Definition → Statement
  | .plain definition => definition.statement
  | .port .. => .portDefinition
  | .component .. => .componentDefinition
  | .module .. => .moduleDefinition

theorem apart (definition : Definition) :
    Apart Statement.followers (definition.body scopes ++ rest) := by
  cases definition with
  | plain definition => exact definition.apart
  | component => exact apart_terminal (by decide)
  | port name => exact apart_cons (name.find?_eq_none (by decide))
  | module name => exact apart_cons (name.find?_eq_none (by decide))

theorem selected (definition : Definition) {block : Block}
    (holder : block = .document ∨ block = .module) :
    Statement.select block (fun _ => false) definition.word =
      some definition.statement := by
  rcases holder with rfl | rfl <;>
  · cases definition with
    | plain definition => cases definition <;> rfl
    | component mode => cases mode <;> rfl
    | _ => rfl

end Definition

theorem ends_items (definitions : List Definition)
    (ends : Ends extending rest) :
    Ends extending (items scopes definitions ++ rest) := by
  cases definitions with
  | nil => exact ends
  | cons definition others =>
      exact ends_word (definition.selected (.inl rfl))

mutual

theorem Definition.accepted (definition : Definition) {scopes : List Scope}
    {rest : List Item} (ends : Ends extending rest) :
    Accepts scopes none definition.statement.rule (definition.body scopes)
      rest := by
  cases definition with
  | plain definition => exact definition.accepted ends
  | port name parameters result =>
      refine .seq (signature_accepted _ _ _ rfl _ ?_)
        (optional_typeName_accepted (ends.mono (by decide)))
      exact Ends.apart (.clause (ends.mono (by decide)) (by decide))
  | component mode name members =>
      refine .seq (.require _) (.define name rfl (.requireThen ?_))
      exact componentMembers_accepted members
  | module name definitions =>
      exact .define name rfl (.requireThen (definitions_accepted definitions))

theorem definitions_accepted (definitions : List Definition)
    {scopes : List Scope} {current : Option Item} {rest : List Item} :
    Accepts scopes current (.call (.members .module))
      (items scopes definitions ++ lone Operator.rightBrace) rest := by
  cases definitions with
  | nil => exact members_accepted_nil
  | cons definition others =>
      rw [items, List.append_assoc, List.append_assoc]
      refine members_accepted_cons (.statement definition.apart
        (definition.selected (.inr rfl)) (definition.accepted ?_))
        (definitions_accepted others)
      rw [List.append_assoc]
      exact ends_items others (ends_terminal (by decide))

end

end Syntax

end ComponentLang
