import ComponentLang.Proofs.Scan.Printing
import ComponentLang.Proofs.Syntax.Beginnings
import Mathlib.Data.List.Forall2

namespace ComponentLang

open Terminal

def Item.IsMeant (item : Item) : Prop :=
  item.text ≠ Operator.backslash.spelling

theorem Item.isMeant_of_find? {item : Item}
    (unlike : find? [.operator .backslash] item.text = none) : item.IsMeant := by
  rw [find?, List.find?_eq_none] at unlike
  exact fun same => unlike _ List.mem_cons_self (beq_iff_eq.mpr same)

theorem Item.Spells.isTrivia {item : Item} {token : Token}
    (spells : item.Spells token) (meant : item.IsMeant) :
    token.isTrivia = false := by
  have sign : (item.text == "\\") = false := beq_eq_false_iff_ne.mpr meant
  unfold Token.isTrivia
  rw [spells.kind, spells.text, sign]
  rcases item.whole with ⟨-, kind_eq⟩ | ⟨-, kind_eq⟩
  · have lexical := Scan.lexicalKind_mem item.text
    rw [← kind_eq] at lexical
    generalize item.kind = kind at lexical
    revert kind
    decide
  · rw [kind_eq]
    rfl

namespace Syntax

def AreMeant (items : List Item) : Prop :=
  ∀ item ∈ items, item.IsMeant

section AreMeant

variable {items others : List Item} {item : Item} {terminal : Terminal}

@[simp] theorem areMeant_nil : AreMeant [] :=
  List.forall_mem_nil _

@[simp] theorem areMeant_cons :
    AreMeant (item :: items) ↔ item.IsMeant ∧ AreMeant items :=
  List.forall_mem_cons

@[simp] theorem areMeant_append :
    AreMeant (items ++ others) ↔ AreMeant items ∧ AreMeant others :=
  List.forall_mem_append

@[simp] theorem areMeant_lone :
    AreMeant (lone terminal) ↔ terminal ≠ .operator .backslash := by
  simp only [AreMeant, lone, List.forall_mem_singleton]
  exact not_congr ⟨fun same => Terminal.spelling_injective same,
    fun same => same ▸ rfl⟩

variable {α : Type} {print : α → List Item}
  (meant : ∀ part, AreMeant (print part))
include meant

@[simp] theorem areMeant_clause {part : Option α}
    (other : terminal ≠ .operator .backslash) :
    AreMeant (clause terminal (part.map print)) := by
  cases part with
  | none => exact areMeant_nil
  | some value =>
      exact areMeant_append.mpr ⟨areMeant_lone.mpr other, meant value⟩

@[simp] theorem areMeant_flatMap {parts : List α} :
    AreMeant (parts.flatMap print) := by
  intro item member
  obtain ⟨part, -, inside⟩ := List.mem_flatMap.mp member
  exact meant part item inside

@[simp] theorem areMeant_separated {parts : List α} :
    AreMeant (separated (parts.map print)) := by
  induction parts with
  | nil => exact areMeant_nil
  | cons part parts induction =>
      cases parts with
      | nil => exact meant part
      | cons => exact areMeant_append.mpr ⟨meant part, areMeant_append.mpr
          ⟨areMeant_lone.mpr (by decide), induction⟩⟩

end AreMeant

@[simp] theorem Name.isMeant_item (name : Name) : name.item.IsMeant :=
  Item.isMeant_of_find? (name.find?_eq_none (by decide))

@[simp] theorem Name.isMeant_declaration (name : Name) (scopes : List Scope)
    (kind : TokenKind) (modifiers : Modifiers) :
    (name.declaration scopes kind modifiers).IsMeant :=
  Item.isMeant_of_find? (name.find?_eq_none (by decide))

@[simp] theorem Number.isMeant_item (number : Number) : number.item.IsMeant :=
  Item.isMeant_of_find? (number.find?_eq_none _)

@[simp] theorem Quotation.areMeant (string : Quotation) :
    AreMeant string.items :=
  areMeant_cons.mpr ⟨Item.isMeant_of_find? (string.find?_eq_none _),
    areMeant_nil⟩

@[simp] theorem isMeant_builtinItem (type : BuiltinType) :
    (builtinItem type).IsMeant := by
  cases type <;> exact Item.isMeant_of_find? (by decide)

/-! Trees. -/

@[simp] theorem QualifiedName.areMeant (name : QualifiedName) :
    AreMeant name.items := by
  simp [QualifiedName.items]

mutual

theorem Expression.areMeant (expression : Expression) :
    AreMeant expression.items := by
  cases expression with
  | minus operand => simp [Expression.items, operand.areMeant]
  | single operand => simp [Expression.items, operand.areMeant]
  | chain operand sign others =>
      obtain ⟨sign, binary⟩ := sign
      have meant : sign ≠ .backslash := by
        rintro rfl
        revert binary
        decide
      simp [Expression.items, operand.areMeant, others.areMeant, meant]

theorem Operand.areMeant (operand : Operand) : AreMeant operand.items := by
  cases operand with
  | group inner => simp [Operand.items, inner.areMeant]
  | array elements => simp [Operand.items, elements.areMeant]
  | _ => simp [Operand.items]

theorem Elements.areMeant (elements : Elements) : AreMeant elements.items := by
  cases elements with
  | last element => simp [Elements.items, element.areMeant]
  | more element others =>
      simp [Elements.items, element.areMeant, others.areMeant]

end

attribute [simp] Expression.areMeant

@[simp] theorem TypeName.areMeant (type : TypeName) : AreMeant type.items := by
  cases type <;> simp [TypeName.items]

@[simp] theorem Parameter.areMeant (parameter : Parameter) (scopes : List Scope) :
    AreMeant (parameter.items scopes) := by
  cases reference : parameter.isReference <;> simp [Parameter.items, reference]

@[simp] theorem EnumConstant.areMeant (constant : EnumConstant)
    (scopes : List Scope) : AreMeant (constant.items scopes) := by
  simp [EnumConstant.items]

@[simp] theorem StructMember.areMeant (member : StructMember)
    (scopes : List Scope) : AreMeant (member.items scopes) := by
  simp [StructMember.items]

@[simp] theorem areMeant_signature (scopes : List Scope) (name : Name)
    (kind : TokenKind) (modifiers : Modifiers)
    (parameters : Option (List Parameter)) :
    AreMeant (signature scopes name kind modifiers parameters) := by
  simp [signature]

@[simp] theorem PlainDefinition.areMeant (definition : PlainDefinition)
    (scopes : List Scope) : AreMeant (definition.body scopes) := by
  cases definition <;> simp [PlainDefinition.body]

@[simp] theorem ComponentMember.areMeant (member : ComponentMember)
    (scopes : List Scope) : AreMeant (member.items scopes) := by
  cases member <;> simp [ComponentMember.items, ComponentMember.body]

mutual

theorem Definition.areMeant (definition : Definition) (scopes : List Scope) :
    AreMeant (definition.body scopes) := by
  cases definition with
  | plain definition => exact definition.areMeant scopes
  | port => simp [Definition.body]
  | component => simp [Definition.body]
  | module name definitions =>
      simp [Definition.body, areMeant_items definitions]

theorem areMeant_items (definitions : List Definition) (scopes : List Scope) :
    AreMeant (items scopes definitions) := by
  cases definitions with
  | nil => simp [items]
  | cons definition others =>
      simp [items, definition.areMeant scopes, areMeant_items others scopes]

end

/-! Layouts. -/

structure Gap where
  chars : List Char
  blank : chars.all Scan.isSpace

/-- What stands before, between and behind the items of a text. -/
structure Layout where
  front : Gap
  between : Nat → Gap
  back : Gap
  apart : ∀ place, (between place).chars ≠ []

def printFrom (between : Nat → Gap) (place : Nat) : List Item → List Char
  | [] => []
  | [item] => item.text.toList
  | item :: next :: others =>
      item.text.toList ++ ((between place).chars ++
        printFrom between (place + 1) (next :: others))

def Document.print (document : Document) (layout : Layout) : String :=
  .ofList (layout.front.chars ++
    (printFrom layout.between 0 document.items ++ layout.back.chars))

/-- The tokens of the text are the items of the document, but for trivia, and
no string is left open. -/
structure Document.IsSpelledBy (document : Document) (text : String) : Prop where
  items : document.items.Forall₂ Item.Spells (meaningful (scan text).tokens)
  closed : (scan text).errors = []

theorem Gap.spaced (gap : Gap) : Scan.Spaced gap.chars := by
  obtain ⟨chars, blank⟩ := gap
  cases chars with
  | nil => exact fun _ first => nomatch first
  | cons char rest =>
      rintro _ ⟨⟩
      exact (Bool.and_eq_true_iff.mp blank).1

theorem Gap.spaced_append (gap : Gap) (nonempty : gap.chars ≠ [])
    (rest : List Char) : Scan.Spaced (gap.chars ++ rest) := by
  have first := gap.spaced
  cases chars_eq : gap.chars with
  | nil => exact absurd chars_eq nonempty
  | cons char others =>
      rw [chars_eq] at first
      exact first

theorem head?_printFrom_ne_feed (between : Nat → Gap) (place : Nat)
    (item : Item) (items : List Item) (rest : List Char) :
    (printFrom between place (item :: items) ++ rest).head? ≠ some '\n' := by
  cases items with
  | nil => exact item.whole.head?_ne_feed rest
  | cons next others =>
      rw [printFrom, List.append_assoc]
      exact item.whole.head?_ne_feed _

/-- A printed text is scanned as its items, from any place on. -/
theorem exists_scanFrom_print {between : Nat → Gap}
    (apart : ∀ place, (between place).chars ≠ []) (back : Gap)
    (items : List Item) (place row column : Nat) :
    ∃ tokens, items.Forall₂ Item.Spells tokens ∧
      Scan.scanFrom row column (printFrom between place items ++ back.chars) =
        ⟨tokens, []⟩ := by
  induction items generalizing place row column with
  | nil =>
      have no_feed : ([] : List Char).head? ≠ some '\n' := nofun
      obtain ⟨lower, further, scan_eq⟩ :=
        Scan.exists_scanFrom_spaces back.blank no_feed row column
      rw [List.append_nil, Scan.scanFrom_nil] at scan_eq
      exact ⟨[], .nil, scan_eq⟩
  | cons item items induction =>
      cases items with
      | nil =>
          obtain ⟨tokens, nothing, scan_eq⟩ := induction place row
            (column + Text.units item.text.toList)
          cases nothing
          rw [printFrom, Scan.scanFrom_of_isWhole item.whole back.spaced]
          rw [printFrom, List.nil_append] at scan_eq
          rw [scan_eq]
          exact ⟨[_], .cons ⟨rfl, rfl⟩ .nil, rfl⟩
      | cons next others =>
          obtain ⟨lower, further, gap_eq⟩ := Scan.exists_scanFrom_spaces
            (between place).blank
            (head?_printFrom_ne_feed between (place + 1) next others back.chars)
            row (column + Text.units item.text.toList)
          obtain ⟨tokens, spelled, scan_eq⟩ :=
            induction (place + 1) lower further
          rw [printFrom, List.append_assoc, List.append_assoc,
            Scan.scanFrom_of_isWhole item.whole
              ((between place).spaced_append (apart place) _),
            gap_eq, scan_eq]
          exact ⟨_ :: tokens, .cons ⟨rfl, rfl⟩ spelled, rfl⟩

theorem exists_scan_print (layout : Layout) (items : List Item) :
    ∃ tokens, items.Forall₂ Item.Spells tokens ∧
      Scan.scanFrom 0 0 (layout.front.chars ++
        (printFrom layout.between 0 items ++ layout.back.chars)) =
          ⟨tokens, []⟩ := by
  cases items with
  | nil =>
      have blank : (layout.front.chars ++ layout.back.chars).all Scan.isSpace :=
        List.all_append.trans (Bool.and_eq_true_iff.mpr
          ⟨layout.front.blank, layout.back.blank⟩)
      have no_feed : ([] : List Char).head? ≠ some '\n' := nofun
      obtain ⟨row, column, scan_eq⟩ :=
        Scan.exists_scanFrom_spaces blank no_feed 0 0
      rw [List.append_nil, Scan.scanFrom_nil] at scan_eq
      exact ⟨[], .nil, scan_eq⟩
  | cons item others =>
      obtain ⟨row, column, front_eq⟩ := Scan.exists_scanFrom_spaces
        layout.front.blank (head?_printFrom_ne_feed layout.between 0 item others
          layout.back.chars) 0 0
      rw [front_eq]
      exact exists_scanFrom_print layout.apart layout.back _ 0 row column

theorem meaningful_eq_self {items : List Item} {tokens : List Token}
    (spelled : items.Forall₂ Item.Spells tokens) (meant : AreMeant items) :
    meaningful tokens = tokens := by
  induction spelled with
  | nil => rfl
  | cons spells _ induction =>
      obtain ⟨here, later⟩ := areMeant_cons.mp meant
      have carries := spells.isTrivia here
      rw [meaningful, List.filter_cons_of_pos (by simp [carries])]
      exact congrArg _ (induction later)

theorem Document.isSpelledBy_print (document : Document) (layout : Layout) :
    document.IsSpelledBy (document.print layout) := by
  obtain ⟨tokens, spelled, scan_eq⟩ := exists_scan_print layout document.items
  have whole : scan (document.print layout) = ⟨tokens, []⟩ := by
    rw [scan, ← Scan.scanFrom_eq_scanLines, Document.print,
      String.toList_ofList]
    exact scan_eq
  refine ⟨?_, congrArg Scan.errors whole⟩
  rw [whole, meaningful_eq_self spelled (areMeant_items document [])]
  exact spelled

end Syntax

end ComponentLang
