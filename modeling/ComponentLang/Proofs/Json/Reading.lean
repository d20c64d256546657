import ComponentLang.Json.Reader
import ComponentLang.Proofs.Json.Spelling

namespace ComponentLang.Json

/-! The machine on a text. -/

namespace Lexeme

theorem readFrom_eq_map (found : List Lexeme) (chars : List Char) :
    readFrom found chars =
      (readFrom [] chars).map (found.reverse ++ ·) := by
  induction length_eq : chars.length using Nat.strong_induction_on
    generalizing found chars with
  | _ length induction =>
      cases chars with
      | nil => simp [readFrom]
      | cons char rest =>
          have shorter : rest.length < length := by simp [← length_eq]
          rw [readFrom, readFrom]
          split
          · exact induction _ shorter found rest rfl
          · split
            case h_1 lexeme left split_eq =>
              have shorter : left.length < length :=
                length_eq ▸ length_split? split_eq
              rw [induction _ shorter (lexeme :: found) left rfl,
                induction _ shorter [lexeme] left rfl, Option.map_map]
              simp [Function.comp_def]
            case h_2 => rfl

theorem isGap_iff {char : Char} :
    isGap char ↔ char = ' ' ∨ char = '\t' ∨ char = '\n' ∨ char = '\r' := by
  simp only [isGap, Bool.or_eq_true, beq_iff_eq, or_assoc]

theorem split?_of_isGap {char : Char} (gap : isGap char) (rest : List Char) :
    split? (char :: rest) = none := by
  rcases isGap_iff.mp gap with rfl | rfl | rfl | rfl <;> rfl

theorem readFrom_of_split? {chars left : List Char} {lexeme : Lexeme}
    (split_eq : split? chars = some (lexeme, left)) :
    readFrom [] chars = (readFrom [] left).map (lexeme :: ·) := by
  cases chars with
  | nil => simp [split?] at split_eq
  | cons char rest =>
      have noGap : ¬ isGap char := fun gap => by
        simp [split?_of_isGap gap] at split_eq
      rw [readFrom, if_neg noGap]
      split
      case h_1 other behind other_eq =>
        obtain ⟨rfl, rfl⟩ := by simpa [split_eq] using other_eq
        exact readFrom_eq_map [lexeme] left
      case h_2 none_eq => simp [split_eq] at none_eq

theorem isGap_of_mem_newline : ∀ char ∈ "\n".toList, isGap char := by
  simp [isGap]

theorem isNumberChar_of_isGap {char : Char} (gap : isGap char) :
    isNumberChar char = false := by
  rcases isGap_iff.mp gap with rfl | rfl | rfl | rfl <;> rfl

theorem endsNumber_mark {char : Char} {mark : Mark}
    (mark_eq : mark? char = some mark) (rest : List Char) :
    EndsNumber (char :: rest) := by
  rintro _ ⟨⟩
  by_contra number
  rw [Bool.not_eq_false] at number
  simp [mark?_of_isNumberChar number] at mark_eq

theorem endsNumber_gaps {gaps : List Char} (all : ∀ char ∈ gaps, isGap char)
    {char : Char} {mark : Mark} (mark_eq : mark? char = some mark)
    (rest : List Char) : EndsNumber (gaps ++ char :: rest) := by
  cases gaps with
  | nil => exact endsNumber_mark mark_eq rest
  | cons gap gaps =>
      rintro _ ⟨⟩
      exact isNumberChar_of_isGap (all gap List.mem_cons_self)

end Lexeme

namespace Machine

def run (machine : Machine) (chars : List Char) : Option Machine := do
  let lexemes ← Lexeme.readFrom [] chars
  lexemes.foldlM step machine

variable {machine next : Machine} {rest : List Char}

@[simp] theorem run_nil (machine : Machine) :
    machine.run [] = some machine := by
  simp [run, Lexeme.readFrom]

theorem run_of_split? {chars : List Char} {lexeme : Lexeme}
    (split_eq : Lexeme.split? chars = some (lexeme, rest))
    (step_eq : machine.step lexeme = some next) :
    machine.run chars = next.run rest := by
  rw [run, Lexeme.readFrom_of_split? split_eq, run]
  cases Lexeme.readFrom [] rest with
  | none => rfl
  | some lexemes => simp [step_eq]

theorem run_gaps {gaps : List Char} (all : ∀ char ∈ gaps, Lexeme.isGap char) :
    machine.run (gaps ++ rest) = machine.run rest := by
  induction gaps with
  | nil => rfl
  | cons gap gaps induction =>
      obtain ⟨first, others⟩ := List.forall_mem_cons.mp all
      rw [← induction others, List.cons_append, run, Lexeme.readFrom,
        if_pos first, run]

theorem run_mark {char : Char} {mark : Mark}
    (mark_eq : Lexeme.mark? char = some mark)
    (step_eq : machine.step (.mark mark) = some next) :
    machine.run (char :: rest) = next.run rest := by
  refine run_of_split? ?_ step_eq
  unfold Lexeme.mark? at mark_eq
  split at mark_eq
  case h_7 => contradiction
  all_goals
    cases mark_eq
    rfl

theorem run_quote {text : String}
    (step_eq : machine.step (.string (some text)) = some next) :
    machine.run ((quote (some text)).toList ++ rest) = next.run rest :=
  run_of_split? (Lexeme.split?_quote text rest) step_eq

end Machine

/-! Printed values. -/

/-- A value that can be told from how it is written: every number is one, and no
string is without a text. -/
inductive Writable : Json → Prop where
  | null : Writable .null
  | bool (value : Bool) : Writable (.bool value)
  | number {literal : String}
      (isNumber : Lexeme.isNumberLiteral literal.toList) :
      Writable (.number literal)
  | string (text : String) : Writable (.string (some text))
  | array {items : List Json} (items_writable : ∀ item ∈ items, Writable item) :
      Writable (.array items)
  | object {members : List (Option String × Json)}
      (keys : ∀ member ∈ members, member.1.isSome)
      (values : ∀ member ∈ members, Writable member.2) :
      Writable (.object members)

structure Layout.Blank (layout : Layout) : Prop where
  afterKey : ∃ gaps : List Char, layout.afterKey.toList = ':' :: gaps ∧
    ∀ char ∈ gaps, Lexeme.isGap char
  lineBreak : ∀ depth, ∀ char ∈ (layout.lineBreak depth).toList,
    Lexeme.isGap char

theorem Layout.blank_indented : Layout.indented.Blank where
  afterKey := ⟨[' '], rfl, by simp [Lexeme.isGap]⟩
  lineBreak := by
    intro depth char member
    simp only [Layout.indented, String.toList_append, String.toList_ofList,
      List.mem_append, List.mem_replicate] at member
    rcases member with newline | ⟨-, rfl⟩
    · exact Lexeme.isGap_of_mem_newline char newline
    · rfl

theorem printItems_eq_map (layout : Layout) (depth : Nat) (items : List Json) :
    printItems layout depth items = items.map (print layout depth) := by
  induction items with
  | nil => rfl
  | cons item items induction => rw [printItems, induction, List.map_cons]

def printMember (layout : Layout) (depth : Nat)
    (member : Option String × Json) : String :=
  quote member.1 ++ layout.afterKey ++ print layout depth member.2

theorem printMembers_eq_map (layout : Layout) (depth : Nat)
    (members : List (Option String × Json)) :
    printMembers layout depth members =
      members.map (printMember layout depth) := by
  induction members with
  | nil => rfl
  | cons member members induction =>
      rw [printMembers, induction, List.map_cons, printMember]

namespace Machine

/-- Whether the machine expects a value with these arrays and objects open
around it. An array whose first item is expected is open around that item. -/
def Awaits (machine : Machine) (stack : List Open) : Prop :=
  ∀ lexeme ≠ .mark .closeBracket, machine.step lexeme = beginValue stack lexeme

theorem awaits_value (stack : List Open) :
    Awaits ⟨.value, stack⟩ stack :=
  fun _ _ => rfl

theorem awaits_firstItem (stack : List Open) :
    Awaits ⟨.firstItem, stack⟩ (.array [] :: stack) := by
  intro lexeme noClosing
  cases lexeme with
  | mark mark =>
      cases mark with
      | closeBracket => exact absurd rfl noClosing
      | _ => rfl
  | _ => rfl

def AwaitsKey (machine : Machine) (members : List (Option String × Json))
    (stack : List Open) : Prop :=
  ∀ key, machine.step (.string key) = some ⟨.colon members key, stack⟩

/-- How the machine takes the parts of an array or of an object: which machines
expect a part behind those found, latest first, and what a part and the closing
mark lead to. -/
structure Parts (Part : Type) where
  Expects : List Part → Machine → Prop
  behind : List Part → Part → Machine
  closing : Mark
  closed : List Part → Machine
  comma : ∀ found part, ∃ next,
    (behind found part).step (.mark .comma) = some next ∧
      Expects (part :: found) next
  close : ∀ found part,
    (behind found part).step (.mark closing) =
      some (closed (part :: found).reverse)

def itemParts (stack : List Open) : Parts Json where
  Expects found machine := machine.Awaits (.array found :: stack)
  behind found item := ⟨.separator item, .array found :: stack⟩
  closing := .closeBracket
  closed items := ⟨.separator (.array items), stack⟩
  comma _ _ := ⟨_, rfl, awaits_value _⟩
  close _ _ := rfl

def memberParts (stack : List Open) : Parts (Option String × Json) where
  Expects found machine := machine.AwaitsKey found stack
  behind found member := ⟨.separator member.2, .object found member.1 :: stack⟩
  closing := .closeBrace
  closed members := ⟨.separator (.object members), stack⟩
  comma _ _ := ⟨_, rfl, fun _ => rfl⟩
  close _ _ := rfl

namespace Parts

variable {Part : Type}

def Reads (kind : Parts Part) (write : Part → String) (part : Part) : Prop :=
  ∀ (found : List Part) (machine : Machine) (rest : List Char),
    kind.Expects found machine → Lexeme.EndsNumber rest →
    machine.run ((write part).toList ++ rest) =
      (kind.behind found part).run rest

variable {kind : Parts Part} {write : Part → String} {layout : Layout}

theorem run_intercalate (blank : layout.Blank) {closing : Char}
    (closing_eq : Lexeme.mark? closing = some kind.closing) {depth outer : Nat}
    {parts : List Part} (some_part : parts ≠ [])
    (reads : ∀ part ∈ parts, kind.Reads write part) {found : List Part}
    {machine : Machine} (expects : kind.Expects found machine)
    (rest : List Char) :
    machine.run
        ((("," ++ layout.lineBreak depth).intercalate
            (parts.map write)).toList ++
          ((layout.lineBreak outer).toList ++ closing :: rest)) =
      (kind.closed (found.reverse ++ parts)).run rest := by
  induction parts generalizing found machine with
  | nil => exact absurd rfl some_part
  | cons part parts induction =>
      obtain ⟨reads_part, reads_parts⟩ := List.forall_mem_cons.mp reads
      cases parts with
      | nil =>
          rw [List.map_singleton, String.intercalate_singleton,
            reads_part found machine _ expects
              (Lexeme.endsNumber_gaps (blank.lineBreak outer) closing_eq rest),
            run_gaps (blank.lineBreak outer),
            run_mark closing_eq (kind.close found part), List.reverse_cons]
      | cons other parts =>
          obtain ⟨next, comma_eq, expects_next⟩ := kind.comma found part
          have comma : Lexeme.mark? ',' = some .comma := rfl
          have comma_append (chars : List Char) :
              ",".toList ++ chars = ',' :: chars := rfl
          rw [List.map_cons, List.map_cons, String.intercalate_cons_cons,
            String.toList_append, String.toList_append, String.toList_append,
            List.append_assoc, List.append_assoc, List.append_assoc,
            comma_append,
            reads_part found machine _ expects
              (Lexeme.endsNumber_mark comma _),
            run_mark comma comma_eq, run_gaps (blank.lineBreak depth),
            ← List.map_cons, induction (by simp) reads_parts expects_next]
          simp

theorem run_enclose (kind : Parts Part) (blank : layout.Blank)
    {opening closing : Char} {mark : Mark}
    (opening_eq : Lexeme.mark? opening = some mark)
    (closing_eq : Lexeme.mark? closing = some kind.closing) {depth : Nat}
    {parts : List Part} (reads : ∀ part ∈ parts, kind.Reads write part)
    {machine opened : Machine}
    (opened_eq : machine.step (.mark mark) = some opened)
    (expects : kind.Expects [] opened)
    (empty : opened.step (.mark kind.closing) = some (kind.closed []))
    (rest : List Char) :
    machine.run
        ((layout.enclose depth (String.singleton opening)
          (String.singleton closing) (parts.map write)).toList ++ rest) =
      (kind.closed parts).run rest := by
  unfold Layout.enclose
  split
  case isTrue isEmpty =>
    obtain rfl : parts = [] := by simpa using isEmpty
    simp [run_mark opening_eq opened_eq, run_mark closing_eq empty]
  case isFalse notEmpty =>
    have some_part : parts ≠ [] := by simpa using notEmpty
    simp only [String.toList_append, String.toList_singleton,
      List.append_assoc, List.cons_append, List.nil_append]
    rw [run_mark opening_eq opened_eq, run_gaps (blank.lineBreak (depth + 1)),
      run_intercalate blank closing_eq some_part reads expects]
    rfl

end Parts

/-- The machine reads a value from its print, whatever is open around it and
whatever follows that cannot be read as more of a number. -/
theorem run_print {layout : Layout} (blank : layout.Blank) {value : Json}
    (writable : value.Writable) (depth : Nat) {machine : Machine}
    {stack : List Open} (awaits : machine.Awaits stack) {rest : List Char}
    (ends : Lexeme.EndsNumber rest) :
    machine.run ((print layout depth value).toList ++ rest) =
      run ⟨.separator value, stack⟩ rest := by
  induction writable generalizing depth machine stack rest with
  | null =>
      rw [print]
      exact run_of_split? rfl (awaits .null (by simp))
  | bool value =>
      cases value with
      | false =>
          rw [print]
          exact run_of_split? rfl (awaits (.bool false) (by simp))
      | true =>
          rw [print]
          exact run_of_split? rfl (awaits (.bool true) (by simp))
  | @number literal isNumber =>
      rw [print]
      refine run_of_split? (Lexeme.split?_number isNumber ends) ?_
      rw [String.ofList_toList, awaits _ (by simp)]
      rfl
  | string text =>
      rw [print]
      exact run_quote (awaits (.string (some text)) (by simp))
  | @array items items_writable induction =>
      rw [print, printItems_eq_map]
      have opening : Lexeme.mark? '[' = some .openBracket := rfl
      have closing : Lexeme.mark? ']' = some .closeBracket := rfl
      refine (itemParts stack).run_enclose blank opening closing
        (fun item member => ?_) (awaits (.mark .openBracket) (by simp))
        (awaits_firstItem stack) rfl rest
      intro found machine rest expects ends
      exact induction item member (depth + 1) expects ends
  | @object members keys values induction =>
      rw [print, printMembers_eq_map]
      have opening : Lexeme.mark? '{' = some .openBrace := rfl
      have closing : Lexeme.mark? '}' = some .closeBrace := rfl
      refine (memberParts stack).run_enclose blank opening closing
        (fun member among => ?_) (awaits (.mark .openBrace) (by simp))
        (fun key => rfl) rfl rest
      intro found machine rest expects ends
      -- A member is its key, the mark behind it, and a value one level deeper.
      obtain ⟨key, value⟩ := member
      obtain ⟨key, rfl⟩ := Option.isSome_iff_exists.mp (keys _ among)
      obtain ⟨gaps, afterKey_eq, gaps_blank⟩ := blank.afterKey
      rw [printMember, String.toList_append, String.toList_append,
        List.append_assoc, List.append_assoc, run_quote (expects (some key)),
        afterKey_eq, List.cons_append, run_mark rfl rfl, run_gaps gaps_blank]
      exact induction _ among (depth + 1) (awaits_value _) ends

end Machine

theorem read?_of_run {text : String} {value : Json}
    (run_eq : Machine.run ⟨.value, []⟩ text.toList =
      some ⟨.separator value, []⟩) :
    read? text = some value := by
  obtain ⟨lexemes, lexemes_eq, fold_eq⟩ := Option.bind_eq_some_iff.mp run_eq
  rw [read?, Lexeme.read?, lexemes_eq]
  simp [fold_eq]

/-- A printed value is read back, with blanks behind it. -/
theorem read?_print {layout : Layout} (blank : layout.Blank) {value : Json}
    (writable : value.Writable) (behind : String)
    (gaps : ∀ char ∈ behind.toList, Lexeme.isGap char) :
    read? (print layout 0 value ++ behind) = some value := by
  have ends : Lexeme.EndsNumber behind.toList := fun char first =>
    Lexeme.isNumberChar_of_isGap (gaps char (List.mem_of_mem_head? first))
  apply read?_of_run
  rw [String.toList_append,
    Machine.run_print blank writable 0 (Machine.awaits_value []) ends,
    ← List.append_nil behind.toList, Machine.run_gaps gaps, Machine.run_nil]

end ComponentLang.Json
