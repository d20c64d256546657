import ComponentLang.Proofs.Grammar.Terminals
import ComponentLang.Proofs.Syntax.Beginnings
import ComponentLang.Walk.State

namespace ComponentLang

open Syntax

def Item.token (item : Item) : Token where
  line := 0
  column := 0
  text := item.text
  kind := item.kind

def Test.fits (test : Test) (item : Item) : Bool :=
  (Walk.start [item.token]).holds test

@[simp] theorem Test.fits_ofKind (kind : TokenKind) (item : Item) :
    (Test.ofKind kind).fits item = (item.kind == kind) := rfl

def Syntax.Name.within (name : Name) (kind : TokenKind) (scopes : List Scope) :
    List Scope :=
  if kind.opensScope then name.scope kind :: scopes else scopes

namespace Rule

inductive Takes : Rule → Item → Prop
  | need {expected : Expected} {item : Item} (fits : expected.accepts item.token)
      (plain : item.mark = none) : Takes (.need expected) item
  | expect {candidates : List Terminal} {terminal : Terminal}
      (member : terminal ∈ candidates) :
      Takes (.expect candidates) (.terminal terminal)
  | advance {terminal : Terminal} : Takes .advance (.terminal terminal)

/-- With the scopes open and the cursor on `current`, if it matters, the rule
takes exactly the items in `front` when those in `rest` follow them. -/
inductive Accepts :
    List Scope → Option Item → Rule → List Item → List Item → Prop
  | done {scopes current rest} : Accepts scopes current .done [] rest
  | seq {scopes current first next front middle rest}
      (front_accepted : Accepts scopes current first front (middle ++ rest))
      (middle_accepted : Accepts scopes none next middle rest) :
      Accepts scopes current (.seq first next) (front ++ middle) rest
  | take {scopes current rule item rest} (takes : Takes rule item) :
      Accepts scopes current rule [item] rest
  | takeThen {scopes current rule item next front rest} (takes : Takes rule item)
      (accepted : Accepts scopes (some item) next front rest) :
      Accepts scopes current (.seq rule next) ([item] ++ front) rest
  | found {scopes current candidates terminal found missing front rest}
      (member : terminal ∈ candidates)
      (accepted : Accepts scopes none found front rest) :
      Accepts scopes current (.accept candidates found missing)
        (lone terminal ++ front) rest
  | missing {scopes current candidates found missing front rest}
      (apart : Apart candidates (front ++ rest))
      (accepted : Accepts scopes current missing front rest) :
      Accepts scopes current (.accept candidates found missing) front rest
  | holds {scopes item test holds fails front rest}
      (layout : test ≠ .lastOnLine) (fits : test.fits item)
      (accepted : Accepts scopes (some item) holds front rest) :
      Accepts scopes (some item) (.branch test holds fails) front rest
  | fails {scopes item test holds fails front rest}
      (layout : test ≠ .lastOnLine) (unfit : test.fits item = false)
      (accepted : Accepts scopes (some item) fails front rest) :
      Accepts scopes (some item) (.branch test holds fails) front rest
  | strings {scopes current rest}
      (unquoted : ∀ item ∈ rest.head?, item.kind ≠ .string) :
      Accepts scopes current .strings [] rest
  | resolve {scopes rest} {item : Item}
      (identifier : Literal.isIdentifier item.text) :
      Accepts scopes (some item) .resolve [] rest
  | define {scopes current kind} {modifiers : Modifiers} {body front rest}
      (name : Name) (plain : modifiers.declaration = false)
      (accepted : Accepts (name.within kind scopes) none body front rest) :
      Accepts scopes current (.define kind modifiers body)
        ([name.declaration scopes kind modifiers] ++ front) rest
  | signature {scopes current kind} {modifiers : Modifiers} {rest} (name : Name)
      (plain : modifiers.declaration = false)
      (apart : Apart [Operator.leftParen] rest) :
      Accepts scopes current (.signature kind modifiers)
        [name.declaration scopes kind modifiers] rest
  | parameters {scopes current kind} {modifiers : Modifiers} {front rest}
      (name : Name) (plain : modifiers.declaration = false)
      (accepted : Accepts (name.scope .nil :: scopes) none (.call .parameters)
        front rest) :
      Accepts scopes current (.signature kind modifiers)
        ([name.declaration scopes kind modifiers] ++
          (lone Operator.leftParen ++ front)) rest
  | recover {scopes current resumption body next resumed front middle rest}
      (front_accepted : Accepts scopes current body front (middle ++ rest))
      (middle_accepted : Accepts scopes none next middle rest) :
      Accepts scopes current (.recover resumption body next resumed)
        (front ++ middle) rest
  | statement {scopes block statement front rest} {word : Keyword}
      (apart : Apart Statement.followers (front ++ rest))
      (selected : Statement.select block (fun _ => false) word = some statement)
      (accepted : Accepts scopes none statement.rule front rest) :
      Accepts scopes (some (.terminal word)) (.statement block) front rest
  | call {scopes current} {nonterminal : Nonterminal} {front rest}
      (accepted : Accepts scopes current nonterminal.rule front rest) :
      Accepts scopes current (.call nonterminal) front rest

namespace Accepts

variable {scopes : List Scope} {current : Option Item} {rest : List Item}

theorem takeLast {rule next : Rule} {item : Item} (takes : Takes rule item)
    (accepted : Accepts scopes (some item) next [] rest) :
    Accepts scopes current (.seq rule next) [item] rest :=
  .takeThen takes accepted

theorem behind {first next : Rule} {front : List Item}
    (idle : Accepts scopes current first [] (front ++ rest))
    (accepted : Accepts scopes none next front rest) :
    Accepts scopes current (.seq first next) front rest :=
  .seq idle accepted

theorem ahead {first next : Rule} {front : List Item}
    (accepted : Accepts scopes current first front rest)
    (idle : Accepts scopes none next [] rest) :
    Accepts scopes current (.seq first next) front rest := by
  rw [← List.append_nil front]
  exact .seq accepted idle

theorem require (terminal : Terminal) :
    Accepts scopes current (.require terminal) (lone terminal) rest :=
  .take (.expect List.mem_cons_self)

theorem optional {α : Type} {terminal : Terminal} {body : Rule}
    {part : Option α} {items : α → List Item} (apart : Apart [terminal] rest)
    (accepted : ∀ value, Accepts scopes none body (items value) rest) :
    Accepts scopes current (.optional terminal body)
      (clause terminal (part.map items)) rest := by
  cases part with
  | none => exact .missing apart .done
  | some value => exact .found List.mem_cons_self (accepted value)

theorem requireThen {terminal : Terminal} {body : Rule} {front : List Item}
    (accepted : Accepts scopes (some (.terminal terminal)) body front rest) :
    Accepts scopes current (.requireThen terminal body)
      (lone terminal ++ front) rest :=
  .takeThen (.expect List.mem_cons_self)
    (.holds nofun (beq_self_eq_true _) accepted)

theorem declaration (name : Name) (kind : TokenKind) (modifiers : Modifiers)
    (plain : modifiers.declaration = false) :
    Accepts scopes current (.define kind modifiers .done)
      [name.declaration scopes kind modifiers] rest :=
  .define name plain .done

end Accepts

end Rule

end ComponentLang
