import ComponentLang.Json.Lexeme
import ComponentLang.Json.Value

namespace ComponentLang.Json

inductive Open where
  | array (items : List Json)
  | object (members : List (Option String × Json)) (key : Option String)
  deriving Repr

inductive Expecting where
  | value
  | firstItem
  | firstKey (members : List (Option String × Json))
  | key (members : List (Option String × Json))
  | colon (members : List (Option String × Json)) (key : Option String)
  | separator (value : Json)
  deriving Repr

structure Machine where
  expecting : Expecting
  stack : List Open
  deriving Repr

namespace Machine

def beginValue (stack : List Open) : Lexeme → Option Machine
  | .null => some ⟨.separator .null, stack⟩
  | .bool value => some ⟨.separator (.bool value), stack⟩
  | .number literal => some ⟨.separator (.number literal), stack⟩
  | .string text => some ⟨.separator (.string text), stack⟩
  | .mark .openBracket => some ⟨.firstItem, stack⟩
  | .mark .openBrace => some ⟨.firstKey [], stack⟩
  | .mark _ => none

def step (machine : Machine) (lexeme : Lexeme) : Option Machine :=
  match machine.expecting, lexeme, machine.stack with
  | .firstItem, .mark .closeBracket, stack =>
      some ⟨.separator (.array []), stack⟩
  | .firstItem, lexeme, stack => beginValue (.array [] :: stack) lexeme
  | .value, lexeme, stack => beginValue stack lexeme
  | .firstKey members, .mark .closeBrace, stack =>
      some ⟨.separator (.object members.reverse), stack⟩
  | .firstKey members, .string key, stack => some ⟨.colon members key, stack⟩
  | .key members, .string key, stack => some ⟨.colon members key, stack⟩
  | .colon members key, .mark .colon, stack =>
      some ⟨.value, .object members key :: stack⟩
  | .separator value, .mark .comma, .array items :: stack =>
      some ⟨.value, .array (value :: items) :: stack⟩
  | .separator value, .mark .closeBracket, .array items :: stack =>
      some ⟨.separator (.array (value :: items).reverse), stack⟩
  | .separator value, .mark .comma, .object members key :: stack =>
      some ⟨.key ((key, value) :: members), stack⟩
  | .separator value, .mark .closeBrace, .object members key :: stack =>
      some ⟨.separator (.object ((key, value) :: members).reverse), stack⟩
  | _, _, _ => none

end Machine

def read? (text : String) : Option Json := do
  let lexemes ← Lexeme.read? text
  let machine ← lexemes.foldlM Machine.step ⟨.value, []⟩
  match machine with
  | ⟨.separator value, []⟩ => some value
  | _ => none

end ComponentLang.Json
