namespace ComponentLang

inductive Json where
  | null
  | bool (value : Bool)
  | number (literal : String)
  /-- A string in which an escape names half of a surrogate pair has no text. -/
  | string (text : Option String)
  | array (items : List Json)
  | object (members : List (Option String × Json))
  deriving Repr

namespace Json

instance : Inhabited Json := ⟨.null⟩

def ofString (text : String) : Json :=
  .string (some text)

def ofNat (number : Nat) : Json :=
  .number (toString number)

def ofFields (fields : List (String × Json)) : Json :=
  .object (fields.map fun (key, value) => (some key, value))

def field? (value : Json) (key : String) : Option Json :=
  match value with
  | .object members =>
      (members.find? fun (other, _) => other == some key).map (·.2)
  | _ => none

def text? : Json → Option String
  | .string text => text
  | _ => none

def bool? : Json → Option Bool
  | .bool value => some value
  | _ => none

def items? : Json → Option (List Json)
  | .array items => some items
  | _ => none

/-- The number that a literal of decimal digits alone stands for. -/
def natural? : Json → Option Nat
  | .number literal =>
      if literal.toList.all Char.isDigit then
        some (literal.toList.foldl
          (fun number digit => 10 * number + (digit.toNat - '0'.toNat)) 0)
      else none
  | _ => none

end Json

end ComponentLang
