import ComponentLang.Json.Value

namespace ComponentLang.Json

def hexDigit (value : Nat) : Char :=
  Char.ofNat (if value < 10 then '0'.toNat + value else 'a'.toNat + value - 10)

def escapeChar (char : Char) : List Char :=
  match char with
  | '"' => ['\\', '"']
  | '\\' => ['\\', '\\']
  | '\x08' => ['\\', 'b']
  | '\t' => ['\\', 't']
  | '\n' => ['\\', 'n']
  | '\x0c' => ['\\', 'f']
  | '\r' => ['\\', 'r']
  | char =>
      if char.toNat < 0x20 then
        ['\\', 'u', '0', '0', hexDigit (char.toNat / 16),
          hexDigit (char.toNat % 16)]
      else [char]

/-- A string literal. The replacement character stands for a missing text. -/
def quote (text : Option String) : String :=
  "\"" ++ String.ofList ((text.getD "\ufffd").toList.flatMap escapeChar) ++ "\""

structure Layout where
  afterKey : String
  /-- What stands before an item at the given depth. -/
  lineBreak : Nat → String

namespace Layout

def compact : Layout where
  afterKey := ":"
  lineBreak := fun _ => ""

def indented : Layout where
  afterKey := ": "
  lineBreak := fun depth => "\n" ++ String.ofList (List.replicate (2 * depth) ' ')

/-- Parts at the given depth between two marks, which touch when there is
nothing to enclose. -/
def enclose (layout : Layout) (depth : Nat) (opening closing : String)
    (parts : List String) : String :=
  if parts.isEmpty then opening ++ closing
  else
    opening ++ layout.lineBreak (depth + 1) ++
      ("," ++ layout.lineBreak (depth + 1)).intercalate parts ++
      layout.lineBreak depth ++ closing

end Layout

mutual

def print (layout : Layout) (depth : Nat) : Json → String
  | .null => "null"
  | .bool true => "true"
  | .bool false => "false"
  | .number literal => literal
  | .string text => quote text
  | .array items =>
      layout.enclose depth "[" "]" (printItems layout (depth + 1) items)
  | .object members =>
      layout.enclose depth "\x7b" "\x7d"
        (printMembers layout (depth + 1) members)

def printItems (layout : Layout) (depth : Nat) : List Json → List String
  | [] => []
  | item :: items =>
      print layout depth item :: printItems layout depth items

def printMembers (layout : Layout) (depth : Nat) :
    List (Option String × Json) → List String
  | [] => []
  | (key, value) :: members =>
      (quote key ++ layout.afterKey ++ print layout depth value) ::
        printMembers layout depth members

end

def compact (value : Json) : String :=
  print .compact 0 value

def pretty (value : Json) : String :=
  print .indented 0 value

end ComponentLang.Json
