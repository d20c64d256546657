import ComponentLang.Proofs.Syntax.Tree
import ComponentLang.Proofs.Token.Trivia
import ComponentLang.Scope
import ComponentLang.Symbol
import ComponentLang.Vocabulary.Terminal

namespace ComponentLang

structure Mark where
  scope : String
  kind : TokenKind
  modifiers : Modifiers
  deriving DecidableEq, Repr

/-- A piece of a line that a document is made of: a word or a closed string. -/
structure Item where
  text : String
  kind : TokenKind
  whole : Scan.IsWhole text kind
  mark : Option Mark := none

namespace Item

/-- The token is the item at some place. -/
structure Spells (item : Item) (token : Token) : Prop where
  text : token.text = item.text
  kind : token.kind = item.kind

/-- What the item declares when it is the token. -/
def symbol? (item : Item) (token : Token) : Option Symbol :=
  item.mark.map fun mark =>
    { name := Literal.nameOf token.text
      scope := mark.scope
      kind := mark.kind
      modifiers := mark.modifiers
      line := token.line
      column := token.column }

def word (text : String) (only : Scan.isOnly .word text) : Item where
  text
  kind := Scan.lexicalKind text
  whole := .inl ⟨only, rfl⟩

@[simp] theorem text_word {text : String} (only : Scan.isOnly .word text) :
    (word text only).text = text := rfl

@[simp] theorem kind_word {text : String} (only : Scan.isOnly .word text) :
    (word text only).kind = Scan.lexicalKind text := rfl

def terminal (terminal : Terminal) : Item :=
  word terminal.spelling (Scan.isOnly_terminal terminal)

end Item

/-- What the items declare at the tokens that they are. -/
def declarations (items : List Item) (tokens : List Token) : List Symbol :=
  (items.zip tokens).filterMap fun (item, token) => item.symbol? token

def Scope.path (scopes : List Scope) : String :=
  ScopeStack.path { inner := scopes }

namespace Syntax

def lone (terminal : Terminal) : List Item :=
  [.terminal terminal]

def clause (terminal : Terminal) : Option (List Item) → List Item
  | none => []
  | some items => lone terminal ++ items

def separated : List (List Item) → List Item
  | [] => []
  | [items] => items
  | items :: others => items ++ (lone Operator.comma ++ separated others)

namespace Name

def item (name : Name) : Item :=
  .word name.text (Scan.isOnly_of_isIdentifier name.valid)

def declaration (name : Name) (scopes : List Scope) (kind : TokenKind)
    (modifiers : Modifiers) : Item :=
  { name.item with mark := some ⟨Scope.path scopes, kind, modifiers⟩ }

def scope (name : Name) (kind : TokenKind) : Scope where
  name := Literal.nameOf name.text
  kind

end Name

def Number.item (number : Number) : Item :=
  .word number.text (Bool.and_eq_true_iff.mp number.valid).1

def Quotation.items (string : Quotation) : List Item :=
  [{ text := string.text
     kind := .string
     whole := .inr ⟨Bool.or_eq_true_iff.mp string.valid, rfl⟩ }]

def QualifiedName.items (name : QualifiedName) : List Item :=
  [name.first.item] ++
    name.others.flatMap fun other => lone Operator.dot ++ [other.item]

def truthWord (value : Bool) : Keyword :=
  if value then .trueLiteral else .falseLiteral

mutual

def Expression.items : Expression → List Item
  | .minus operand => lone Operator.minus ++ operand.items
  | .single operand => operand.items
  | .chain operand sign others =>
      operand.items ++ (lone sign.val ++ others.items)

def Operand.items : Operand → List Item
  | .number number => [number.item]
  | .string string => string.items
  | .truth value => lone (truthWord value)
  | .name name => name.items
  | .group inner =>
      lone Operator.leftParen ++ (inner.items ++ lone Operator.rightParen)
  | .emptyArray => lone Operator.leftBracket ++ lone Operator.rightBracket
  | .array elements =>
      lone Operator.leftBracket ++
        (elements.items ++ lone Operator.rightBracket)

def Elements.items : Elements → List Item
  | .last element => element.items
  | .more element others =>
      element.items ++ (lone Operator.comma ++ others.items)

end

def builtinItem (type : BuiltinType) : Item :=
  .word type.spelling (Scan.isOnly_builtinType type)

def TypeName.items : TypeName → List Item
  | .builtin type => [builtinItem type]
  | .sized size => [builtinItem .string] ++ (lone Keyword.size ++ size.items)
  | .declared name => name.items

def Parameter.items (scopes : List Scope) (parameter : Parameter) :
    List Item :=
  (if parameter.isReference then lone Keyword.ref else []) ++
    [parameter.name.declaration scopes .parameter {}] ++
    lone Operator.colon ++ parameter.type.items

/-- A name and its parameters, which are declared in a scope of its own. -/
def signature (scopes : List Scope) (name : Name) (kind : TokenKind)
    (modifiers : Modifiers) (parameters : Option (List Parameter)) :
    List Item :=
  [name.declaration scopes kind modifiers] ++
    clause Operator.leftParen (parameters.map fun parameters =>
      separated (parameters.map (Parameter.items (name.scope .nil :: scopes))) ++
        lone Operator.rightParen)

def EnumConstant.items (scopes : List Scope) (constant : EnumConstant) :
    List Item :=
  [constant.name.declaration scopes .enumMember { readonly := true }] ++
    clause Operator.equals (constant.value.map Expression.items)

def StructMember.items (scopes : List Scope) (member : StructMember) :
    List Item :=
  [member.name.declaration scopes .variable {}] ++ lone Operator.colon ++
    clause Operator.leftBracket (member.size.map fun size =>
      size.items ++ lone Operator.rightBracket) ++
    member.type.items ++
    clause Keyword.format (member.format.map Quotation.items)

namespace PlainDefinition

def word : PlainDefinition → Keyword
  | .array .. => .array
  | .constant .. => .constant
  | .enum .. => .enum
  | .struct .. => .struct
  | .type .. => .type

def body (scopes : List Scope) : PlainDefinition → List Item
  | .array name size element default format =>
      [name.declaration scopes .variable {}] ++ lone Operator.equals ++
        lone Operator.leftBracket ++ size.items ++
        lone Operator.rightBracket ++ element.items ++
        clause Keyword.default (default.map Expression.items) ++
        clause Keyword.format (format.map Quotation.items)
  | .constant name value =>
      [name.declaration scopes .variable {}] ++ lone Operator.equals ++
        value.items
  | .enum name base constants default =>
      [name.declaration scopes .enum {}] ++
        (clause Operator.colon (base.map TypeName.items) ++
          (lone Operator.leftBrace ++
            (separated (constants.map
              (EnumConstant.items (name.scope .enum :: scopes))) ++
              lone Operator.rightBrace))) ++
        clause Keyword.default (default.map Expression.items)
  | .struct name members default =>
      [name.declaration scopes .struct {}] ++
        (lone Operator.leftBrace ++
          (separated (members.map
            (StructMember.items (name.scope .struct :: scopes))) ++
            lone Operator.rightBrace)) ++
        clause Keyword.default (default.map Expression.items)
  | .type name equal =>
      [name.declaration scopes .typeParam { abstract := true }] ++
        clause Operator.equals (equal.map TypeName.items)

end PlainDefinition

def CommandMode.word : CommandMode → Keyword
  | .async => .async
  | .guarded => .guarded
  | .sync => .sync

namespace ComponentMember

def word : ComponentMember → Keyword
  | .plain definition => definition.word
  | .command mode .. => mode.word
  | .param .. => .param

def body (scopes : List Scope) : ComponentMember → List Item
  | .plain definition => definition.body scopes
  | .command mode name parameters opcode priority =>
      lone Keyword.command ++
        signature scopes name .specifier { async := mode == .async }
          parameters ++
        clause Keyword.opcode (opcode.map Expression.items) ++
        clause Keyword.priority (priority.map Expression.items)
  | .param name type default id =>
      [name.declaration scopes .specifier {}] ++ lone Operator.colon ++
        type.items ++ clause Keyword.default (default.map Expression.items) ++
        clause Keyword.id (id.map Expression.items)

def items (scopes : List Scope) (member : ComponentMember) : List Item :=
  lone member.word ++ member.body scopes

end ComponentMember

def ComponentMode.word : ComponentMode → Keyword
  | .active => .active
  | .passive => .passive
  | .queued => .queued

def Definition.word : Definition → Keyword
  | .plain definition => definition.word
  | .port .. => .port
  | .component mode .. => mode.word
  | .module .. => .module

mutual

def Definition.body (scopes : List Scope) : Definition → List Item
  | .plain definition => definition.body scopes
  | .port name parameters result =>
      signature scopes name .port {} parameters ++
        clause Operator.arrow (result.map TypeName.items)
  | .component _ name members =>
      lone Keyword.component ++
        ([name.declaration scopes .component {}] ++
          (lone Operator.leftBrace ++
            (members.flatMap
              (ComponentMember.items (name.scope .component :: scopes)) ++
              lone Operator.rightBrace)))
  | .module name definitions =>
      [name.declaration scopes .namespace {}] ++
        (lone Operator.leftBrace ++
          (items (name.scope .namespace :: scopes) definitions ++
            lone Operator.rightBrace))

def items (scopes : List Scope) : List Definition → List Item
  | [] => []
  | definition :: others =>
      lone definition.word ++
        (definition.body scopes ++ items scopes others)

end

def Document.items (document : Document) : List Item :=
  Syntax.items [] document

end Syntax

end ComponentLang
