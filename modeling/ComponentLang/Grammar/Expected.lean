import ComponentLang.Token.Basic
import ComponentLang.Vocabulary.Literal
import ComponentLang.Vocabulary.Terminal

namespace ComponentLang

inductive Expected where
  | identifier
  | expression
  | typeName
  | stringLiteral
  | oneOf (candidates : List Terminal)
  deriving DecidableEq, Repr

namespace Expected

def isTruthWord (token : Token) : Bool :=
  match Keyword.ofSpelling? token.text with
  | some .trueLiteral | some .falseLiteral => true
  | _ => false

def startsExpression (token : Token) : Bool :=
  token.kind == .number || token.kind == .string ||
    (match Operator.ofSpelling? token.text with
    | some .minus | some .leftParen | some .leftBracket => true
    | _ => false) ||
    isTruthWord token || Literal.isIdentifier token.text

def startsType (token : Token) : Bool :=
  (BuiltinType.ofSpelling? token.text).isSome ||
    Literal.isIdentifier token.text

def accepts : Expected → Token → Bool
  | .identifier, token => Literal.isIdentifier token.text
  | .expression, token => startsExpression token
  | .typeName, token => startsType token
  | .stringLiteral, token => token.kind == .string
  | .oneOf candidates, token => (Terminal.find? candidates token.text).isSome

def quoted (spelling : String) : String :=
  "`" ++ spelling ++ "`"

def description : Expected → String
  | .identifier => "identifier"
  | .expression => "expression"
  | .typeName => "type name"
  | .stringLiteral => "string literal"
  | .oneOf [only] => quoted only.spelling
  | .oneOf candidates =>
      "one of " ++
        ", ".intercalate (candidates.map fun terminal => quoted terminal.spelling)

end Expected

end ComponentLang
