namespace ComponentLang

inductive TokenKind where
  | nil | string | comment | remark | number | operator | keyword | type
  | component | «instance» | port | topology | «namespace» | enum | enumMember
  | struct | typeParam | parameter | «variable» | specifier
  deriving DecidableEq, Repr

namespace TokenKind

def all : List TokenKind :=
  [.nil, .string, .comment, .remark, .number, .operator, .keyword, .type,
    .component, .instance, .port, .topology, .namespace, .enum, .enumMember,
    .struct, .typeParam, .parameter, .variable, .specifier]

def name : TokenKind → String
  | .nil => "Nil"
  | .string => "String"
  | .comment => "Comment"
  | .remark => "Annotation"
  | .number => "Number"
  | .operator => "Operator"
  | .keyword => "Keyword"
  | .type => "Type"
  | .component => "Component"
  | .instance => "Instance"
  | .port => "Port"
  | .topology => "Topology"
  | .namespace => "Namespace"
  | .enum => "Enum"
  | .enumMember => "EnumMember"
  | .struct => "Struct"
  | .typeParam => "TypeParam"
  | .parameter => "Parameter"
  | .variable => "Variable"
  | .specifier => "Specifier"

def ofName? (text : String) : Option TokenKind :=
  all.find? fun kind => kind.name == text

def legendName : TokenKind → String
  | .nil => "nil"
  | .string => "string"
  | .comment => "comment"
  | .remark => "annotation"
  | .number => "number"
  | .operator => "operator"
  | .keyword => "keyword"
  | .type => "type"
  | .component => "component"
  | .instance => "instance"
  | .port => "port"
  | .topology => "topology"
  | .namespace => "namespace"
  | .enum => "enum"
  | .enumMember => "enumMember"
  | .struct => "struct"
  | .typeParam => "typeParameter"
  | .parameter => "parameter"
  | .variable => "variable"
  | .specifier => "specifier"

def index (kind : TokenKind) : Nat :=
  all.idxOf kind

def isSemantic : TokenKind → Bool
  | .nil | .string | .comment | .remark | .number | .operator | .keyword
  | .type => false
  | _ => true

def opensScope : TokenKind → Bool
  | .component | .instance | .topology | .namespace | .enum | .struct => true
  | _ => false

theorem getElem?_index (kind : TokenKind) : all[kind.index]? = some kind := by
  cases kind <;> decide

end TokenKind

end ComponentLang
