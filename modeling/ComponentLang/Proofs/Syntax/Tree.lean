import ComponentLang.Proofs.Scan.Pieces

namespace ComponentLang

namespace Syntax

structure Name where
  text : String
  valid : Literal.isIdentifier text
  deriving DecidableEq

structure Number where
  text : String
  valid : Scan.isOnly .word text && Scan.lexicalKind text == .number
  deriving DecidableEq

structure Quotation where
  text : String
  valid : Scan.isOnly (.quoted true) text || Scan.isOnly (.block true) text
  deriving DecidableEq

structure QualifiedName where
  first : Name
  others : List Name := []
  deriving DecidableEq

abbrev BinarySign := { sign : Operator // sign ∈ Operator.binary }

mutual

/-- Operands with signs before and binary operators between them. -/
inductive Expression where
  | minus (operand : Expression)
  | single (operand : Operand)
  | chain (operand : Operand) (sign : BinarySign) (others : Expression)

inductive Operand where
  | number (number : Number)
  | string (string : Quotation)
  | truth (value : Bool)
  | name (name : QualifiedName)
  | group (inner : Expression)
  | emptyArray
  | array (elements : Elements)

/-- One expression or more, with commas between them. -/
inductive Elements where
  | last (element : Expression)
  | more (element : Expression) (others : Elements)

end

inductive TypeName where
  | builtin (type : BuiltinType)
  /-- A string type with a size. -/
  | sized (size : Expression)
  | declared (name : QualifiedName)

structure Parameter where
  isReference : Bool := false
  name : Name
  type : TypeName

structure EnumConstant where
  name : Name
  value : Option Expression := none

structure StructMember where
  name : Name
  size : Option Expression := none
  type : TypeName
  format : Option Quotation := none

/-- The definitions that modules and components can hold. -/
inductive PlainDefinition where
  | array (name : Name) (size : Expression) (element : TypeName)
      (default : Option Expression) (format : Option Quotation)
  | constant (name : Name) (value : Expression)
  | enum (name : Name) (base : Option TypeName)
      (constants : List EnumConstant) (default : Option Expression)
  | struct (name : Name) (members : List StructMember)
      (default : Option Expression)
  | type (name : Name) (equal : Option TypeName)

inductive CommandMode where
  | async | guarded | sync
  deriving DecidableEq, Repr

inductive ComponentMember where
  | plain (definition : PlainDefinition)
  | command (mode : CommandMode) (name : Name)
      (parameters : Option (List Parameter)) (opcode : Option Expression)
      (priority : Option Expression)
  | param (name : Name) (type : TypeName) (default : Option Expression)
      (id : Option Expression)

inductive ComponentMode where
  | active | passive | queued
  deriving DecidableEq, Repr

inductive Definition where
  | plain (definition : PlainDefinition)
  | port (name : Name) (parameters : Option (List Parameter))
      (result : Option TypeName)
  | component (mode : ComponentMode) (name : Name)
      (members : List ComponentMember)
  | module (name : Name) (definitions : List Definition)

abbrev Document := List Definition

end Syntax

end ComponentLang
