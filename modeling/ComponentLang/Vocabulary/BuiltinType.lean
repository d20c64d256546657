namespace ComponentLang

inductive BuiltinType where
  | f32 | f64 | i8 | i16 | i32 | i64 | u8 | u16 | u32 | u64 | bool | string
  deriving DecidableEq, Repr

namespace BuiltinType

def all : List BuiltinType :=
  [.f32, .f64, .i8, .i16, .i32, .i64, .u8, .u16, .u32, .u64, .bool, .string]

def spelling : BuiltinType → String
  | .f32 => "F32"
  | .f64 => "F64"
  | .i8 => "I8"
  | .i16 => "I16"
  | .i32 => "I32"
  | .i64 => "I64"
  | .u8 => "U8"
  | .u16 => "U16"
  | .u32 => "U32"
  | .u64 => "U64"
  | .bool => "bool"
  | .string => "string"

def name (type : BuiltinType) : String :=
  type.spelling.capitalize

def ofSpelling? (text : String) : Option BuiltinType :=
  all.find? fun type => type.spelling == text

theorem ofSpelling?_spelling (type : BuiltinType) :
    ofSpelling? type.spelling = some type := by
  cases type <;> decide

theorem ofSpelling?_eq_some_iff {text : String} {type : BuiltinType} :
    ofSpelling? text = some type ↔ type.spelling = text := by
  constructor
  · intro found
    simpa using List.find?_some found
  · rintro rfl
    exact ofSpelling?_spelling type

end BuiltinType

end ComponentLang
