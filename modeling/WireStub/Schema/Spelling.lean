import WireStub.Schema.Basic

/-!
# Spellings

The words for primitive types and directions in a schema.  Each has one spelling that is written,
and some have further ones that are read.
-/

namespace WireStub

namespace Primitive

/-- All primitive types. -/
def all : List Primitive :=
  [.void, .short, .unsignedShort, .long, .unsignedLong, .longLong, .unsignedLongLong, .float,
   .double, .longDouble, .boolean, .char, .wchar, .octet, .any, .typeCode, .principal]

/-- The word for a primitive type. -/
def word : Primitive → String
  | .void => "void"
  | .short => "short"
  | .unsignedShort => "unsigned-short"
  | .long => "long"
  | .unsignedLong => "unsigned-long"
  | .longLong => "long-long"
  | .unsignedLongLong => "unsigned-long-long"
  | .float => "float"
  | .double => "double"
  | .longDouble => "long-double"
  | .boolean => "boolean"
  | .char => "char"
  | .wchar => "wchar"
  | .octet => "octet"
  | .any => "any"
  | .typeCode => "type-code"
  | .principal => "principal"

/-- Further words for primitive types. -/
def synonyms : List (String × Primitive) :=
  [("int16", .short), ("uint16", .unsignedShort), ("int32", .long), ("uint32", .unsignedLong),
   ("int64", .longLong), ("uint64", .unsignedLongLong), ("f32", .float), ("f64", .double),
   ("bool", .boolean), ("uint8", .octet), ("byte", .octet)]

/-- The primitive type that a word stands for. -/
def ofWord? (s : String) : Option Primitive :=
  match all.find? (·.word == s) with
  | some p => some p
  | none => synonyms.lookup s

theorem ofWord?_word (p : Primitive) : ofWord? p.word = some p := by cases p <;> decide

end Primitive

namespace Direction

/-- The word for a direction. -/
def word : Direction → String
  | .input => "in"
  | .output => "out"
  | .inout => "inout"

/-- The direction that a word stands for. -/
def ofWord? : String → Option Direction
  | "in" => some .input
  | "out" => some .output
  | "inout" => some .inout
  | "in-out" => some .inout
  | _ => none

theorem ofWord?_word (d : Direction) : ofWord? d.word = some d := by cases d <;> decide

end Direction

namespace Kind

/-- The word for a kind. -/
def word : Kind → String
  | .scalar => "scalar"
  | .enum => "enum"
  | .string => "string"
  | .struct => "struct"
  | .sequence => "sequence"
  | .array => "array"

end Kind

end WireStub
