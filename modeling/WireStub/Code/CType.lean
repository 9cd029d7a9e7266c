import WireStub.Code.Error
import WireStub.Code.Identifier
import WireStub.Schema.Basic

/-!
# C types

Every type of a schema has a C name, and its values travel by value or by pointer.

* `TypeExpr.cType` is the C type of a type as it is used, and `TypeExpr.valueType` that of a value;
* `Declarator` is a C type with array dimensions, all positive;
* `Module.declarations` lists the declarations of a module, those within others first;
* `Definition.cType` is the C type that a declaration introduces.
-/

namespace WireStub

/-- A C type. -/
structure CType where
  name : String
  /-- Values travel by value. -/
  isBase : Bool
  deriving DecidableEq, Repr

/-- The beginning of the names of a type's codec functions.  Placeholder names may hold spaces. -/
def CType.codecPrefix (c : CType) : String :=
  String.ofList (c.name.toList.map fun ch => if ch == ' ' then '_' else ch)

/-- The C name of a primitive type.  Some are placeholders that nothing encodes. -/
def Primitive.cName : Primitive → String
  | .void => "void"
  | .short => "int16_t"
  | .unsignedShort => "uint16_t"
  | .long => "int32_t"
  | .unsignedLong => "uint32_t"
  | .longLong => "int64_t"
  | .unsignedLongLong => "uint64_t"
  | .float => "float"
  | .double => "double"
  | .boolean => "bool"
  | .char => "char"
  | .wchar => "wchar_t"
  | .octet => "uint8_t"
  | .any => "any"
  | .typeCode => "TypeCode"
  | .principal => "Principal"
  | .longDouble => "long double"

/-- The C name of a declaration, which has to be linked. -/
def declarationName (path : ScopedName) (name : String) : Except RenderError String :=
  if path.isRoot then .error (.unscopedDeclaration name) else .ok (Identifier.ofScopedName path)

/-- The C type of a reference, which has to be linked. -/
def Reference.cType (context : String) (r : Reference) : Except RenderError CType :=
  match r.target, r.kind with
  | some target, some kind => .ok ⟨Identifier.ofScopedName target, kind.isBase⟩
  | _, _ => .error (.unlinkedReference r.name context)

namespace TypeExpr

/-- The C type of a type.  The elements of a sequence are values. -/
def cType (context : String) : TypeExpr → Except RenderError CType
  | .primitive p => .ok ⟨p.cName, true⟩
  | .declared r => r.cType context
  | .string => .ok ⟨"string_t", true⟩
  | .sequence e =>
    if e.isVoid then .error (.voidValue context)
    else (e.cType context).map fun c => ⟨"sequence_t_" ++ c.codecPrefix, false⟩
  | .struct d => (declarationName d.path d.name).map fun n => ⟨n, false⟩
  | .enum d => (declarationName d.path d.name).map fun n => ⟨n, true⟩

/-- The C type of a value: any type but `void`. -/
def valueType (context : String) (t : TypeExpr) : Except RenderError CType :=
  if t.isVoid then .error (.voidValue context) else t.cType context

end TypeExpr

/-- The index of the first dimension that is 0. -/
def emptyDim? (dims : List UInt32) : Option Nat := dims.findIdx? (· == 0)

/-- A C type with dimensions. -/
structure Declarator where
  type : CType
  dims : List UInt32
  deriving DecidableEq, Repr

namespace Declarator

/-- The dimensions in brackets. -/
def suffix (d : Declarator) : String :=
  String.join (d.dims.map fun n => "[" ++ toString n.toNat ++ "]")

/-- The declaration of an identifier. -/
def text (d : Declarator) (ident : String) : String := d.type.name ++ " " ++ ident ++ d.suffix

end Declarator

/-- The declarator of a type with dimensions, which have to be positive. -/
def TypeExpr.declarator (context : String) (t : TypeExpr) (dims : List UInt32) :
    Except RenderError Declarator := do
  let c ← t.valueType context
  match emptyDim? dims with
  | some i => .error (.emptyDimension context i)
  | none => .ok ⟨c, dims⟩

mutual

/-- The declarations within a type, those within others first. -/
def TypeExpr.declarations : TypeExpr → List Definition
  | .struct d => d.declarations
  | .enum d => [.enum d]
  | .sequence e => e.declarations
  | .primitive _ | .declared _ | .string => []

/-- A struct behind the declarations within it. -/
def StructDecl.declarations : StructDecl → List Definition
  | ⟨name, path, ms⟩ => Member.declarations ms ++ [.struct ⟨name, path, ms⟩]

/-- The declarations within members. -/
def Member.declarations : List Member → List Definition
  | [] => []
  | ⟨_, t, _⟩ :: ms => t.declarations ++ Member.declarations ms

end

namespace Definition

/-- A definition behind the declarations within it. -/
def declarations : Definition → List Definition
  | .struct d => d.declarations
  | .enum d => [.enum d]
  | .typedef d => d.type.declarations ++ [.typedef d]

/-- The name of a declaration in messages. -/
def context (d : Definition) : String := if d.path.isRoot then d.name else d.path.display

/-- The C type that a declaration introduces. -/
def cType (d : Definition) : Except RenderError CType :=
  match d with
  | .struct s =>
    if s.members.isEmpty then .error (.emptyDeclaration d.context)
    else (declarationName s.path s.name).map fun n => ⟨n, false⟩
  | .enum e =>
    if e.enumerators.isEmpty then .error (.emptyDeclaration d.context)
    else (declarationName e.path e.name).map fun n => ⟨n, true⟩
  | .typedef t => do
    let aliased ← t.type.declarator d.context t.dims
    let n ← declarationName t.path t.name
    .ok ⟨n, t.dims.isEmpty && aliased.type.isBase⟩

end Definition

/-- The declarations of a module, in the order in which they are emitted. -/
def Module.declarations (m : Module) : List Definition := m.definitions.flatMap (·.declarations)

end WireStub
