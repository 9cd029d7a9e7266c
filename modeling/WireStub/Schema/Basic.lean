import WireStub.ScopedName

/-!
# Schemas

A module holds declarations of types and interfaces of operations.  Types may be declared inside
other types: a struct member may have a struct type of its own.

* `TypeExpr` is a type as it is used; `StructDecl`, `EnumDecl` and `TypedefDecl` declare types;
* `Kind` is the shape of a type behind its names, and `Kind.isBase` tells whether its values travel
  by value;
* linking fills in the `path` of every declaration, and in a `Reference` its `target` and `kind`.
-/

namespace WireStub

/-- The types that are built in. -/
inductive Primitive where
  | void
  | short
  | unsignedShort
  | long
  | unsignedLong
  | longLong
  | unsignedLongLong
  | float
  | double
  | longDouble
  | boolean
  | char
  | wchar
  | octet
  | any
  | typeCode
  | principal
  deriving DecidableEq, Repr

/-- The shape of a type once the names that stand for it are followed. -/
inductive Kind where
  | scalar
  | enum
  | string
  | struct
  | sequence
  | array
  deriving DecidableEq, Repr

/-- Values of base kinds travel by value, all others by pointer. -/
def Kind.isBase : Kind → Bool
  | .scalar | .enum | .string => true
  | .struct | .sequence | .array => false

/-- A reference to a declared type, as written, and what linking found. -/
structure Reference where
  name : String
  target : Option ScopedName
  kind : Option Kind
  deriving DecidableEq, Repr

namespace Reference

/-- A reference before linking. -/
def unlinked (name : String) : Reference := ⟨name, none, none⟩

/-- Whether linking found the declaration. -/
def isLinked (r : Reference) : Bool := r.target.isSome && r.kind.isSome

end Reference

/-- The declaration of an enum. -/
structure EnumDecl where
  name : String
  path : ScopedName
  enumerators : List String
  deriving DecidableEq, Repr

mutual

/-- A type as it is used. -/
inductive TypeExpr where
  | primitive (p : Primitive)
  | declared (r : Reference)
  | string
  | sequence (element : TypeExpr)
  | struct (d : StructDecl)
  | enum (d : EnumDecl)

/-- The declaration of a struct. -/
structure StructDecl where
  name : String
  path : ScopedName
  members : List Member

/-- A member of a struct.  With dimensions it is an array. -/
structure Member where
  name : String
  type : TypeExpr
  dims : List UInt32

end

/-- The declaration of a name for a type, or for an array of it. -/
structure TypedefDecl where
  name : String
  path : ScopedName
  type : TypeExpr
  dims : List UInt32

/-- A declaration at the top of a module. -/
inductive Definition where
  | struct (d : StructDecl)
  | enum (d : EnumDecl)
  | typedef (d : TypedefDecl)

/-- The way a parameter travels. -/
inductive Direction where
  | input
  | output
  | inout
  deriving DecidableEq, Repr

/-- A parameter of an operation. -/
structure Parameter where
  name : String
  type : TypeExpr
  direction : Direction

/-- An operation of an interface. -/
structure Operation where
  name : String
  returns : TypeExpr
  parameters : List Parameter
  raises : List String

/-- An interface. -/
structure Interface where
  name : String
  path : ScopedName
  operations : List Operation

/-- A module. -/
structure Module where
  name : String
  definitions : List Definition
  interfaces : List Interface

/-- A schema file: the files it imports, and its modules. -/
structure SchemaFile where
  imports : List String
  modules : List Module

namespace TypeExpr

/-- The type without values. -/
def void : TypeExpr := .primitive .void

/-- Whether a type has no values. -/
def isVoid : TypeExpr → Bool
  | .primitive .void => true
  | _ => false

/-- The kind of a type; an unlinked reference has none. -/
def kind? : TypeExpr → Option Kind
  | .primitive _ => some .scalar
  | .declared r => r.kind
  | .string => some .string
  | .sequence _ => some .sequence
  | .struct _ => some .struct
  | .enum _ => some .enum

end TypeExpr

mutual

/-- The references within a type, in the order in which they are written. -/
def TypeExpr.references : TypeExpr → List Reference
  | .declared r => [r]
  | .sequence e => e.references
  | .struct d => d.references
  | .primitive _ | .string | .enum _ => []

/-- The references within a struct. -/
def StructDecl.references : StructDecl → List Reference
  | ⟨_, _, ms⟩ => Member.references ms

/-- The references within members. -/
def Member.references : List Member → List Reference
  | [] => []
  | ⟨_, t, _⟩ :: ms => t.references ++ Member.references ms

end

namespace Definition

/-- The declared name. -/
def name : Definition → String
  | .struct d => d.name
  | .enum d => d.name
  | .typedef d => d.name

/-- The scoped name. -/
def path : Definition → ScopedName
  | .struct d => d.path
  | .enum d => d.path
  | .typedef d => d.path

/-- The references within a declaration. -/
def references : Definition → List Reference
  | .struct d => d.references
  | .enum _ => []
  | .typedef d => d.type.references

end Definition

namespace Direction

/-- Carries a value from the caller to the callee. -/
def isIn : Direction → Bool
  | .input | .inout => true
  | .output => false

/-- Carries a value from the callee back to the caller. -/
def isOut : Direction → Bool
  | .output | .inout => true
  | .input => false

end Direction

namespace Operation

/-- The references within an operation: its return type, then its parameters. -/
def references (o : Operation) : List Reference :=
  o.returns.references ++ o.parameters.flatMap (·.type.references)

end Operation

namespace Interface

/-- An interface of this name holds attributes: its operations read and write values. -/
def attributesName : String := "Attributes"

/-- Whether the operations are attribute accessors. -/
def isAttributes (i : Interface) : Bool := i.name == attributesName

end Interface

namespace Module

/-- The references within a module, in the order in which they are written. -/
def references (m : Module) : List Reference :=
  m.definitions.flatMap (·.references) ++ m.interfaces.flatMap (·.operations.flatMap (·.references))

end Module

end WireStub
