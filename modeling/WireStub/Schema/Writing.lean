import WireStub.Schema.Spelling
import WireStub.Tree

/-!
# Writing schemas

Schemas are written to document trees, with every field that has a value; empty dimensions and empty
`raises` are left out.  A linked reference is written as the path of its target, an unlinked one as
its name.
-/

namespace WireStub

/-- The name under which a reference is written. -/
def Reference.written (r : Reference) : String :=
  match r.target with
  | some path => path.display
  | none => r.name

/-- Dimensions as the entry of a record. -/
def writeDims (dims : List UInt32) : List (String × Tree) :=
  if dims.isEmpty then [] else [("dims", .ofList (dims.map fun d => .ofNat d.toNat))]

/-- Writes an enum. -/
def EnumDecl.write (d : EnumDecl) : Tree :=
  .ofEntries [("name", .ofText d.name), ("enumerators", .ofList (d.enumerators.map .ofText))]

mutual

/-- Writes a type. -/
def TypeExpr.write : TypeExpr → Tree
  | .primitive p => .ofCase "primitive" (.ofText p.word)
  | .declared r => .ofCase "declared" (.ofText r.written)
  | .string => .ofText "string"
  | .sequence e => .ofCase "sequence" e.write
  | .struct d => .ofCase "struct" d.write
  | .enum d => .ofCase "enum" d.write

/-- Writes a struct. -/
def StructDecl.write : StructDecl → Tree
  | ⟨name, _, ms⟩ => .ofEntries [("name", .ofText name), ("members", .ofList (Member.writeAll ms))]

/-- Writes members. -/
def Member.writeAll : List Member → List Tree
  | [] => []
  | ⟨name, type, dims⟩ :: ms =>
    .ofEntries ([("name", .ofText name), ("type", type.write)] ++ writeDims dims) ::
      Member.writeAll ms

end

/-- Writes a typedef. -/
def TypedefDecl.write (d : TypedefDecl) : Tree :=
  .ofEntries ([("name", .ofText d.name), ("type", d.type.write)] ++ writeDims d.dims)

/-- Writes a definition. -/
def Definition.write : Definition → Tree
  | .struct d => .ofCase "struct" d.write
  | .enum d => .ofCase "enum" d.write
  | .typedef d => .ofCase "typedef" d.write

/-- Writes a parameter. -/
def Parameter.write (p : Parameter) : Tree :=
  .ofEntries [("name", .ofText p.name), ("type", p.type.write),
    ("direction", .ofText p.direction.word)]

/-- Writes an operation. -/
def Operation.write (o : Operation) : Tree :=
  .ofEntries ([("name", .ofText o.name), ("returns", o.returns.write),
    ("parameters", .ofList (o.parameters.map Parameter.write))] ++
    if o.raises.isEmpty then [] else [("raises", .ofList (o.raises.map .ofText))])

/-- Writes an interface. -/
def Interface.write (i : Interface) : Tree :=
  .ofEntries [("name", .ofText i.name), ("operations", .ofList (i.operations.map Operation.write))]

/-- Writes a module. -/
def Module.write (m : Module) : Tree :=
  .ofEntries [("name", .ofText m.name),
    ("definitions", .ofList (m.definitions.map Definition.write)),
    ("interfaces", .ofList (m.interfaces.map Interface.write))]

/-- Writes a schema file. -/
def SchemaFile.write (f : SchemaFile) : Tree :=
  .ofEntries [("imports", .ofList (f.imports.map .ofText)),
    ("modules", .ofList (f.modules.map Module.write))]

end WireStub
