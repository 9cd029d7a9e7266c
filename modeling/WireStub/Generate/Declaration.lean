import WireStub.Code.Item

/-!
# Declarations and their codecs

Every declaration of a module becomes a C type and a pair of codec functions.

* `Definition.item` is the C type;
* `Definition.codecs` are the two functions.  The codec of a struct counts from 4, behind the length
  that the writer stores at the beginning; an array counts from 0, and a plain typedef delegates to
  the type it stands for.
-/

namespace WireStub

/-- The C field of a member of the struct with a name in messages. -/
def Member.field (context : String) (m : Member) : Except RenderError Field := do
  let d ← m.type.declarator (context ++ "::" ++ m.name) m.dims
  .ok ⟨Identifier.escape m.name, d⟩

/-- The C fields of a struct. -/
def StructDecl.fields (context : String) (d : StructDecl) : Except RenderError (List Field) :=
  d.members.mapM (Member.field context)

/-- Moves the value at a place, or each element of an array there, and counts the bytes. -/
def codecStep (h : Half) (counter place : String) (d : Declarator) : Statement :=
  .nest
    (fun indexed => .advance counter
      ⟨h, d.type, "buffer", "offset + " ++ counter, h.argument d.type indexed⟩)
    0 place d.dims

/-- The place of a field of the value. -/
def Field.place (f : Field) : String := "value->" ++ f.name

/-- The body of a struct codec. -/
def structBody (h : Half) (fields : List Field) : List Statement :=
  [.startCounter "structOffset" 4] ++
    fields.map (fun f => codecStep h "structOffset" f.place f.declarator) ++
    (if h = .marshal then [.storeLength "structOffset"] else []) ++
    [.giveBack "structOffset"]

/-- The body of an enum codec: the value travels as an integer of 32 bits. -/
def enumBody (h : Half) (c : CType) : List Statement :=
  match h with
  | .marshal =>
    [.line "uint32_t valueInt = (uint32_t)value;",
     .line "return uint32_t_marshal(buffer, offset, valueInt);"]
  | .unmarshal =>
    [.line "uint32_t valueInt = 0;",
     .line "uint32_t length = uint32_t_unmarshal(buffer, offset, &valueInt);",
     .line ("*value = (" ++ c.name ++ ")valueInt;"),
     .line "return length;"]

/-- The body of a typedef codec. -/
def typedefBody (h : Half) (d : Declarator) : List Statement :=
  if d.dims.isEmpty then [.delegate ⟨h, d.type, "buffer", "offset", ⟨.itself, "value"⟩⟩]
  else
    [.startCounter "typeOffset" 0, codecStep h "typeOffset" "(*value)" d, .giveBack "typeOffset"]

namespace Definition

/-- The C type of a declaration. -/
def item (d : Definition) : Except RenderError Item := do
  let c ← d.cType
  match d with
  | .struct s => return .structType c.name (← s.fields d.context)
  | .enum e => return .enumType c.name (e.enumerators.map Identifier.escape)
  | .typedef t => return .aliasType c.name (← t.type.declarator d.context t.dims)

/-- The bodies of the codec functions of a declaration. -/
def codecBody (d : Definition) (c : CType) : Except RenderError (Half → List Statement) :=
  match d with
  | .struct s => do
    let fields ← s.fields d.context
    .ok fun h => structBody h fields
  | .enum _ => .ok fun h => enumBody h c
  | .typedef t => do
    let declarator ← t.type.declarator d.context t.dims
    .ok fun h => typedefBody h declarator

/-- The codec functions of a declaration, the writer first. -/
def codecs (d : Definition) : Except RenderError (List Function) := do
  let c ← d.cType
  let body ← d.codecBody c
  .ok (Half.both.map fun h => ⟨h.signature c, body h⟩)

/-- The prototypes of the codec functions of a declaration. -/
def codecPrototypes (d : Definition) : Except RenderError (List Prototype) := do
  let c ← d.cType
  .ok (Half.both.map fun h => ⟨true, h.signature c, []⟩)

end Definition

end WireStub
