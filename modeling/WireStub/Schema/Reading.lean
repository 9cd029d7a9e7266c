import WireStub.Schema.Spelling
import WireStub.Tree

/-!
# Reading schemas

Schemas are read from document trees.  A record has known keys only, each at most once, in any
order; a choice is a record with one key or a bare word.

* `TypeExpr.read?`, `StructDecl.read?` and the readers of members recurse along the tree and collect
  the fields of a record in a draft;
* `Module.read?` and `SchemaFile.read?` read the other records by their fields.
-/

namespace WireStub

/-- A dimension: a number of 32 bits. -/
def readDim? (t : Tree) : Option UInt32 := (t.unsigned? 4294967295).map UInt32.ofNat

/-- The dimensions of a member or a typedef. -/
def readDims? (t : Tree) : Option (List UInt32) := t.list? readDim?

/-- Fills a field of a draft that has no value yet. -/
def fill? {α : Type} (field : Option α) (value : Option α) : Option (Option α) :=
  if field.isSome then none else value.map some

/-- The fields read of a member. -/
structure MemberDraft where
  name : Option String
  type : Option TypeExpr
  dims : Option (List UInt32)

/-- The member of a draft: name and type are required. -/
def MemberDraft.finish? (d : MemberDraft) : Option Member := do
  some ⟨← d.name, ← d.type, d.dims.getD []⟩

/-- The fields read of a struct. -/
structure StructDraft where
  name : Option String
  members : Option (List Member)

/-- The struct of a draft: both fields are required. -/
def StructDraft.finish? (d : StructDraft) : Option StructDecl := do
  some ⟨← d.name, .root, ← d.members⟩

/-- Reads an enum: its name and its enumerators. -/
def EnumDecl.read? (t : Tree) : Option EnumDecl := do
  let fs ← t.fields? ["name", "enumerators"]
  some ⟨← Tree.required fs "name" Tree.text?, .root,
    ← Tree.required fs "enumerators" (Tree.list? Tree.text?)⟩

mutual

/-- Reads a type: the word `string`, or a record whose key says what type it is. -/
def TypeExpr.read? : Tree → Option TypeExpr
  | .scalar s => if s.hasWordTag && s.text == "string" then some .string else none
  | .record tag [(key, payload)] =>
    if tag.any Scalar.isLocalTag then none
    else
      match key with
      | "primitive" => (payload.unitCase?.bind Primitive.ofWord?).map .primitive
      | "declared" => payload.text?.map fun name => .declared (.unlinked name)
      | "sequence" => (TypeExpr.read? payload).map .sequence
      | "struct" => (StructDecl.read? payload).map .struct
      | "enum" => (EnumDecl.read? payload).map .enum
      | _ => none
  | _ => none

/-- Reads a struct: its name and its members. -/
def StructDecl.read? : Tree → Option StructDecl
  | .record _ es => (StructDecl.readEntries? ⟨none, none⟩ es).bind StructDraft.finish?
  | _ => none

/-- Reads the entries of a struct into a draft. -/
def StructDecl.readEntries? (d : StructDraft) : List (String × Tree) → Option StructDraft
  | [] => some d
  | (key, value) :: es =>
    match key with
    | "name" => (fill? d.name value.text?).bind fun name =>
        StructDecl.readEntries? { d with name := name } es
    | "members" => (fill? d.members (Member.readList? value)).bind fun members =>
        StructDecl.readEntries? { d with members := members } es
    | _ => none

/-- Reads the list of members of a struct. -/
def Member.readList? : Tree → Option (List Member)
  | .list _ items => Member.readItems? items
  | .scalar s => if s.isVoid then some [] else none
  | .record _ _ => none

/-- Reads members that follow each other. -/
def Member.readItems? : List Tree → Option (List Member)
  | [] => some []
  | t :: ts => (Member.read? t).bind fun m => (Member.readItems? ts).map (m :: ·)

/-- Reads a member: its name, its type and its dimensions. -/
def Member.read? : Tree → Option Member
  | .record _ es => (Member.readEntries? ⟨none, none, none⟩ es).bind MemberDraft.finish?
  | _ => none

/-- Reads the entries of a member into a draft. -/
def Member.readEntries? (d : MemberDraft) : List (String × Tree) → Option MemberDraft
  | [] => some d
  | (key, value) :: es =>
    match key with
    | "name" => (fill? d.name value.text?).bind fun name =>
        Member.readEntries? { d with name := name } es
    | "type" => (fill? d.type (TypeExpr.read? value)).bind fun type =>
        Member.readEntries? { d with type := type } es
    | "dims" => (fill? d.dims (readDims? value)).bind fun dims =>
        Member.readEntries? { d with dims := dims } es
    | _ => none

end

/-- Reads a typedef: its name, its type and its dimensions. -/
def TypedefDecl.read? (t : Tree) : Option TypedefDecl := do
  let fs ← t.fields? ["name", "type", "dims"]
  some ⟨← Tree.required fs "name" Tree.text?, .root, ← Tree.required fs "type" TypeExpr.read?,
    ← Tree.optional fs "dims" [] readDims?⟩

/-- Reads a definition: a record whose key says what it declares. -/
def Definition.read? (t : Tree) : Option Definition := do
  let (key, payload) ← t.payloadCase?
  match key with
  | "struct" => (StructDecl.read? payload).map .struct
  | "enum" => (EnumDecl.read? payload).map .enum
  | "typedef" => (TypedefDecl.read? payload).map .typedef
  | _ => none

/-- Reads a parameter: its name, its type and its direction. -/
def Parameter.read? (t : Tree) : Option Parameter := do
  let fs ← t.fields? ["name", "type", "direction"]
  some ⟨← Tree.required fs "name" Tree.text?, ← Tree.required fs "type" TypeExpr.read?,
    ← Tree.required fs "direction" fun t => t.unitCase?.bind Direction.ofWord?⟩

/-- Reads an operation.  Without a return type it returns nothing. -/
def Operation.read? (t : Tree) : Option Operation := do
  let fs ← t.fields? ["name", "returns", "parameters", "raises"]
  some ⟨← Tree.required fs "name" Tree.text?,
    ← Tree.optional fs "returns" TypeExpr.void TypeExpr.read?,
    ← Tree.optional fs "parameters" [] (Tree.list? Parameter.read?),
    ← Tree.optional fs "raises" [] (Tree.list? Tree.text?)⟩

/-- Reads an interface. -/
def Interface.read? (t : Tree) : Option Interface := do
  let fs ← t.fields? ["name", "operations"]
  some ⟨← Tree.required fs "name" Tree.text?, .root,
    ← Tree.optional fs "operations" [] (Tree.list? Operation.read?)⟩

/-- Reads a module. -/
def Module.read? (t : Tree) : Option Module := do
  let fs ← t.fields? ["name", "definitions", "interfaces"]
  some ⟨← Tree.required fs "name" Tree.text?,
    ← Tree.optional fs "definitions" [] (Tree.list? Definition.read?),
    ← Tree.optional fs "interfaces" [] (Tree.list? Interface.read?)⟩

/-- Reads a schema file. -/
def SchemaFile.read? (t : Tree) : Option SchemaFile := do
  let fs ← t.fields? ["imports", "modules"]
  some ⟨← Tree.optional fs "imports" [] (Tree.list? Tree.text?),
    ← Tree.optional fs "modules" [] (Tree.list? Module.read?)⟩

end WireStub
