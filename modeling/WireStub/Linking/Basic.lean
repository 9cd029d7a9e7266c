import WireStub.Linking.SymbolTable
import WireStub.Linking.Error

/-!
# Linking

Linking gives every declaration its path and binds every reference to a declaration that comes
before it.  A struct is declared before its members are linked, so a member may refer to the struct
around it; a typedef is declared after its type.

Each part is linked from a symbol table.  The result, `Linked`, is the part with what was filled in,
the table behind it, and the outcome.  When a part fails, what was linked before the fault stays
linked, in the part and in the table.

* `TypeExpr.link`, `StructDecl.link`, `TypedefDecl.link`, `Interface.link`, `Module.link`;
* `linkAll` links parts one after the other, up to the first that fails.
-/

namespace WireStub

/-- What linking a part leaves behind. -/
structure Linked (α β : Type) where
  /-- The part, as far as it is linked. -/
  part : α
  /-- The declarations known behind it. -/
  table : SymbolTable
  outcome : Except LinkError β

namespace Linked

/-- The same result for a larger part. -/
def mapPart {α α' β : Type} (f : α → α') (l : Linked α β) : Linked α' β :=
  ⟨f l.part, l.table, l.outcome⟩

/-- The same result with another value. -/
def mapOutcome {α β β' : Type} (f : β → β') (l : Linked α β) : Linked α β' :=
  ⟨l.part, l.table, l.outcome.map f⟩

/-- Whether linking succeeded. -/
def succeeds {α β : Type} (l : Linked α β) : Bool := l.outcome.isOk

end Linked

/-- Links parts one after the other; the first that fails ends the linking. -/
def linkAll {α β : Type} (link : SymbolTable → α → Linked α β) (t : SymbolTable) :
    List α → Linked (List α) Unit
  | [] => ⟨[], t, .ok ()⟩
  | a :: as =>
    let l := link t a
    match l.outcome with
    | .error e => ⟨l.part :: as, l.table, .error e⟩
    | .ok _ => (linkAll link l.table as).mapPart (l.part :: ·)

/-- Where a type stands. -/
structure Site where
  /-- References are looked up from this scope outwards. -/
  scope : ScopedName
  /-- Types declared in place belong to this scope; without one they are refused. -/
  inlineScope : Option ScopedName
  /-- The name of the place in messages. -/
  context : ScopedName

/-- The site of a member of the struct with this path. -/
def Site.member (path : ScopedName) (name : String) : Site :=
  ⟨path, some path, path.child name⟩

/-- The site of the type of a typedef: a type declared in place belongs to the scope around the
typedef. -/
def Site.typedef (scope : ScopedName) (name : String) : Site :=
  ⟨scope, some scope, scope.child name⟩

/-- The site of a return type. -/
def Site.returns (interface : ScopedName) (operation : String) : Site :=
  ⟨interface, none, interface.child operation⟩

/-- The site of a parameter. -/
def Site.parameter (interface : ScopedName) (operation name : String) : Site :=
  ⟨interface, none, (interface.child operation).child name⟩

/-- Links a reference. -/
def Reference.link (s : Site) (t : SymbolTable) (r : Reference) : Linked Reference Kind :=
  match t.lookup? r.name s.scope with
  | some (target, kind) => ⟨⟨r.name, some target, some kind⟩, t, .ok kind⟩
  | none => ⟨r, t, .error (.unknownType r.name s.context)⟩

/-- Links an enum: it is declared within a scope. -/
def EnumDecl.link (scope : ScopedName) (t : SymbolTable) (d : EnumDecl) : Linked EnumDecl Unit :=
  if Text.isBlank d.name then ⟨d, t, .error (.emptyName scope)⟩
  else
    let path := scope.child d.name
    let d := { d with path := path }
    match t.declare? path .enum with
    | none => ⟨d, t, .error (.duplicateDeclaration path)⟩
    | some t => ⟨d, t, .ok ()⟩

mutual

/-- Links a type; the value is its kind. -/
def TypeExpr.link (s : Site) (t : SymbolTable) : TypeExpr → Linked TypeExpr Kind
  | .primitive p => ⟨.primitive p, t, .ok .scalar⟩
  | .string => ⟨.string, t, .ok .string⟩
  | .declared r => (r.link s t).mapPart .declared
  | .sequence e => ((e.link s t).mapPart .sequence).mapOutcome fun _ => .sequence
  | .struct d =>
    match s.inlineScope with
    | some scope => ((d.link scope t).mapPart .struct).mapOutcome fun _ => .struct
    | none => ⟨.struct d, t, .error (.inlineNotAllowed d.name s.context)⟩
  | .enum d =>
    match s.inlineScope with
    | some scope => ((d.link scope t).mapPart .enum).mapOutcome fun _ => .enum
    | none => ⟨.enum d, t, .error (.inlineNotAllowed d.name s.context)⟩

/-- Links a struct: it is declared within a scope before its members are linked. -/
def StructDecl.link (scope : ScopedName) (t : SymbolTable) : StructDecl → Linked StructDecl Unit
  | ⟨name, path, members⟩ =>
    if Text.isBlank name then ⟨⟨name, path, members⟩, t, .error (.emptyName scope)⟩
    else
      let path := scope.child name
      match t.declare? path .struct with
      | none => ⟨⟨name, path, members⟩, t, .error (.duplicateDeclaration path)⟩
      | some t => (Member.linkAll path t members).mapPart fun ms => ⟨name, path, ms⟩

/-- Links the members of the struct with this path, up to the first that fails. -/
def Member.linkAll (path : ScopedName) (t : SymbolTable) : List Member → Linked (List Member) Unit
  | [] => ⟨[], t, .ok ()⟩
  | ⟨name, type, dims⟩ :: ms =>
    let l := type.link (.member path name) t
    match l.outcome with
    | .error e => ⟨⟨name, l.part, dims⟩ :: ms, l.table, .error e⟩
    | .ok _ => (Member.linkAll path l.table ms).mapPart (⟨name, l.part, dims⟩ :: ·)

end

/-- The kind of a typedef for a type of some kind: with dimensions it is an array. -/
def TypedefDecl.kindOver (d : TypedefDecl) (k : Kind) : Kind := if d.dims.isEmpty then k else .array

/-- Links a typedef: it is declared within a scope after its type is linked. -/
def TypedefDecl.link (scope : ScopedName) (t : SymbolTable) (d : TypedefDecl) :
    Linked TypedefDecl Unit :=
  if Text.isBlank d.name then ⟨d, t, .error (.emptyName scope)⟩
  else
    let path := scope.child d.name
    let l := d.type.link (.typedef scope d.name) t
    let d := { d with path := path, type := l.part }
    match l.outcome with
    | .error e => ⟨d, l.table, .error e⟩
    | .ok kind =>
      match l.table.declare? path (d.kindOver kind) with
      | none => ⟨d, l.table, .error (.duplicateDeclaration path)⟩
      | some t => ⟨d, t, .ok ()⟩

/-- Links a definition within a scope. -/
def Definition.link (scope : ScopedName) (t : SymbolTable) : Definition → Linked Definition Unit
  | .struct d => (d.link scope t).mapPart .struct
  | .enum d => (d.link scope t).mapPart .enum
  | .typedef d => (d.link scope t).mapPart fun d => .typedef d

/-- Links a parameter of an operation. -/
def Parameter.link (interface : ScopedName) (operation : String) (t : SymbolTable)
    (p : Parameter) : Linked Parameter Kind :=
  (p.type.link (.parameter interface operation p.name) t).mapPart fun type =>
    { p with type := type }

/-- Links an operation: its return type, then its parameters. -/
def Operation.link (interface : ScopedName) (t : SymbolTable) (o : Operation) :
    Linked Operation Unit :=
  let l := o.returns.link (.returns interface o.name) t
  let o := { o with returns := l.part }
  match l.outcome with
  | .error e => ⟨o, l.table, .error e⟩
  | .ok _ =>
    (linkAll (Parameter.link interface o.name) l.table o.parameters).mapPart fun ps =>
      { o with parameters := ps }

/-- Links an interface.  Its path is a scope and not a declared name. -/
def Interface.link (scope : ScopedName) (t : SymbolTable) (i : Interface) : Linked Interface Unit :=
  if Text.isBlank i.name then ⟨i, t, .error (.emptyName scope)⟩
  else
    let path := scope.child i.name
    (linkAll (Operation.link path) t i.operations).mapPart fun os =>
      { i with path := path, operations := os }

/-- Links a module: its definitions, then its interfaces. -/
def Module.link (t : SymbolTable) (m : Module) : Linked Module Unit :=
  if m.name.isEmpty then ⟨m, t, .error .unnamedModule⟩
  else
    let scope := ScopedName.root.child m.name
    let l := linkAll (Definition.link scope) t m.definitions
    let m := { m with definitions := l.part }
    match l.outcome with
    | .error e => ⟨m, l.table, .error e⟩
    | .ok _ =>
      (linkAll (Interface.link scope) l.table m.interfaces).mapPart fun is =>
        { m with interfaces := is }

end WireStub
