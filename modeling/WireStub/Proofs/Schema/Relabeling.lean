import WireStub.Code.CType

/-!
# Schemas with other links

Linking fills in the paths of declarations and the bindings of references.  A part of a schema is
*relabeled* by a change of its paths and a change of its references; everything else stays.

* `TypeExpr.relabel` and so on up to `Module.relabel` change a part;
* `Module.relabel_relabel`: of two changes, one after the other, both are made at once;
* `Module.unlinked` is a module as it was before linking: no path, no binding.
-/

namespace WireStub

variable (path : ScopedName → ScopedName) (ref : Reference → Reference)

namespace EnumDecl

/-- An enum with another path. -/
def relabel (d : EnumDecl) : EnumDecl := { d with path := path d.path }

end EnumDecl

mutual

/-- A type with other paths and references. -/
def TypeExpr.relabel : TypeExpr → TypeExpr
  | .primitive p => .primitive p
  | .declared r => .declared (ref r)
  | .string => .string
  | .sequence e => .sequence e.relabel
  | .struct d => .struct d.relabel
  | .enum d => .enum (d.relabel path)

/-- A struct with other paths and references. -/
def StructDecl.relabel : StructDecl → StructDecl
  | ⟨name, p, ms⟩ => ⟨name, path p, Member.relabelAll ms⟩

/-- Members with other paths and references. -/
def Member.relabelAll : List Member → List Member
  | [] => []
  | ⟨name, type, dims⟩ :: ms => ⟨name, type.relabel, dims⟩ :: Member.relabelAll ms

end

/-- A typedef with other paths and references. -/
def TypedefDecl.relabel (d : TypedefDecl) : TypedefDecl :=
  { d with path := path d.path, type := d.type.relabel path ref }

/-- A definition with other paths and references. -/
def Definition.relabel : Definition → Definition
  | .struct d => .struct (d.relabel path ref)
  | .enum d => .enum (d.relabel path)
  | .typedef d => .typedef (d.relabel path ref)

/-- A parameter with other paths and references. -/
def Parameter.relabel (p : Parameter) : Parameter := { p with type := p.type.relabel path ref }

/-- An operation with other paths and references. -/
def Operation.relabel (o : Operation) : Operation :=
  { o with
    returns := o.returns.relabel path ref
    parameters := o.parameters.map (Parameter.relabel path ref) }

/-- An interface with other paths and references. -/
def Interface.relabel (i : Interface) : Interface :=
  { i with path := path i.path, operations := i.operations.map (Operation.relabel path ref) }

/-- A module with other paths and references. -/
def Module.relabel (m : Module) : Module :=
  { m with
    definitions := m.definitions.map (Definition.relabel path ref)
    interfaces := m.interfaces.map (Interface.relabel path ref) }

/-! ### Two changes -/

section Twice

variable (path' : ScopedName → ScopedName) (ref' : Reference → Reference)

mutual

theorem TypeExpr.relabel_relabel :
    ∀ e : TypeExpr, (e.relabel path ref).relabel path' ref' = e.relabel (path' ∘ path) (ref' ∘ ref)
  | .primitive _ | .declared _ | .string | .enum _ => rfl
  | .sequence e => congrArg TypeExpr.sequence (TypeExpr.relabel_relabel e)
  | .struct d => congrArg TypeExpr.struct (StructDecl.relabel_relabel d)

theorem StructDecl.relabel_relabel :
    ∀ d : StructDecl,
      (d.relabel path ref).relabel path' ref' = d.relabel (path' ∘ path) (ref' ∘ ref)
  | ⟨name, p, ms⟩ => congrArg (StructDecl.mk name (path' (path p))) (Member.relabelAll_relabelAll ms)

theorem Member.relabelAll_relabelAll :
    ∀ ms : List Member,
      Member.relabelAll path' ref' (Member.relabelAll path ref ms) =
        Member.relabelAll (path' ∘ path) (ref' ∘ ref) ms
  | [] => rfl
  | ⟨name, type, dims⟩ :: ms => by
    simp only [Member.relabelAll, TypeExpr.relabel_relabel type, Member.relabelAll_relabelAll ms]

end

theorem Definition.relabel_relabel (d : Definition) :
    (d.relabel path ref).relabel path' ref' = d.relabel (path' ∘ path) (ref' ∘ ref) := by
  cases d with
  | struct d => exact congrArg Definition.struct (d.relabel_relabel path ref path' ref')
  | enum d => rfl
  | typedef d => simp [relabel, TypedefDecl.relabel, d.type.relabel_relabel path ref path' ref']

theorem Operation.relabel_relabel (o : Operation) :
    (o.relabel path ref).relabel path' ref' = o.relabel (path' ∘ path) (ref' ∘ ref) := by
  simp [relabel, Parameter.relabel, TypeExpr.relabel_relabel, Function.comp_def]

theorem Interface.relabel_relabel (i : Interface) :
    (i.relabel path ref).relabel path' ref' = i.relabel (path' ∘ path) (ref' ∘ ref) := by
  simp [relabel, Operation.relabel_relabel, Function.comp_def]

/-- Two changes of a module, one after the other. -/
theorem Module.relabel_relabel (m : Module) :
    (m.relabel path ref).relabel path' ref' = m.relabel (path' ∘ path) (ref' ∘ ref) := by
  simp [relabel, Definition.relabel_relabel, Interface.relabel_relabel, Function.comp_def]

end Twice

/-! ### Before linking -/

/-- A type before linking. -/
def TypeExpr.unlinked (e : TypeExpr) : TypeExpr :=
  e.relabel (fun _ => .root) fun r => .unlinked r.name

/-- A struct before linking. -/
def StructDecl.unlinked (d : StructDecl) : StructDecl :=
  d.relabel (fun _ => .root) fun r => .unlinked r.name

/-- A definition before linking. -/
def Definition.unlinked (d : Definition) : Definition :=
  d.relabel (fun _ => .root) fun r => .unlinked r.name

/-- An operation before linking. -/
def Operation.unlinked (o : Operation) : Operation :=
  o.relabel (fun _ => .root) fun r => .unlinked r.name

/-- An interface before linking. -/
def Interface.unlinked (i : Interface) : Interface :=
  i.relabel (fun _ => .root) fun r => .unlinked r.name

/-- A module before linking. -/
def Module.unlinked (m : Module) : Module :=
  m.relabel (fun _ => .root) fun r => .unlinked r.name

end WireStub
