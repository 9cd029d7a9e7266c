import WireStub.Proofs.Tree
import WireStub.Proofs.Schema.Relabeling
import WireStub.Schema.Reading
import WireStub.Schema.Writing

/-!
# Reading back a schema

A schema is read back from what is written of it.  Paths and bindings are not written, and a linked
reference is read back with the path of its target as its name.

* `Reference.reread` is what is read back of a reference;
* `TypeExpr.read?_write` and so on up to `SchemaFile.read?_write`: all other parts are read back as
  they are.
-/

namespace WireStub

/-- A reference, as it is read back. -/
def Reference.reread (r : Reference) : Reference := .unlinked r.written

/-! ### Types -/

theorem readDims?_ofList (dims : List UInt32) :
    readDims? (.ofList (dims.map fun d => .ofNat d.toNat)) = some dims := by
  have hread (d : UInt32) : readDim? (.ofNat d.toNat) = some (id d) := by
    have hbound : d.toNat ≤ 4294967295 := Nat.le_of_lt_succ d.toNat_lt
    simp [readDim?, Tree.unsigned?_ofNat hbound]
  simpa [readDims?] using Tree.list?_ofList dims fun d _ => hread d

theorem EnumDecl.read?_write (d : EnumDecl) :
    EnumDecl.read? d.write = some (d.relabel fun _ => .root) := by
  have henumerators := Tree.list?_text?_ofList d.enumerators
  simp [read?, write, Tree.fields?, Tree.ofEntries, Tree.entries?, Tree.required, List.lookup_cons,
    henumerators, relabel]

mutual

theorem TypeExpr.read?_write :
    ∀ e : TypeExpr, TypeExpr.read? e.write = some (e.relabel (fun _ => .root) .reread)
  | .primitive p => by
    simp [TypeExpr.write, Tree.ofCase, TypeExpr.read?, Primitive.ofWord?_word, TypeExpr.relabel]
  | .declared r => by
    simp [TypeExpr.write, Tree.ofCase, TypeExpr.read?, TypeExpr.relabel, Reference.reread]
  | .string => by
    simp [TypeExpr.write, Tree.ofText, TypeExpr.read?, Scalar.hasWordTag, TypeExpr.relabel]
  | .sequence e => by
    simp [TypeExpr.write, Tree.ofCase, TypeExpr.read?, TypeExpr.read?_write e, TypeExpr.relabel]
  | .struct d => by
    simp [TypeExpr.write, Tree.ofCase, TypeExpr.read?, StructDecl.read?_write d, TypeExpr.relabel]
  | .enum d => by
    simp [TypeExpr.write, Tree.ofCase, TypeExpr.read?, d.read?_write, TypeExpr.relabel]

theorem StructDecl.read?_write :
    ∀ d : StructDecl, StructDecl.read? d.write = some (d.relabel (fun _ => .root) .reread)
  | ⟨name, path, ms⟩ => by
    simp [StructDecl.write, Tree.ofEntries, Tree.ofList, StructDecl.read?, StructDecl.readEntries?,
      fill?, Member.readList?, Member.readItems?_writeAll ms, StructDraft.finish?,
      StructDecl.relabel]

theorem Member.readItems?_writeAll :
    ∀ ms : List Member,
      Member.readItems? (Member.writeAll ms) = some (Member.relabelAll (fun _ => .root) .reread ms)
  | [] => by simp [Member.writeAll, Member.readItems?, Member.relabelAll]
  | ⟨name, type, dims⟩ :: ms => by
    have htype := TypeExpr.read?_write type
    have hms := Member.readItems?_writeAll ms
    have hdims := readDims?_ofList dims
    simp only [Member.writeAll, Member.readItems?, Member.relabelAll, Tree.ofEntries, Member.read?,
      hms]
    unfold writeDims
    -- without dimensions, the entry is left out
    split
    · obtain rfl := List.isEmpty_iff.1 ‹_›
      simp [Member.readEntries?, fill?, htype, MemberDraft.finish?]
    · simp [Member.readEntries?, fill?, htype, hdims, MemberDraft.finish?]

end

/-! ### Definitions and interfaces -/

theorem TypedefDecl.read?_write (d : TypedefDecl) :
    TypedefDecl.read? d.write = some (d.relabel (fun _ => .root) .reread) := by
  have hdims := readDims?_ofList d.dims
  unfold write writeDims
  split
  · have hnil := List.isEmpty_iff.1 ‹_›
    simp [read?, Tree.fields?, Tree.ofEntries, Tree.entries?, Tree.required, Tree.optional,
      List.lookup_cons, d.type.read?_write, hnil, relabel]
  · simp [read?, Tree.fields?, Tree.ofEntries, Tree.entries?, Tree.required, Tree.optional,
      List.lookup_cons, d.type.read?_write, hdims, relabel]

theorem Definition.read?_write (d : Definition) :
    Definition.read? d.write = some (d.relabel (fun _ => .root) .reread) := by
  cases d with
  | struct d => simp [read?, write, d.read?_write, relabel]
  | enum d => simp [read?, write, d.read?_write, relabel]
  | typedef d => simp [read?, write, d.read?_write, relabel]

theorem Parameter.read?_write (p : Parameter) :
    Parameter.read? p.write = some (p.relabel (fun _ => .root) .reread) := by
  simp [read?, write, Tree.fields?, Tree.ofEntries, Tree.entries?, Tree.required, List.lookup_cons,
    p.type.read?_write, Direction.ofWord?_word, relabel]

theorem Operation.read?_write (o : Operation) :
    Operation.read? o.write = some (o.relabel (fun _ => .root) .reread) := by
  have hparameters := Tree.list?_ofList o.parameters fun p _ => p.read?_write
  have hraises := Tree.list?_text?_ofList o.raises
  unfold write
  split
  · have hnil := List.isEmpty_iff.1 ‹_›
    simp [read?, Tree.fields?, Tree.ofEntries, Tree.entries?, Tree.required, Tree.optional,
      List.lookup_cons, o.returns.read?_write, hparameters, hnil, relabel]
  · simp [read?, Tree.fields?, Tree.ofEntries, Tree.entries?, Tree.required, Tree.optional,
      List.lookup_cons, o.returns.read?_write, hparameters, hraises, relabel]

theorem Interface.read?_write (i : Interface) :
    Interface.read? i.write = some (i.relabel (fun _ => .root) .reread) := by
  have hoperations := Tree.list?_ofList i.operations fun o _ => o.read?_write
  simp [read?, write, Tree.fields?, Tree.ofEntries, Tree.entries?, Tree.required, Tree.optional,
    List.lookup_cons, hoperations, relabel]

/-- A module is read back from what is written of it, without its paths and bindings. -/
theorem Module.read?_write (m : Module) :
    Module.read? m.write = some (m.relabel (fun _ => .root) .reread) := by
  have hdefinitions := Tree.list?_ofList m.definitions fun d _ => d.read?_write
  have hinterfaces := Tree.list?_ofList m.interfaces fun i _ => i.read?_write
  simp [read?, write, Tree.fields?, Tree.ofEntries, Tree.entries?, Tree.required, Tree.optional,
    List.lookup_cons, hdefinitions, hinterfaces, relabel]

/-- A schema file is read back from what is written of it, without the links in its modules. -/
theorem SchemaFile.read?_write (f : SchemaFile) :
    SchemaFile.read? f.write =
      some { f with modules := f.modules.map (Module.relabel (fun _ => .root) .reread) } := by
  have himports := Tree.list?_text?_ofList f.imports
  have hmodules := Tree.list?_ofList f.modules fun m _ => m.read?_write
  simp [read?, write, Tree.fields?, Tree.ofEntries, Tree.entries?, Tree.optional, List.lookup_cons,
    himports, hmodules]

end WireStub
