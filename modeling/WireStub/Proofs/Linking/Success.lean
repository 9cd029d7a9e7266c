import WireStub.Proofs.Except
import WireStub.Proofs.Linking.Growth

/-!
# Parts that link

When a part links, so do the parts within it, and the linked part is made of theirs.  The lemmas here
say so once for every kind of part, so that what linking establishes is proved without opening the
linker.

* `Reference.link_eq_ok`, `EnumDecl.link_eq_ok`, `StructDecl.link_eq_ok` and so on up to
  `Module.link_eq_ok`, one lemma per part;
* `TypeExpr.link_sequence_eq_ok`, `TypeExpr.link_struct_eq_ok` and `TypeExpr.link_enum_eq_ok` for the
  types that hold others.
-/

namespace WireStub

variable {t : SymbolTable}

/-! ### Types -/

theorem Reference.link_eq_ok {s : Site} {r : Reference} {k : Kind}
    (h : (r.link s t).outcome = .ok k) :
    ∃ target, t.lookup? r.name s.scope = some (target, k) ∧
      r.link s t = ⟨⟨r.name, some target, some k⟩, t, .ok k⟩ := by
  unfold Reference.link at h ⊢
  split at h
  · rename_i target kind hlookup
    cases h
    exact ⟨target, hlookup, rfl⟩
  · cases h

theorem EnumDecl.link_eq_ok {scope : ScopedName} {d : EnumDecl} {b : Unit}
    (h : (d.link scope t).outcome = .ok b) :
    ∃ u, t.declare? (scope.child d.name) .enum = some u ∧
      d.link scope t = ⟨{ d with path := scope.child d.name }, u, .ok ()⟩ := by
  unfold EnumDecl.link at h ⊢
  split at h
  · cases h
  · rename_i hname
    simp only [hname] at h ⊢
    split at h
    · cases h
    · rename_i u hdeclare
      exact ⟨u, hdeclare, rfl⟩

theorem StructDecl.link_eq_ok {scope path : ScopedName} {name : String} {members : List Member}
    {b : Unit} (h : (StructDecl.link scope t ⟨name, path, members⟩).outcome = .ok b) :
    ∃ u, t.declare? (scope.child name) .struct = some u ∧
      (Member.linkAll (scope.child name) u members).outcome = .ok () ∧
      StructDecl.link scope t ⟨name, path, members⟩ =
        (Member.linkAll (scope.child name) u members).mapPart (⟨name, scope.child name, ·⟩) := by
  rw [StructDecl.link] at h ⊢
  split at h
  · cases h
  · rename_i hname
    simp only [hname] at h ⊢
    split at h
    · cases h
    · rename_i u hdeclare
      exact ⟨u, hdeclare, h, rfl⟩

theorem Member.linkAll_cons_eq_ok {path : ScopedName} {name : String} {type : TypeExpr}
    {dims : List UInt32} {ms : List Member}
    (h : (Member.linkAll path t (⟨name, type, dims⟩ :: ms)).outcome = .ok ()) :
    ∃ k, (type.link (.member path name) t).outcome = .ok k ∧
      (Member.linkAll path (type.link (.member path name) t).table ms).outcome = .ok () ∧
      Member.linkAll path t (⟨name, type, dims⟩ :: ms) =
        (Member.linkAll path (type.link (.member path name) t).table ms).mapPart
          (⟨name, (type.link (.member path name) t).part, dims⟩ :: ·) := by
  rw [Member.linkAll] at h ⊢
  split at h
  · cases h
  · rename_i k hk
    exact ⟨k, hk, h, rfl⟩

namespace TypeExpr

variable {s : Site} {k : Kind}

theorem link_sequence_eq_ok {e : TypeExpr} (h : ((sequence e).link s t).outcome = .ok k) :
    ∃ k', (e.link s t).outcome = .ok k' ∧
      (sequence e).link s t = ⟨.sequence (e.link s t).part, (e.link s t).table, .ok .sequence⟩ := by
  simp only [link, Linked.mapPart, Linked.mapOutcome, map_eq_ok] at h ⊢
  obtain ⟨k', hk', -⟩ := h
  exact ⟨k', hk', by rw [hk']; rfl⟩

theorem link_struct_eq_ok {d : StructDecl} (h : ((struct d).link s t).outcome = .ok k) :
    ∃ scope, s.inlineScope = some scope ∧ (d.link scope t).outcome = .ok () ∧
      (struct d).link s t = ⟨.struct (d.link scope t).part, (d.link scope t).table, .ok .struct⟩ := by
  rw [link] at h ⊢
  split at h
  · rename_i scope hscope
    simp only [hscope, Linked.mapPart, Linked.mapOutcome, map_eq_ok] at h ⊢
    obtain ⟨b, hb, -⟩ := h
    exact ⟨scope, rfl, hb, by rw [hb]; rfl⟩
  · cases h

theorem link_enum_eq_ok {d : EnumDecl} (h : ((enum d).link s t).outcome = .ok k) :
    ∃ scope, s.inlineScope = some scope ∧ (d.link scope t).outcome = .ok () ∧
      (enum d).link s t = ⟨.enum (d.link scope t).part, (d.link scope t).table, .ok .enum⟩ := by
  rw [link] at h ⊢
  split at h
  · rename_i scope hscope
    simp only [hscope, Linked.mapPart, Linked.mapOutcome, map_eq_ok] at h ⊢
    obtain ⟨b, hb, -⟩ := h
    exact ⟨scope, rfl, hb, by rw [hb]; rfl⟩
  · cases h

end TypeExpr

/-! ### Parts of a module -/

theorem TypedefDecl.link_eq_ok {scope : ScopedName} {d : TypedefDecl} {b : Unit}
    (h : (d.link scope t).outcome = .ok b) :
    ∃ k u, (d.type.link (.typedef scope d.name) t).outcome = .ok k ∧
      (d.type.link (.typedef scope d.name) t).table.declare? (scope.child d.name) (d.kindOver k) =
        some u ∧
      d.link scope t =
        ⟨{ d with path := scope.child d.name, type := (d.type.link (.typedef scope d.name) t).part },
          u, .ok ()⟩ := by
  unfold TypedefDecl.link at h ⊢
  split at h
  · cases h
  · rename_i hname
    simp only [hname] at h ⊢
    split at h
    · cases h
    · rename_i k hk
      split at h
      · cases h
      · rename_i u hdeclare
        exact ⟨k, u, hk, hdeclare, rfl⟩

/-- The linked parameters of an operation follow its linked return type. -/
theorem Operation.link_eq_ok {interface : ScopedName} {o : Operation} {b : Unit}
    (h : (o.link interface t).outcome = .ok b) :
    ∃ k, (o.returns.link (.returns interface o.name) t).outcome = .ok k ∧
      (linkAll (Parameter.link interface o.name)
        (o.returns.link (.returns interface o.name) t).table o.parameters).outcome = .ok () ∧
      o.link interface t =
        (linkAll (Parameter.link interface o.name)
          (o.returns.link (.returns interface o.name) t).table o.parameters).mapPart fun ps =>
            { o with
              returns := (o.returns.link (.returns interface o.name) t).part
              parameters := ps } := by
  unfold Operation.link at h ⊢
  simp only at h ⊢
  split at h
  · cases h
  · rename_i k hk
    exact ⟨k, hk, h, rfl⟩

theorem Interface.link_eq_ok {scope : ScopedName} {i : Interface} {b : Unit}
    (h : (i.link scope t).outcome = .ok b) :
    (linkAll (Operation.link (scope.child i.name)) t i.operations).outcome = .ok () ∧
      i.link scope t =
        (linkAll (Operation.link (scope.child i.name)) t i.operations).mapPart fun os =>
          { i with path := scope.child i.name, operations := os } := by
  unfold Interface.link at h ⊢
  split at h
  · cases h
  · rename_i hname
    simp only [hname]
    exact ⟨h, rfl⟩

/-- The linked interfaces of a module follow its linked definitions. -/
theorem Module.link_eq_ok {m : Module} {b : Unit} (h : (m.link t).outcome = .ok b) :
    (linkAll (Definition.link (.child .root m.name)) t m.definitions).outcome = .ok () ∧
      (linkAll (Interface.link (.child .root m.name))
        (linkAll (Definition.link (.child .root m.name)) t m.definitions).table
          m.interfaces).outcome = .ok () ∧
      m.link t =
        (linkAll (Interface.link (.child .root m.name))
          (linkAll (Definition.link (.child .root m.name)) t m.definitions).table
            m.interfaces).mapPart fun is =>
              { m with
                definitions := (linkAll (Definition.link (.child .root m.name)) t m.definitions).part
                interfaces := is } := by
  unfold Module.link at h ⊢
  split at h
  · cases h
  · rename_i hname
    simp only [hname] at h ⊢
    split at h
    · cases h
    · rename_i b hdefinitions
      exact ⟨hdefinitions, h, rfl⟩

end WireStub
