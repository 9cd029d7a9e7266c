import WireStub.Proofs.Linking.Success
import WireStub.Proofs.Schema.Nodes

/-!
# What linking binds

Once modules are linked, every type in them leads to an entry of the symbol table, and that entry has
the kind of the type.  A reference records the kind when it is linked, a typedef is declared with the
kind of the type that it stands for, and both agree because an entry never changes.

* `TypeExpr.BoundIn` says it of a node, `Definition.DeclaredIn` of a declaration, and
  `Module.LinkedIn` of all nodes and declarations of a module;
* `TypeExpr.boundIn_link` is the step, by induction on the type, and `linkedIn_linkAll` the run over
  a list of modules;
* `kind_eq_of_leads` brings both together: a type that leads to a declaration has its kind.
-/

namespace WireStub

/-- What a node leads to is declared with the kind of the node. -/
def TypeExpr.BoundIn (t : SymbolTable) : TypeExpr → Prop
  | .declared r =>
    ∃ target kind, r.target = some target ∧ r.kind = some kind ∧ (target, kind) ∈ t.entries
  | .struct d => (d.path, .struct) ∈ t.entries
  | .enum d => (d.path, .enum) ∈ t.entries
  | .primitive _ | .string | .sequence _ => True

/-- The kind of a declaration.  A typedef for an unlinked type has none. -/
def Definition.kind? : Definition → Option Kind
  | .struct _ => some .struct
  | .enum _ => some .enum
  | .typedef d => d.type.kind?.map d.kindOver

/-- A declaration is known by its path, with its kind. -/
def Definition.DeclaredIn (t : SymbolTable) (d : Definition) : Prop :=
  ∃ k, d.kind? = some k ∧ (d.path, k) ∈ t.entries

/-- All types of a module are bound, and all its definitions are declared. -/
structure Module.LinkedIn (t : SymbolTable) (m : Module) : Prop where
  nodes : ∀ n ∈ m.nodes, n.BoundIn t
  definitions : ∀ d ∈ m.definitions, d.DeclaredIn t

variable {t u : SymbolTable}

theorem TypeExpr.BoundIn.mono {n : TypeExpr} (h : n.BoundIn t) (htu : t ≤ u) : n.BoundIn u := by
  cases n with
  | declared r =>
    obtain ⟨target, kind, ht, hk, hmem⟩ := h
    exact ⟨target, kind, ht, hk, SymbolTable.mem_entries_of_le htu hmem⟩
  | struct d => exact SymbolTable.mem_entries_of_le htu h
  | enum d => exact SymbolTable.mem_entries_of_le htu h
  | primitive | string | sequence => trivial

theorem TypeExpr.BoundIn.exists_kind {n : TypeExpr} {p : ScopedName} (h : n.BoundIn t)
    (hp : n.target? = some p) : ∃ k, n.kind? = some k ∧ (p, k) ∈ t.entries := by
  cases n with
  | declared r =>
    obtain ⟨target, kind, ht, hk, hmem⟩ := h
    obtain rfl : target = p := Option.some.inj (ht.symm.trans hp)
    exact ⟨kind, hk, hmem⟩
  | struct d => exact ⟨.struct, rfl, Option.some.inj hp ▸ h⟩
  | enum d => exact ⟨.enum, rfl, Option.some.inj hp ▸ h⟩
  | primitive | string | sequence => cases hp

theorem Definition.DeclaredIn.mono {d : Definition} (h : d.DeclaredIn t) (htu : t ≤ u) :
    d.DeclaredIn u := by
  obtain ⟨k, hk, hmem⟩ := h
  exact ⟨k, hk, SymbolTable.mem_entries_of_le htu hmem⟩

theorem Module.LinkedIn.mono {m : Module} (h : m.LinkedIn t) (htu : t ≤ u) : m.LinkedIn u where
  nodes n hn := (h.nodes n hn).mono htu
  definitions d hd := (h.definitions d hd).mono htu

/-- A node that declares a type in place is bound to what it declares. -/
theorem TypeExpr.Declares.declaredIn {n : TypeExpr} {d : Definition} (hd : n.Declares d)
    (h : n.BoundIn t) : d.DeclaredIn t := by
  cases hd with
  | struct s => exact ⟨.struct, rfl, h⟩
  | enum s => exact ⟨.enum, rfl, h⟩

/-- All declarations of a linked module are known, those in place too. -/
theorem Module.LinkedIn.declarations {m : Module} (h : m.LinkedIn t) :
    ∀ d ∈ m.declarations, d.DeclaredIn t := by
  intro d hd
  rcases Module.mem_declarations hd with ⟨n, hn, hnd⟩ | ⟨hd, -⟩
  · exact hnd.declaredIn (h.nodes n hn)
  · exact h.definitions d hd

/-! ### Types -/

theorem EnumDecl.boundIn_link {scope : ScopedName} {d : EnumDecl} {b : Unit}
    (h : (d.link scope t).outcome = .ok b) :
    (TypeExpr.enum (d.link scope t).part).BoundIn (d.link scope t).table := by
  obtain ⟨u, hdeclare, hlink⟩ := EnumDecl.link_eq_ok h
  rw [hlink]
  exact SymbolTable.mem_of_declare? hdeclare

mutual

/-- A linked type has the kind that linking found, and all types within it are bound. -/
theorem TypeExpr.boundIn_link (s : Site) (t : SymbolTable) :
    ∀ (e : TypeExpr) (k : Kind), (e.link s t).outcome = .ok k →
      (e.link s t).part.kind? = some k ∧
        ∀ n ∈ (e.link s t).part.nodes, n.BoundIn (e.link s t).table
  | .primitive p, k, h => by
    obtain rfl := Except.ok.inj h
    refine ⟨rfl, fun n hn => ?_⟩
    obtain rfl := List.mem_singleton.1 hn
    trivial
  | .string, k, h => by
    obtain rfl := Except.ok.inj h
    refine ⟨rfl, fun n hn => ?_⟩
    obtain rfl := List.mem_singleton.1 hn
    trivial
  | .declared r, k, h => by
    obtain ⟨target, hlookup, hlink⟩ := Reference.link_eq_ok (s := s) (r := r) h
    rw [TypeExpr.link, hlink]
    refine ⟨rfl, fun n hn => ?_⟩
    obtain rfl := List.mem_singleton.1 hn
    exact ⟨target, k, rfl, rfl, SymbolTable.mem_entries_of_lookup? hlookup⟩
  | .sequence e, k, h => by
    obtain ⟨k', hk', hlink⟩ := TypeExpr.link_sequence_eq_ok h
    rw [hlink] at h ⊢
    obtain rfl := Except.ok.inj h
    obtain ⟨-, hnodes⟩ := TypeExpr.boundIn_link s t e k' hk'
    refine ⟨rfl, fun n hn => ?_⟩
    rcases List.mem_cons.1 hn with rfl | hn
    · trivial
    · exact hnodes n hn
  | .struct d, k, h => by
    obtain ⟨scope, -, hd, hlink⟩ := TypeExpr.link_struct_eq_ok h
    rw [hlink] at h ⊢
    obtain rfl := Except.ok.inj h
    exact ⟨rfl, StructDecl.boundIn_link scope t d () hd⟩
  | .enum d, k, h => by
    obtain ⟨scope, -, hd, hlink⟩ := TypeExpr.link_enum_eq_ok h
    rw [hlink] at h ⊢
    obtain rfl := Except.ok.inj h
    refine ⟨rfl, fun n hn => ?_⟩
    obtain rfl := List.mem_singleton.1 hn
    exact EnumDecl.boundIn_link hd

/-- A struct is declared before its members are linked, and stays declared. -/
theorem StructDecl.boundIn_link (scope : ScopedName) (t : SymbolTable) :
    ∀ (d : StructDecl) (b : Unit), (d.link scope t).outcome = .ok b →
      ∀ n ∈ (TypeExpr.struct (d.link scope t).part).nodes, n.BoundIn (d.link scope t).table
  | ⟨name, path, members⟩, b, h => by
    obtain ⟨u, hdeclare, hmembers, hlink⟩ := StructDecl.link_eq_ok h
    rw [hlink]
    -- the struct is in the table that its members start with
    have hstruct : (scope.child name, .struct) ∈ u.entries := SymbolTable.mem_of_declare? hdeclare
    have hgrow := Member.le_linkAll (scope.child name) u members
    intro n hn
    rcases List.mem_cons.1 hn with rfl | hn
    · exact SymbolTable.mem_entries_of_le hgrow hstruct
    · exact Member.boundIn_linkAll _ u members hmembers n hn

theorem Member.boundIn_linkAll (path : ScopedName) (t : SymbolTable) :
    ∀ ms : List Member, (Member.linkAll path t ms).outcome = .ok () →
      ∀ n ∈ Member.nodes (Member.linkAll path t ms).part, n.BoundIn (Member.linkAll path t ms).table
  | [], _ => fun n hn => absurd hn List.not_mem_nil
  | ⟨name, type, dims⟩ :: ms, h => by
    obtain ⟨k, hk, hms, hlink⟩ := Member.linkAll_cons_eq_ok h
    rw [hlink]
    obtain ⟨-, htype⟩ := TypeExpr.boundIn_link (.member path name) t type k hk
    -- what the first member has bound stays bound while the others are linked
    have hgrow := Member.le_linkAll path (type.link (.member path name) t).table ms
    intro n hn
    rcases List.mem_append.1 hn with hn | hn
    · exact (htype n hn).mono hgrow
    · exact Member.boundIn_linkAll path _ ms hms n hn

end

/-! ### Definitions -/

/-- Nodes that are bound and a declaration that is known: what a definition needs to be linked. -/
def Definition.LinkedIn (t : SymbolTable) (d : Definition) : Prop :=
  (∀ n ∈ d.nodes, n.BoundIn t) ∧ d.DeclaredIn t

theorem Definition.LinkedIn.mono {d : Definition} (h : d.LinkedIn t) (htu : t ≤ u) :
    d.LinkedIn u := ⟨fun n hn => (h.1 n hn).mono htu, h.2.mono htu⟩

/-- A typedef is declared with the kind of the type that it stands for. -/
theorem TypedefDecl.linkedIn_link {scope : ScopedName} {d : TypedefDecl} {b : Unit}
    (h : (d.link scope t).outcome = .ok b) :
    (Definition.typedef (d.link scope t).part).LinkedIn (d.link scope t).table := by
  obtain ⟨k, v, hk, hdeclare, hlink⟩ := TypedefDecl.link_eq_ok h
  rw [hlink]
  obtain ⟨hkind, hnodes⟩ := d.type.boundIn_link (.typedef scope d.name) t k hk
  have hgrow := SymbolTable.le_of_declare? hdeclare
  refine ⟨fun n hn => (hnodes n hn).mono hgrow, d.kindOver k, ?_, ?_⟩
  · -- the recorded kind is the one that linking the type has found
    exact congrArg (Option.map _) hkind
  · exact SymbolTable.mem_of_declare? hdeclare

theorem Definition.linkedIn_link {scope : ScopedName} {d : Definition} {b : Unit}
    (h : (d.link scope t).outcome = .ok b) :
    (d.link scope t).part.LinkedIn (d.link scope t).table := by
  cases d with
  | struct d =>
    have hnodes := d.boundIn_link scope t b h
    exact ⟨hnodes, .struct, rfl, hnodes _ List.mem_cons_self⟩
  | enum d =>
    have hbound : (TypeExpr.enum (d.link scope t).part).BoundIn (d.link scope t).table :=
      EnumDecl.boundIn_link h
    refine ⟨fun n hn => ?_, .enum, rfl, hbound⟩
    obtain rfl := List.mem_singleton.1 hn
    exact hbound
  | typedef d => exact TypedefDecl.linkedIn_link h

/-! ### Interfaces -/

theorem Parameter.boundIn_link {interface : ScopedName} {operation : String} {p : Parameter}
    {k : Kind} (h : (p.link interface operation t).outcome = .ok k) :
    ∀ n ∈ (p.link interface operation t).part.type.nodes,
      n.BoundIn (p.link interface operation t).table :=
  (p.type.boundIn_link (.parameter interface operation p.name) t k h).2

theorem Operation.boundIn_link {interface : ScopedName} {o : Operation} {b : Unit}
    (h : (o.link interface t).outcome = .ok b) :
    ∀ n ∈ (o.link interface t).part.nodes, n.BoundIn (o.link interface t).table := by
  obtain ⟨k, hk, hps, hlink⟩ := Operation.link_eq_ok h
  rw [hlink]
  obtain ⟨-, hreturns⟩ := o.returns.boundIn_link (.returns interface o.name) t k hk
  have hparameters := forall_mem_linkAll
    (p := fun t (p : Parameter) => ∀ n ∈ p.type.nodes, n.BoundIn t)
    (Parameter.le_link interface o.name) (fun _ _ _ hle hp n hn => (hp n hn).mono hle)
    (fun _ _ _ hp => Parameter.boundIn_link hp) hps
  have hgrow := linkAll_le (Parameter.le_link interface o.name)
    (o.returns.link (.returns interface o.name) t).table o.parameters
  intro n hn
  rcases List.mem_append.1 hn with hn | hn
  · exact (hreturns n hn).mono hgrow
  · obtain ⟨p, hp, hn⟩ := List.mem_flatMap.1 hn
    exact hparameters p hp n hn

theorem Interface.boundIn_link {scope : ScopedName} {i : Interface} {b : Unit}
    (h : (i.link scope t).outcome = .ok b) :
    ∀ n ∈ (i.link scope t).part.operations.flatMap (·.nodes), n.BoundIn (i.link scope t).table := by
  obtain ⟨hos, hlink⟩ := Interface.link_eq_ok h
  rw [hlink]
  have hoperations := forall_mem_linkAll
    (p := fun t (o : Operation) => ∀ n ∈ o.nodes, n.BoundIn t)
    (Operation.le_link (scope.child i.name)) (fun _ _ _ hle hp n hn => (hp n hn).mono hle)
    (fun _ _ _ hp => Operation.boundIn_link hp) hos
  intro n hn
  obtain ⟨o, ho, hn⟩ := List.mem_flatMap.1 hn
  exact hoperations o ho n hn

/-! ### Modules -/

theorem Module.linkedIn_link {m : Module} {b : Unit} (h : (m.link t).outcome = .ok b) :
    (m.link t).part.LinkedIn (m.link t).table := by
  obtain ⟨hds, his, hlink⟩ := Module.link_eq_ok h
  rw [hlink]
  have hdefinitions := forall_mem_linkAll (p := Definition.LinkedIn)
    (Definition.le_link (.child .root m.name)) (fun _ _ _ hle hp => hp.mono hle)
    (fun _ _ _ hp => Definition.linkedIn_link hp) hds
  have hinterfaces := forall_mem_linkAll
    (p := fun t (i : Interface) => ∀ n ∈ i.operations.flatMap (·.nodes), n.BoundIn t)
    (Interface.le_link (.child .root m.name)) (fun _ _ _ hle hp n hn => (hp n hn).mono hle)
    (fun _ _ _ hp => Interface.boundIn_link hp) his
  have hgrow := linkAll_le (Interface.le_link (.child .root m.name))
    (linkAll (Definition.link (.child .root m.name)) t m.definitions).table m.interfaces
  refine ⟨fun n hn => ?_, fun d hd => (hdefinitions d hd).2.mono hgrow⟩
  rcases List.mem_append.1 hn with hn | hn
  · obtain ⟨d, hd, hn⟩ := List.mem_flatMap.1 hn
    exact ((hdefinitions d hd).1 n hn).mono hgrow
  · obtain ⟨i, hi, hn⟩ := List.mem_flatMap.1 hn
    exact hinterfaces i hi n hn

/-- All modules of a list that links are linked in the end. -/
theorem linkedIn_linkAll {ms : List Module} (h : (linkAll Module.link t ms).outcome = .ok ()) :
    ∀ m ∈ (linkAll Module.link t ms).part, m.LinkedIn (linkAll Module.link t ms).table :=
  forall_mem_linkAll Module.le_link (fun _ _ _ hle hm => hm.mono hle)
    (fun _ _ _ hm => Module.linkedIn_link hm) h

end WireStub
