import WireStub.Proofs.Dispatch.Table
import WireStub.Proofs.Linking.Paths

/-!
# Rules of generation

C has no empty structs, no values of type `void` and no arrays of size 0, and every request has to
find one handler.  These are the rules that a module keeps to be generated.

* `TypeExpr.OfVoid`: a type without values, `void` or a sequence of such a type;
* `Module.WellFormed` lists the rules, for all types of a module at any depth;
* `Module.Breaks m x`: the fault `x` names a part of the module that breaks a rule;
* `Module.wellFormed_iff`: a module keeps the rules exactly if it has no such part.
-/

namespace WireStub

/-- The path of a declaration within another, as it is written. -/
theorem ScopedName.display_child {p : ScopedName} (h : p.isRoot = false) (s : String) :
    (p.child s).display = p.display ++ "::" ++ s := by
  have hp : p.segments ≠ [] := by simpa [isRoot] using h
  rw [display, segments_child, String.intercalate_append_of_ne_nil hp (by simp)]
  simp [display]

/-- A type without values: `void`, or a sequence of such a type. -/
inductive TypeExpr.OfVoid : TypeExpr → Prop
  | void : OfVoid (.primitive .void)
  | sequence {e : TypeExpr} : OfVoid e → OfVoid (.sequence e)

/-- What a module has to keep to be generated. -/
structure Module.WellFormed (m : Module) : Prop where
  structs : ∀ s, .struct s ∈ m.nodes → s.members ≠ []
  enums : ∀ d, .enum d ∈ m.nodes → d.enumerators ≠ []
  /-- No type of a member is `void`. -/
  members : ∀ s, .struct s ∈ m.nodes → ∀ x ∈ s.members, x.type.isVoid = false
  /-- No typedef stands for `void`. -/
  typedefs : ∀ d, .typedef d ∈ m.definitions → d.type.isVoid = false
  /-- No type of a parameter is `void`. -/
  parameters : ∀ i ∈ m.interfaces, ∀ op ∈ i.operations, ∀ p ∈ op.parameters, p.type.isVoid = false
  /-- No elements of a sequence are `void`. -/
  elements : ∀ e, .sequence e ∈ m.nodes → e.isVoid = false
  memberDims : ∀ s, .struct s ∈ m.nodes → ∀ x ∈ s.members, 0 ∉ x.dims
  typedefDims : ∀ d, .typedef d ∈ m.definitions → 0 ∉ d.dims
  dispatch : ∃ t, DispatchTable.build m = .ok t

/-- A part of a module that breaks a rule, as a fault names it. -/
inductive Module.Breaks (m : Module) : RenderError → Prop
  | voidMember {s : StructDecl} {x : Member} : .struct s ∈ m.nodes → x ∈ s.members →
      x.type.OfVoid → Breaks m (.voidValue (s.path.child x.name).display)
  | voidTypedef {d : TypedefDecl} : .typedef d ∈ m.definitions → d.type.OfVoid →
      Breaks m (.voidValue d.path.display)
  | voidParameter {i : Interface} {op : Operation} {p : Parameter} : i ∈ m.interfaces →
      op ∈ i.operations → p ∈ op.parameters → p.type.OfVoid →
      Breaks m (.voidValue ((i.path.child op.name).child p.name).display)
  /-- An operation may return nothing, but no sequence of nothing. -/
  | voidElement {i : Interface} {op : Operation} {e : TypeExpr} : i ∈ m.interfaces →
      op ∈ i.operations → op.returns = .sequence e → e.OfVoid →
      Breaks m (.voidValue (i.path.child op.name).display)
  | emptyMember {s : StructDecl} {x : Member} {n : Nat} : .struct s ∈ m.nodes → x ∈ s.members →
      x.dims[n]? = some 0 → Breaks m (.emptyDimension (s.path.child x.name).display n)
  | emptyTypedef {d : TypedefDecl} {n : Nat} : .typedef d ∈ m.definitions → d.dims[n]? = some 0 →
      Breaks m (.emptyDimension d.path.display n)
  | emptyStruct {s : StructDecl} : .struct s ∈ m.nodes → s.members = [] →
      Breaks m (.emptyDeclaration s.path.display)
  | emptyEnum {d : EnumDecl} : .enum d ∈ m.nodes → d.enumerators = [] →
      Breaks m (.emptyDeclaration d.path.display)
  /-- An endpoint clashes with those before it or with what is reserved. -/
  | clash {before after : List Endpoint} {e : Endpoint} : m.endpoints = before ++ e :: after →
      ¬DispatchTable.Fits before e →
      Breaks m (.duplicateDispatchCase e.code (e.interface.path.child e.operation.name).display)

/-! ### Types without values -/

namespace TypeExpr

theorem isVoid_eq_true_iff {t : TypeExpr} : t.isVoid = true ↔ t = .primitive .void := by
  unfold isVoid
  split <;> simp_all

theorem isVoid_eq_false {t : TypeExpr} (h : ¬t.OfVoid) : t.isVoid = false := by
  rw [← Bool.not_eq_true, isVoid_eq_true_iff]
  rintro rfl
  exact h .void

/-- Sequences may be nested; the innermost elements decide. -/
theorem not_ofVoid {t : TypeExpr} (ht : t.isVoid = false)
    (helements : ∀ e, .sequence e ∈ t.nodes → e.isVoid = false) : ¬t.OfVoid := by
  intro h
  induction h with
  | void => cases ht
  | @sequence e _ ih =>
    exact ih (helements e List.mem_cons_self) fun e' he' =>
      helements e' (List.mem_cons_of_mem _ he')

/-- Without values but with elements, a type is a sequence. -/
theorem OfVoid.exists_element {t e : TypeExpr} (h : t.OfVoid) (he : .sequence e ∈ t.nodes) :
    ∃ t', t = .sequence t' ∧ t'.OfVoid := by
  cases h with
  | void => cases List.mem_singleton.1 he
  | sequence h => exact ⟨_, rfl, h⟩

end TypeExpr

mutual

/-- A sequence of `void` within a type is part of it, or of a member of a struct within it. -/
theorem TypeExpr.ofVoid_or_of_mem_nodes {e : TypeExpr} (he : e.isVoid = true) :
    ∀ {t : TypeExpr}, .sequence e ∈ t.nodes →
      t.OfVoid ∨ ∃ s x, .struct s ∈ t.nodes ∧ x ∈ s.members ∧ x.type.OfVoid
  | .sequence e', h => by
    rcases List.mem_cons.1 h with h | h
    · cases h
      obtain rfl := TypeExpr.isVoid_eq_true_iff.1 he
      exact .inl (.sequence .void)
    · rcases TypeExpr.ofVoid_or_of_mem_nodes he (t := e') h with h | ⟨s, x, hs, hx⟩
      · exact .inl (.sequence h)
      · exact .inr ⟨s, x, List.mem_cons_of_mem _ hs, hx⟩
  | .struct d, h => .inr (StructDecl.exists_ofVoid_of_mem_nodes he h)
  | .primitive _, h | .declared _, h | .string, h | .enum _, h =>
    nomatch List.mem_singleton.1 h

theorem StructDecl.exists_ofVoid_of_mem_nodes {e : TypeExpr} (he : e.isVoid = true) :
    ∀ {d : StructDecl}, .sequence e ∈ (TypeExpr.struct d).nodes →
      ∃ s x, .struct s ∈ (TypeExpr.struct d).nodes ∧ x ∈ s.members ∧ x.type.OfVoid
  | ⟨name, path, ms⟩, h => by
    rcases List.mem_cons.1 h with h | h
    · cases h
    · rcases Member.exists_ofVoid_of_mem_nodes he h with ⟨x, hx, hvoid⟩ | ⟨s, x, hs, hx⟩
      · exact ⟨⟨name, path, ms⟩, x, List.mem_cons_self, hx, hvoid⟩
      · exact ⟨s, x, List.mem_cons_of_mem _ hs, hx⟩

theorem Member.exists_ofVoid_of_mem_nodes {e : TypeExpr} (he : e.isVoid = true) :
    ∀ {ms : List Member}, .sequence e ∈ Member.nodes ms →
      (∃ x ∈ ms, x.type.OfVoid) ∨
        ∃ s x, .struct s ∈ Member.nodes ms ∧ x ∈ s.members ∧ x.type.OfVoid
  | [], h => nomatch h
  | ⟨name, t, dims⟩ :: ms, h => by
    rw [Member.nodes, List.mem_append] at h
    simp only [Member.nodes, List.mem_append]
    rcases h with h | h
    · rcases TypeExpr.ofVoid_or_of_mem_nodes he h with h | ⟨s, x, hs, hx⟩
      · exact .inl ⟨_, List.mem_cons_self, h⟩
      · exact .inr ⟨s, x, .inl hs, hx⟩
    · rcases Member.exists_ofVoid_of_mem_nodes he h with ⟨x, hx, hvoid⟩ | ⟨s, x, hs, hx⟩
      · exact .inl ⟨x, List.mem_cons_of_mem _ hx, hvoid⟩
      · exact .inr ⟨s, x, .inr hs, hx⟩

end

/-! ### Rules and faults -/

namespace Module

variable {m : Module}

/-- A type that is a part of the module and is not `void` has values. -/
theorem WellFormed.not_ofVoid (h : m.WellFormed) {t : TypeExpr} (ht : t.isVoid = false)
    (hnode : t ∈ m.nodes) : ¬t.OfVoid :=
  TypeExpr.not_ofVoid ht fun e he => h.elements e (mem_nodes_of_mem_nodes hnode he)

theorem member_type_mem_nodes {s : StructDecl} {x : Member} (hs : .struct s ∈ m.nodes)
    (hx : x ∈ s.members) : x.type ∈ m.nodes := by
  obtain ⟨name, path, ms⟩ := s
  exact mem_nodes_of_mem_nodes hs (List.mem_cons_of_mem _ (Member.type_mem_nodes hx))

theorem typedef_type_mem_nodes {d : TypedefDecl} (hd : .typedef d ∈ m.definitions) :
    d.type ∈ m.nodes :=
  List.mem_append_left _ (List.mem_flatMap.2 ⟨_, hd, d.type.mem_nodes_self⟩)

theorem returns_mem_nodes {i : Interface} {op : Operation} (hi : i ∈ m.interfaces)
    (hop : op ∈ i.operations) : op.returns ∈ m.nodes :=
  List.mem_append_right _ (List.mem_flatMap.2 ⟨i, hi, List.mem_flatMap.2 ⟨op, hop,
    List.mem_append_left _ op.returns.mem_nodes_self⟩⟩)

/-- The endpoints of a module with a table fit behind those before them. -/
theorem fits_of_build {t : DispatchTable} (h : DispatchTable.build m = .ok t)
    {before after : List Endpoint} {e : Endpoint} (hsplit : m.endpoints = before ++ e :: after) :
    DispatchTable.Fits before e := by
  obtain ⟨hseparate, -⟩ := DispatchTable.build_eq_ok_iff.1 h
  have hassoc : before ++ e :: after = (before ++ [e]) ++ after := by simp
  rw [hsplit, hassoc] at hseparate
  exact (DispatchTable.separate_append_singleton.1 hseparate.of_append).2

theorem WellFormed.not_breaks (h : m.WellFormed) (x : RenderError) : ¬m.Breaks x := by
  intro hx
  cases hx with
  | voidMember hs hx hvoid =>
    exact h.not_ofVoid (h.members _ hs _ hx) (member_type_mem_nodes hs hx) hvoid
  | voidTypedef hd hvoid => exact h.not_ofVoid (h.typedefs _ hd) (typedef_type_mem_nodes hd) hvoid
  | voidParameter hi hop hp hvoid =>
    exact h.not_ofVoid (h.parameters _ hi _ hop _ hp) (parameter_type_mem_nodes hi hop hp) hvoid
  | @voidElement i op e hi hop hreturns hvoid =>
    have hnode := returns_mem_nodes hi hop
    rw [hreturns] at hnode
    have he : e ∈ m.nodes :=
      mem_nodes_of_mem_nodes hnode (List.mem_cons_of_mem _ e.mem_nodes_self)
    exact h.not_ofVoid (h.elements e hnode) he hvoid
  | emptyMember hs hx hdim => exact h.memberDims _ hs _ hx (List.mem_of_getElem? hdim)
  | emptyTypedef hd hdim => exact h.typedefDims _ hd (List.mem_of_getElem? hdim)
  | emptyStruct hs hmembers => exact h.structs _ hs hmembers
  | emptyEnum hd henumerators => exact h.enums _ hd henumerators
  | clash hsplit hfits =>
    obtain ⟨t, ht⟩ := h.dispatch
    exact hfits (fits_of_build ht hsplit)

/-- A sequence of `void`, wherever it is, belongs to a part of the module that a fault can name. -/
theorem exists_breaks_of_sequence {e : TypeExpr} (he : e.isVoid = true)
    (h : .sequence e ∈ m.nodes) : ∃ x, m.Breaks x := by
  have hpart {t : TypeExpr} (ht : t ∈ m.nodes) (hmem : .sequence e ∈ t.nodes) :
      t.OfVoid ∨ ∃ x, m.Breaks x := by
    rcases TypeExpr.ofVoid_or_of_mem_nodes he hmem with hvoid | ⟨s, y, hs, hy, hvoid⟩
    · exact .inl hvoid
    · exact .inr ⟨_, .voidMember (mem_nodes_of_mem_nodes ht hs) hy hvoid⟩
  rcases List.mem_append.1 h with h | h
  · obtain ⟨d, hd, h⟩ := List.mem_flatMap.1 h
    cases d with
    | struct s =>
      have hs : .struct s ∈ m.nodes :=
        List.mem_append_left _ (List.mem_flatMap.2 ⟨_, hd, List.mem_cons_self⟩)
      rcases hpart hs h with hvoid | hbreaks
      · cases hvoid
      · exact hbreaks
    | enum d => cases List.mem_singleton.1 h
    | typedef d =>
      rcases hpart (typedef_type_mem_nodes hd) h with hvoid | hbreaks
      · exact ⟨_, .voidTypedef hd hvoid⟩
      · exact hbreaks
  · obtain ⟨i, hi, h⟩ := List.mem_flatMap.1 h
    obtain ⟨op, hop, h⟩ := List.mem_flatMap.1 h
    rcases List.mem_append.1 h with h | h
    · rcases hpart (returns_mem_nodes hi hop) h with hvoid | hbreaks
      · obtain ⟨t, ht, hvoid⟩ := hvoid.exists_element h
        exact ⟨_, .voidElement hi hop ht hvoid⟩
      · exact hbreaks
    · obtain ⟨p, hp, h⟩ := List.mem_flatMap.1 h
      rcases hpart (parameter_type_mem_nodes hi hop hp) h with hvoid | hbreaks
      · exact ⟨_, .voidParameter hi hop hp hvoid⟩
      · exact hbreaks

/-- A module keeps the rules exactly if no part of it breaks one. -/
theorem wellFormed_iff : m.WellFormed ↔ ∀ x, ¬m.Breaks x := by
  refine ⟨WellFormed.not_breaks, fun h => ?_⟩
  have hdim {dims : List UInt32} (hzero : 0 ∈ dims) : ∃ n : Nat, dims[n]? = some 0 :=
    List.mem_iff_getElem?.1 hzero
  exact {
    structs := fun s hs hmembers => h _ (.emptyStruct hs hmembers)
    enums := fun d hd henumerators => h _ (.emptyEnum hd henumerators)
    members := fun s hs x hx => TypeExpr.isVoid_eq_false fun hvoid => h _ (.voidMember hs hx hvoid)
    typedefs := fun d hd => TypeExpr.isVoid_eq_false fun hvoid => h _ (.voidTypedef hd hvoid)
    parameters := fun i hi op hop p hp =>
      TypeExpr.isVoid_eq_false fun hvoid => h _ (.voidParameter hi hop hp hvoid)
    elements := fun e he => by
      rw [← Bool.not_eq_true]
      intro hvoid
      obtain ⟨x, hx⟩ := exists_breaks_of_sequence hvoid he
      exact h x hx
    memberDims := fun s hs x hx hzero => by
      obtain ⟨n, hn⟩ := hdim hzero
      exact h _ (.emptyMember hs hx hn)
    typedefDims := fun d hd hzero => by
      obtain ⟨n, hn⟩ := hdim hzero
      exact h _ (.emptyTypedef hd hn)
    dispatch := exists_ok_of_forall fun x hx => by
      obtain ⟨before, e, after, hsplit, hfits, -⟩ := DispatchTable.build_eq_error hx
      exact h _ (.clash hsplit hfits) }

end Module

end WireStub
