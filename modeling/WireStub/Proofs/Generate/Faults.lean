import WireStub.Proofs.Generate.Rules
import WireStub.Proofs.Generate.Units
import WireStub.Proofs.Linking.TypeNames

/-!
# Faults of generation

The units of a module resolve its types over and over, each in its own order.  Whatever unit it is, a
fault names a part of the module that breaks a rule, and a module whose units all succeed keeps every
rule.  So generation of a linked module fails for no other reason.

* `TypeExpr.cType_eq_error` and `TypeExpr.declarator_eq_error`: the faults of a type;
* `Definition.item_eq_error`, `Endpoint.stub_eq_error` and so on: the part that a fault comes from;
* `Module.Located.breaks_of_cType` and its kin: the faults of the parts, and
  `Module.Located.breaks_of_content` those of a unit;
* `Module.Located.not_breaks_of_render`: what the units together have looked at;
* `linked_modules_render` is the main statement.
-/

namespace WireStub

/-! ### Types -/

section Types

variable {context : String} {t : TypeExpr} {x : RenderError}

theorem declarationName_of_path {path : ScopedName} (h : path.isRoot = false) (name : String) :
    declarationName path name = .ok (Identifier.ofScopedName path) :=
  declarationName_eq_ok.2 ⟨h, rfl⟩

/-- A linked reference has a C type. -/
theorem Reference.cType_ne_error {r : Reference} (h : r.isLinked = true) :
    r.cType context ≠ .error x := by
  obtain ⟨name, _ | target, _ | kind⟩ := r
  · cases h
  · cases h
  · cases h
  · exact fun h => nomatch h

namespace TypeExpr

/-- A located type has a C type, unless it is a sequence without values. -/
theorem cType_eq_error : ∀ {t : TypeExpr}, (∀ n ∈ t.nodes, n.Located) →
    t.cType context = .error x → (∃ e, t = .sequence e ∧ e.OfVoid) ∧ x = .voidValue context
  | .primitive _, _, h | .string, _, h => nomatch h
  | .declared r, hlocated, h => absurd h (r.cType_ne_error (hlocated _ List.mem_cons_self))
  | .sequence e, hlocated, h => by
    rw [cType] at h
    split at h
    · rename_i hvoid
      obtain rfl := isVoid_eq_true_iff.1 hvoid
      exact ⟨⟨_, rfl, .void⟩, (Except.error.inj h).symm⟩
    · have helement : ∀ n ∈ e.nodes, n.Located :=
        fun n hn => hlocated n (List.mem_cons_of_mem _ hn)
      obtain ⟨⟨e', rfl, hvoid⟩, hx⟩ := cType_eq_error helement (map_eq_error.1 h)
      exact ⟨⟨_, rfl, .sequence hvoid⟩, hx⟩
  | .struct d, hlocated, h => by
    rw [cType, declarationName_of_path (hlocated _ List.mem_cons_self)] at h
    cases h
  | .enum d, hlocated, h => by
    rw [cType, declarationName_of_path (hlocated _ List.mem_cons_self)] at h
    cases h

theorem valueType_eq_error (hlocated : ∀ n ∈ t.nodes, n.Located)
    (h : t.valueType context = .error x) : t.OfVoid ∧ x = .voidValue context := by
  unfold valueType at h
  split at h
  · rename_i hvoid
    obtain rfl := isVoid_eq_true_iff.1 hvoid
    exact ⟨.void, (Except.error.inj h).symm⟩
  · obtain ⟨⟨e, rfl, hvoid⟩, hx⟩ := cType_eq_error hlocated h
    exact ⟨.sequence hvoid, hx⟩

theorem declarator_eq_error {dims : List UInt32} (hlocated : ∀ n ∈ t.nodes, n.Located)
    (h : t.declarator context dims = .error x) :
    (t.OfVoid ∧ x = .voidValue context) ∨
      ∃ n, dims[n]? = some 0 ∧ x = .emptyDimension context n := by
  rw [declarator, bind_eq_error] at h
  rcases h with h | ⟨c, -, h⟩
  · exact .inl (valueType_eq_error hlocated h)
  · split at h
    · rename_i n hn
      obtain ⟨hlt, hzero, -⟩ := List.findIdx?_eq_some_iff_getElem.1 hn
      refine .inr ⟨n, ?_, (Except.error.inj h).symm⟩
      rw [List.getElem?_eq_getElem hlt, eq_of_beq hzero]
    · cases h

/-- No type without values is accepted as the type of a value. -/
theorem OfVoid.valueType_eq_error (h : t.OfVoid) : t.valueType context = .error (.voidValue context) := by
  induction h with
  | void => rfl
  | @sequence e he ih =>
    -- the element is refused on the way to the C type, if not at once
    unfold valueType at ih ⊢
    rw [cType]
    cases hvoid : e.isVoid with
    | true => rfl
    | false =>
      rw [hvoid] at ih
      exact map_eq_error.2 ih

theorem not_ofVoid_of_valueType {c : CType} (h : t.valueType context = .ok c) : ¬t.OfVoid :=
  fun hvoid => nomatch h.symm.trans hvoid.valueType_eq_error

/-- What a declarator accepts has values, and no dimension is empty. -/
theorem of_declarator {dims : List UInt32} {d : Declarator}
    (h : t.declarator context dims = .ok d) : ¬t.OfVoid ∧ 0 ∉ dims := by
  obtain ⟨htype, hdims, -⟩ := declarator_eq_ok_iff.1 h
  refine ⟨not_ofVoid_of_valueType htype, fun hzero => ?_⟩
  have hpositive := List.findIdx?_eq_none_iff.1 hdims 0 hzero
  exact absurd hpositive (by decide)

end TypeExpr

end Types

/-! ### Faults of declarations and endpoints -/

namespace Definition

variable {d : Definition} {x : RenderError}

/-! The units of a declaration are made of its C type and of the types within it. -/

theorem item_eq_error (h : d.item = .error x) :
    d.cType = .error x ∨ ∃ c, d.codecBody c = .error x := by
  rcases bind_eq_error.1 h with h | ⟨c, -, h⟩
  · exact .inl h
  · refine .inr ⟨c, ?_⟩
    cases d with
    | struct s => exact bind_eq_error.2 (.inl (eq_error_of_bind_ok h))
    | enum e => cases h
    | typedef a => exact bind_eq_error.2 (.inl (eq_error_of_bind_ok h))

theorem codecs_eq_error (h : d.codecs = .error x) :
    d.cType = .error x ∨ ∃ c, d.codecBody c = .error x := by
  rcases bind_eq_error.1 h with h | ⟨c, -, h⟩
  · exact .inl h
  · exact .inr ⟨c, eq_error_of_bind_ok h⟩

theorem codecPrototypes_eq_error (h : d.codecPrototypes = .error x) : d.cType = .error x :=
  eq_error_of_bind_ok h

end Definition

namespace Endpoint

variable {e : Endpoint} {x : RenderError} {o : Options}

/-! The functions of an endpoint are made of its return type and its parameters. -/

theorem cParameters_eq_error (h : e.cParameters = .error x) : e.parameters = .error x :=
  eq_error_of_bind_ok h

theorem serverPrototype_eq_error (h : e.serverPrototype = .error x) :
    e.returnType = .error x ∨ e.parameters = .error x := by
  rcases bind_eq_error.1 (eq_error_of_bind_ok h) with h | ⟨c, -, h⟩
  · exact .inl h
  · exact .inr (cParameters_eq_error (eq_error_of_bind_ok h))

theorem stubSignature_eq_error (h : e.stubSignature o = .error x) :
    e.returnType = .error x ∨ e.parameters = .error x := by
  rcases bind_eq_error.1 h with h | ⟨c, -, h⟩
  · exact .inl h
  · exact .inr (cParameters_eq_error (eq_error_of_bind_ok h))

theorem stubPrototype_eq_error (h : e.stubPrototype o = .error x) :
    e.returnType = .error x ∨ e.parameters = .error x :=
  stubSignature_eq_error (eq_error_of_bind_ok h)

theorem handler_eq_error {status : String} (h : e.handler o status = .error x) :
    e.returnType = .error x ∨ e.parameters = .error x := by
  rcases bind_eq_error.1 h with h | ⟨c, -, h⟩
  · exact .inl h
  · exact .inr (eq_error_of_bind_ok h)

theorem stub_eq_error (h : e.stub o = .error x) :
    e.returnType = .error x ∨ e.parameters = .error x := by
  rcases bind_eq_error.1 h with h | ⟨c, -, h⟩
  · exact .inl h
  rcases bind_eq_error.1 h with h | ⟨ps, -, h⟩
  · exact .inr h
  · exact stubSignature_eq_error (eq_error_of_bind_ok h)

end Endpoint

theorem Definition.context_eq {d : Definition} (h : d.path.isRoot = false) :
    d.context = d.path.display := by simp [context, h]

theorem Endpoint.context_eq {e : Endpoint} (h : e.interface.path.isRoot = false) :
    e.context = (e.interface.path.child e.operation.name).display := by
  simp [context, h, ScopedName.display_child]

namespace Module.Located

variable {m : Module} {x : RenderError} {o : Options}

theorem forall_mem_nodes (hm : m.Located) {t : TypeExpr} (ht : t ∈ m.nodes) :
    ∀ n ∈ t.nodes, n.Located := fun n hn => hm.nodes n (mem_nodes_of_mem_nodes ht hn)

theorem breaks_of_fields (hm : m.Located) {s : StructDecl} (hs : .struct s ∈ m.nodes)
    (h : s.fields (Definition.struct s).context = .error x) : m.Breaks x := by
  obtain ⟨y, hy, hfield⟩ := exists_of_mapM_eq_error h
  have hdeclarator := eq_error_of_bind_ok hfield
  have hroot : s.path.isRoot = false := hm.nodes _ hs
  have hpath : (Definition.struct s).context ++ "::" ++ y.name = (s.path.child y.name).display := by
    rw [Definition.context_eq (d := .struct s) hroot, ScopedName.display_child hroot]
    rfl
  rw [hpath] at hdeclarator
  have hlocated := hm.forall_mem_nodes (member_type_mem_nodes hs hy)
  rcases TypeExpr.declarator_eq_error hlocated hdeclarator with ⟨hvoid, rfl⟩ | ⟨n, hn, rfl⟩
  · exact .voidMember hs hy hvoid
  · exact .emptyMember hs hy hn

theorem breaks_of_declarator (hm : m.Located) {d : TypedefDecl} (hd : .typedef d ∈ m.definitions)
    (h : d.type.declarator (Definition.typedef d).context d.dims = .error x) : m.Breaks x := by
  rw [Definition.context_eq (d := .typedef d) (hm.typedefs d hd)] at h
  have hlocated := hm.forall_mem_nodes (typedef_type_mem_nodes hd)
  rcases TypeExpr.declarator_eq_error hlocated h with ⟨hvoid, rfl⟩ | ⟨n, hn, rfl⟩
  · exact .voidTypedef hd hvoid
  · exact .emptyTypedef hd hn

theorem breaks_of_cType (hm : m.Located) {d : Definition} (hd : d ∈ m.declarations)
    (h : d.cType = .error x) : m.Breaks x := by
  cases d with
  | struct s =>
    have hs := struct_mem_nodes hd
    have hroot : s.path.isRoot = false := hm.nodes _ hs
    rw [Definition.cType, Definition.context_eq (d := .struct s) hroot] at h
    split at h
    · rename_i hmembers
      cases h
      exact .emptyStruct hs (List.isEmpty_iff.1 hmembers)
    · rw [declarationName_of_path hroot] at h
      cases h
  | enum e =>
    have he := enum_mem_nodes hd
    have hroot : e.path.isRoot = false := hm.nodes _ he
    rw [Definition.cType, Definition.context_eq (d := .enum e) hroot] at h
    split at h
    · rename_i henumerators
      cases h
      exact .emptyEnum he (List.isEmpty_iff.1 henumerators)
    · rw [declarationName_of_path hroot] at h
      cases h
  | typedef a =>
    have ha := typedef_mem_definitions hd
    rw [Definition.cType, bind_eq_error] at h
    rcases h with h | ⟨c, -, h⟩
    · exact hm.breaks_of_declarator ha h
    · rw [declarationName_of_path (hm.typedefs a ha)] at h
      cases h

theorem breaks_of_codecBody (hm : m.Located) {d : Definition} (hd : d ∈ m.declarations) {c : CType}
    (h : d.codecBody c = .error x) : m.Breaks x := by
  cases d with
  | struct s => exact hm.breaks_of_fields (struct_mem_nodes hd) (eq_error_of_bind_ok h)
  | enum e => cases h
  | typedef a => exact hm.breaks_of_declarator (typedef_mem_definitions hd) (eq_error_of_bind_ok h)

theorem breaks_of_returnType (hm : m.Located) {e : Endpoint} (he : e ∈ m.endpoints)
    (h : e.returnType = .error x) : m.Breaks x := by
  obtain ⟨hi, hop, -⟩ := mem_endpoints.1 he
  rw [Endpoint.returnType, Endpoint.context_eq (hm.interfaces _ hi)] at h
  obtain ⟨⟨t, hreturns, hvoid⟩, rfl⟩ :=
    TypeExpr.cType_eq_error (hm.forall_mem_nodes (returns_mem_nodes hi hop)) h
  exact .voidElement hi hop hreturns hvoid

theorem breaks_of_parameters (hm : m.Located) {e : Endpoint} (he : e ∈ m.endpoints)
    (h : e.parameters = .error x) : m.Breaks x := by
  obtain ⟨hi, hop, -⟩ := mem_endpoints.1 he
  obtain ⟨p, hp, h⟩ := exists_of_mapM_eq_error h
  have htype := eq_error_of_bind_ok h
  rw [Endpoint.context_eq (hm.interfaces _ hi),
    ← ScopedName.display_child (ScopedName.isRoot_child _ _)] at htype
  have hlocated := hm.forall_mem_nodes (parameter_type_mem_nodes hi hop hp)
  obtain ⟨hvoid, rfl⟩ := TypeExpr.valueType_eq_error hlocated htype
  exact .voidParameter hi hop hp hvoid

end Module.Located

/-! ### Faults of units -/

theorem CUnit.prototypes_eq_error {m : Module} {f : Endpoint → Except RenderError Prototype}
    {x : RenderError} (h : prototypes m f = .error x) : ∃ e ∈ m.endpoints, f e = .error x := by
  obtain ⟨i, hi, h⟩ := exists_of_mapM_eq_error (eq_error_of_bind_ok h)
  obtain ⟨e, he, h⟩ := exists_of_mapM_eq_error (eq_error_of_bind_ok h)
  exact ⟨e, List.mem_flatMap.2 ⟨i, hi, he⟩, h⟩

namespace Module.Located

variable {m : Module} {x : RenderError} {o : Options}

/-- A fault of a unit names a part of the module that breaks a rule. -/
theorem breaks_of_content (hm : m.Located) {u : CUnit} (h : u.content o m = .error x) :
    m.Breaks x := by
  have hdefinition {d : Definition} (hd : d ∈ m.declarations)
      (h : d.cType = .error x ∨ ∃ c, d.codecBody c = .error x) : m.Breaks x :=
    h.elim (hm.breaks_of_cType hd) fun ⟨_, h⟩ => hm.breaks_of_codecBody hd h
  have hendpoint {e : Endpoint} (he : e ∈ m.endpoints)
      (h : e.returnType = .error x ∨ e.parameters = .error x) : m.Breaks x :=
    h.elim (hm.breaks_of_returnType he) (hm.breaks_of_parameters he)
  cases u with
  | declarations =>
    rcases bind_eq_error.1 h with h | ⟨types, -, h⟩
    · obtain ⟨d, hd, h⟩ := exists_of_mapM_eq_error h
      exact hdefinition hd (Definition.item_eq_error h)
    · obtain ⟨e, he, h⟩ := CUnit.prototypes_eq_error (eq_error_of_bind_ok h)
      exact hendpoint he (Endpoint.serverPrototype_eq_error h)
  | dispatchHeader => cases h
  | dispatchSource =>
    rcases bind_eq_error.1 h with h | ⟨table, -, h⟩
    · obtain ⟨before, e, after, hsplit, hfits, rfl⟩ := DispatchTable.build_eq_error h
      have he : e ∈ m.endpoints := hsplit ▸ List.mem_append_right _ List.mem_cons_self
      rw [Endpoint.context_eq (hm.interfaces _ (mem_endpoints.1 he).1)]
      exact .clash hsplit hfits
    rcases bind_eq_error.1 h with h | ⟨ps, -, h⟩
    · -- prototypes of handlers do not mention any type of the schema
      obtain ⟨e, -, h⟩ := CUnit.prototypes_eq_error h
      cases h
    · obtain ⟨e, he, h⟩ := exists_of_mapM_eq_error (eq_error_of_bind_ok h)
      exact hendpoint he (Endpoint.handler_eq_error h)
  | stubHeader =>
    obtain ⟨e, he, h⟩ := CUnit.prototypes_eq_error (eq_error_of_bind_ok h)
    exact hendpoint he (Endpoint.stubPrototype_eq_error h)
  | stubSource =>
    obtain ⟨e, he, h⟩ := exists_of_mapM_eq_error (eq_error_of_bind_ok h)
    exact hendpoint he (Endpoint.stub_eq_error h)
  | codecHeader =>
    obtain ⟨d, hd, h⟩ := exists_of_mapM_eq_error (eq_error_of_bind_ok h)
    exact hm.breaks_of_cType hd (Definition.codecPrototypes_eq_error h)
  | codecSource =>
    obtain ⟨d, hd, h⟩ := exists_of_mapM_eq_error (eq_error_of_bind_ok h)
    exact hdefinition hd (Definition.codecs_eq_error h)

theorem breaks_of_render (hm : m.Located) (h : m.render o = .error x) : m.Breaks x := by
  obtain ⟨u, -, h⟩ := exists_of_mapM_eq_error h
  have htext := eq_error_of_bind_ok h
  have hitems := eq_error_of_bind_ok htext
  exact hm.breaks_of_content (eq_error_of_bind_ok hitems)

end Module.Located

/-! ### Success -/

theorem Definition.of_item_struct {s : StructDecl} {i : Item} (h : (struct s).item = .ok i) :
    s.members ≠ [] ∧ ∀ x ∈ s.members, ¬x.type.OfVoid ∧ 0 ∉ x.dims := by
  obtain ⟨c, hc, h⟩ := bind_eq_ok.1 h
  obtain ⟨fs, hfs, -⟩ := bind_eq_ok.1 h
  refine ⟨fun hmembers => ?_, fun x hx => ?_⟩
  · rw [cType, hmembers] at hc
    cases hc
  · obtain ⟨f, hf⟩ := exists_ok_of_mapM hfs hx
    obtain ⟨d, hd, -⟩ := bind_eq_ok.1 hf
    exact TypeExpr.of_declarator hd

theorem Definition.of_item_enum {e : EnumDecl} {i : Item} (h : (enum e).item = .ok i) :
    e.enumerators ≠ [] := by
  obtain ⟨c, hc, -⟩ := bind_eq_ok.1 h
  intro henumerators
  rw [cType, henumerators] at hc
  cases hc

theorem Definition.of_item_typedef {t : TypedefDecl} {i : Item} (h : (typedef t).item = .ok i) :
    ¬t.type.OfVoid ∧ 0 ∉ t.dims := by
  obtain ⟨c, -, h⟩ := bind_eq_ok.1 h
  obtain ⟨d, hd, -⟩ := bind_eq_ok.1 h
  exact TypeExpr.of_declarator hd

theorem Endpoint.of_handler {e : Endpoint} {o : Options} {status : String} {f : Function}
    (h : e.handler o status = .ok f) :
    (∀ t, e.operation.returns = .sequence t → ¬t.OfVoid) ∧
      ∀ p ∈ e.operation.parameters, ¬p.type.OfVoid := by
  obtain ⟨c, ps, hc, hps, -⟩ := handler_eq_ok h
  refine ⟨fun t ht => ?_, fun p hp => ?_⟩
  · rw [returnType, ht] at hc
    -- the sequence has values, since it is not void itself
    have hvalue : (TypeExpr.sequence t).valueType e.context = .ok c := hc
    exact fun hvoid => TypeExpr.not_ofVoid_of_valueType hvalue (.sequence hvoid)
  · obtain ⟨w, hw⟩ := exists_ok_of_mapM hps hp
    obtain ⟨c, hc, -⟩ := bind_eq_ok.1 hw
    exact TypeExpr.not_ofVoid_of_valueType hc

/-- Every operation has a role. -/
theorem Interface.exists_role (i : Interface) (o : Operation) : ∃ r, r ∈ i.rolesOf o := by
  unfold rolesOf
  cases hi : i.isAttributes with
  | false => exact ⟨.plain, by simp⟩
  | true =>
    cases ho : o.hasGetter with
    | true => exact ⟨.getter, by simp⟩
    | false => exact ⟨.setter, by simp [Operation.hasSetter, ho]⟩

namespace Module

variable {m : Module} {o : Options} {fs : List GeneratedFile}

/-- When a module is generated, so is the content of each unit. -/
theorem exists_content_of_render (h : m.render o = .ok fs) (u : CUnit) :
    ∃ items, u.content o m = .ok items := by
  obtain ⟨items, hitems, -⟩ := exists_items_of_render h u
  obtain ⟨content, hcontent, -⟩ := bind_eq_ok.1 hitems
  exact ⟨content, hcontent⟩

theorem exists_item_of_render (h : m.render o = .ok fs) {d : Definition} (hd : d ∈ m.declarations) :
    ∃ i, d.item = .ok i := by
  obtain ⟨items, hitems⟩ := exists_content_of_render h .declarations
  obtain ⟨types, htypes, -⟩ := bind_eq_ok.1 hitems
  exact exists_ok_of_mapM htypes hd

/-- When a module is generated, it has a dispatch table and a handler for every endpoint. -/
theorem exists_handler_of_render (h : m.render o = .ok fs) :
    (∃ t, DispatchTable.build m = .ok t) ∧
      ∀ e ∈ m.endpoints, ∃ f, e.handler o (o.statusType m.name) = .ok f := by
  obtain ⟨items, hitems⟩ := exists_content_of_render h .dispatchSource
  obtain ⟨t, ht, hitems⟩ := bind_eq_ok.1 hitems
  obtain ⟨ps, -, hitems⟩ := bind_eq_ok.1 hitems
  obtain ⟨hs, hhs, -⟩ := bind_eq_ok.1 hitems
  exact ⟨⟨t, ht⟩, fun e he => exists_ok_of_mapM hhs he⟩

/-- The units of a module are named after it. -/
theorem map_name_of_render (h : m.render o = .ok fs) :
    fs.map (·.name) = CUnit.all.map (·.fileName m.name) := by
  have hnames {us : List CUnit} {files : List GeneratedFile}
      (h : List.Forall₂ (fun u file =>
        (do .ok ⟨u.fileName m.name, ← u.render o m⟩ : Except RenderError GeneratedFile) = .ok file)
          us files) : files.map (·.name) = us.map (·.fileName m.name) := by
    induction h with
    | nil => rfl
    | cons hfile _ ih =>
      obtain ⟨text, -, hfile⟩ := bind_eq_ok.1 hfile
      cases hfile
      rw [List.map_cons, List.map_cons, ih]
  exact hnames (mapM_eq_ok_iff.1 h)

/-- No part of a module that is generated breaks a rule: every part is looked at for some unit. -/
theorem Located.not_breaks_of_render (hm : m.Located) (h : m.render o = .ok fs) (x : RenderError) :
    ¬m.Breaks x := by
  obtain ⟨⟨t, ht⟩, hhandlers⟩ := exists_handler_of_render h
  have hstruct {s : StructDecl} (hs : .struct s ∈ m.nodes) :
      s.members ≠ [] ∧ ∀ x ∈ s.members, ¬x.type.OfVoid ∧ 0 ∉ x.dims := by
    obtain ⟨i, hi⟩ :=
      exists_item_of_render h (mem_declarations_of_mem_nodes hm.operations hs (.struct s))
    exact Definition.of_item_struct hi
  have htypedef {d : TypedefDecl} (hd : .typedef d ∈ m.definitions) :
      ¬d.type.OfVoid ∧ 0 ∉ d.dims := by
    obtain ⟨i, hi⟩ := exists_item_of_render h (mem_declarations_of_typedef hd)
    exact Definition.of_item_typedef hi
  have hoperation {i : Interface} (hi : i ∈ m.interfaces) {op : Operation}
      (hop : op ∈ i.operations) :
      (∀ t, op.returns = .sequence t → ¬t.OfVoid) ∧ ∀ p ∈ op.parameters, ¬p.type.OfVoid := by
    obtain ⟨r, hr⟩ := i.exists_role op
    obtain ⟨f, hf⟩ := hhandlers ⟨i, op, r⟩ (mem_endpoints.2 ⟨hi, hop, hr⟩)
    exact Endpoint.of_handler hf
  intro hx
  cases hx with
  | voidMember hs hx hvoid => exact ((hstruct hs).2 _ hx).1 hvoid
  | voidTypedef hd hvoid => exact (htypedef hd).1 hvoid
  | voidParameter hi hop hp hvoid => exact (hoperation hi hop).2 _ hp hvoid
  | voidElement hi hop hreturns hvoid => exact (hoperation hi hop).1 _ hreturns hvoid
  | emptyMember hs hx hdim => exact ((hstruct hs).2 _ hx).2 (List.mem_of_getElem? hdim)
  | emptyTypedef hd hdim => exact (htypedef hd).2 (List.mem_of_getElem? hdim)
  | emptyStruct hs hmembers => exact (hstruct hs).1 hmembers
  | @emptyEnum d hd henumerators =>
    obtain ⟨i, hi⟩ :=
      exists_item_of_render h (mem_declarations_of_mem_nodes hm.operations hd (.enum d))
    exact Definition.of_item_enum hi henumerators
  | clash hsplit hfits => exact hfits (fits_of_build ht hsplit)

end Module

/-- **Generation fails by its rules only.**  A module of a list that links becomes all seven units
exactly if it keeps the rules of generation, under any options.  Any fault names a part of the module
that breaks a rule; that a reference or a declaration is not linked is never the reason. -/
theorem linked_modules_render {t u : SymbolTable} {ms linked : List Module}
    (h : linkAll Module.link t ms = ⟨linked, u, .ok ()⟩) :
    ∀ m ∈ linked, ∀ o : Options,
      ((∃ fs, m.render o = .ok fs ∧ fs.map (·.name) = CUnit.all.map (·.fileName m.name)) ↔
        m.WellFormed) ∧
      ∀ x, m.render o = .error x → m.Breaks x ∧
        (∀ name context, x ≠ .unlinkedReference name context) ∧
        ∀ context, x ≠ .unscopedDeclaration context := by
  intro m hm o
  have hlocated := located_linkAll h m hm
  refine ⟨⟨?_, fun hwell => ?_⟩, fun x hx => ?_⟩
  · rintro ⟨fs, hfs, -⟩
    exact Module.wellFormed_iff.2 (hlocated.not_breaks_of_render hfs)
  · obtain ⟨fs, hfs⟩ := exists_ok_of_forall fun x hx =>
      hwell.not_breaks x (hlocated.breaks_of_render hx)
    exact ⟨fs, hfs, Module.map_name_of_render hfs⟩
  · have hbreaks := hlocated.breaks_of_render hx
    refine ⟨hbreaks, ?_, ?_⟩
    · rintro name context rfl
      cases hbreaks
    · rintro context rfl
      cases hbreaks

/-- A plant with a tank, and a store whose bin keeps nothing. -/
def tankModules : List Module :=
  let tank : StructDecl := ⟨"Tank", .root, [⟨"levels", .primitive .float, [4]⟩]⟩
  let bin : StructDecl := ⟨"Bin", .root,
    [⟨"label", .string, []⟩, ⟨"items", .sequence (.sequence .void), []⟩]⟩
  let fill : Operation := ⟨"fill", .void, [⟨"tank", .declared (.unlinked "Tank"), .inout⟩], []⟩
  [⟨"Plant", [.struct tank], [⟨"Filling", .root, [fill]⟩]⟩, ⟨"Store", [.struct bin], []⟩]

theorem linked_modules_render_tank :
    ∃ plant store u, linkAll Module.link .empty tankModules = ⟨[plant, store], u, .ok ()⟩ ∧
      plant.WellFormed ∧
      (∀ o : Options, ∃ fs, plant.render o = .ok fs ∧ fs.map (·.name) =
        ["Plant.h", "Plant_unmarshal.h", "Plant_unmarshal.c", "Plant_stub.h", "Plant_stub.c",
          "Plant_type.h", "Plant_type.c"]) ∧
      ∀ o : Options, store.render o = .error (.voidValue "Store::Bin::items") ∧
        store.Breaks (.voidValue "Store::Bin::items") := by
  have h : linkAll Module.link .empty tankModules = ⟨[_, _], _, .ok ()⟩ := rfl
  have hplant := linked_modules_render h _ List.mem_cons_self
  have hstore := linked_modules_render h _ (List.mem_cons_of_mem _ List.mem_cons_self)
  have hwell := (hplant {}).1.1 ⟨_, rfl, rfl⟩
  refine ⟨_, _, _, h, hwell, fun o => ?_, fun o => ⟨rfl, ((hstore o).2 _ rfl).1⟩⟩
  obtain ⟨fs, hfs, hnames⟩ := (hplant o).1.2 hwell
  exact ⟨fs, hfs, hnames⟩

end WireStub
