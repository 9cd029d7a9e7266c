import WireStub.Proofs.Linking.Visiting
import WireStub.Proofs.Order

/-!
# Kinds behind names

Linking records the kind of every reference when it visits it and never computes it again.  The kind
is the one at which the declarations end, however long the chain of typedefs in between.

* `TypeExpr.Follows ds n k` says that following the declarations `ds` from the type `n` ends at the
  kind `k`;
* `TypedefDecl.RefersTo` leads from a typedef to those that its type refers to, and
  `not_transGen_refersTo` says that it has no cycles: a typedef is declared behind its type;
* `DeclarationsOf.kind?_eq_of_follows` and `DeclarationsOf.exists_follows_declared` bring following
  and linking together;
* `TypeExpr.LinksTo` is what linking made of a type;
* `kinds_follow_declarations` is the main statement.
-/

namespace WireStub

/-- Following declarations from a type ends at a kind. -/
inductive TypeExpr.Follows (ds : List Definition) : TypeExpr → Kind → Prop
  | primitive (p : Primitive) : Follows ds (.primitive p) .scalar
  | string : Follows ds .string .string
  | sequence (e : TypeExpr) : Follows ds (.sequence e) .sequence
  | struct (d : StructDecl) : Follows ds (.struct d) .struct
  | enum (d : EnumDecl) : Follows ds (.enum d) .enum
  /-- A reference to a struct. -/
  | toStruct {r : Reference} {d : StructDecl} :
      r.target = some d.path → .struct d ∈ ds → Follows ds (.declared r) .struct
  /-- A reference to an enum. -/
  | toEnum {r : Reference} {d : EnumDecl} :
      r.target = some d.path → .enum d ∈ ds → Follows ds (.declared r) .enum
  /-- A reference to a typedef with dimensions. -/
  | toArray {r : Reference} {d : TypedefDecl} :
      r.target = some d.path → .typedef d ∈ ds → d.dims ≠ [] → Follows ds (.declared r) .array
  /-- A reference to a typedef without dimensions is followed to the type that it stands for. -/
  | toAlias {r : Reference} {d : TypedefDecl} {k : Kind} :
      r.target = some d.path → .typedef d ∈ ds → d.dims = [] → Follows ds d.type k →
        Follows ds (.declared r) k

/-- The type of a typedef holds a reference to another typedef. -/
def TypedefDecl.RefersTo (ds : List Definition) (a b : TypedefDecl) : Prop :=
  .typedef a ∈ ds ∧ .typedef b ∈ ds ∧ ∃ r ∈ a.type.references, r.target = some b.path

theorem TypedefDecl.kindOver_of_nil {d : TypedefDecl} (h : d.dims = []) (k : Kind) :
    d.kindOver k = k := by simp [kindOver, h]

theorem TypedefDecl.kindOver_of_ne_nil {d : TypedefDecl} (h : d.dims ≠ []) (k : Kind) :
    d.kindOver k = .array := by simp [kindOver, h]

/-! ### Declarations and their table -/

/-- The declarations behind a table: all are linked, each name of the table has one, and what a
typedef refers to has been declared before it. -/
structure DeclarationsOf (u : SymbolTable) (ds : List Definition) : Prop where
  linked : ∀ d ∈ ds, d.LinkedIn u
  exists_of_name : ∀ p ∈ u.names, ∃ d ∈ ds, d.path = p
  idxOf_lt : ∀ a, .typedef a ∈ ds → ∀ r ∈ a.type.references, ∀ p, r.target = some p →
    u.names.idxOf p < u.names.idxOf a.path

theorem Module.LinkedIn.declaration_linkedIn {u : SymbolTable} {m : Module} (h : m.LinkedIn u) :
    ∀ d ∈ m.declarations, d.LinkedIn u := by
  intro d hd
  refine ⟨fun x hx => h.nodes x ?_, h.declarations d hd⟩
  rcases Module.mem_declarations hd with ⟨n, hn, hnd⟩ | ⟨hd, -⟩
  · refine Module.mem_nodes_of_mem_nodes hn ?_
    cases hnd with
    | struct d => exact hx
    | enum d => exact hx
  · exact List.mem_append_left _ (List.mem_flatMap.2 ⟨d, hd, hx⟩)

/-- A typedef is declared behind its type, so the references of the type are bound before. -/
theorem TypedefDecl.idxOf_lt_of_run {t u : SymbolTable} {scope : ScopedName} {a : TypedefDecl}
    (h : Occurrence.Run t ((Definition.typedef a).occurrences scope) u) {r : Reference}
    (hr : r ∈ a.type.references) {p : ScopedName} (hp : r.target = some p) {v : SymbolTable}
    (huv : u ≤ v) : v.names.idxOf p < v.names.idxOf a.path := by
  obtain ⟨w, hw, hrest⟩ := Occurrence.run_append_iff.1 h
  obtain _ | ⟨hact, hnil⟩ := hrest
  obtain ⟨-, -, hdeclare⟩ := hact
  cases hnil
  rw [← a.type.filterMap_reference?_occurrences scope] at hr
  obtain ⟨x, hx, hxr⟩ := List.mem_filterMap.1 hr
  have hbound : (TypeExpr.declared r).BoundIn w := by
    cases x with
    | declares s d => cases hxr
    | refers s q =>
      cases hxr
      exact hw.boundIn hx
  obtain ⟨target, k, htarget, -, hmem⟩ := hbound
  obtain rfl : target = p := Option.some.inj (htarget.symm.trans hp)
  obtain ⟨rest, hrest⟩ := huv
  have hnames : v.names = w.names ++ a.path :: rest.map (·.1) := by
    rw [SymbolTable.names, ← hrest, List.map_append, SymbolTable.entries_of_declare? hdeclare,
      List.map_append, List.append_assoc]
    rfl
  rw [hnames]
  exact idxOf_lt_idxOf (List.mem_map_of_mem hmem) (SymbolTable.not_mem_names_of_declare? hdeclare)

/-- The declarations of modules that link are those of the table. -/
theorem declarationsOf_linkAll {ms linked : List Module} {u : SymbolTable}
    (h : linkAll Module.link .empty ms = ⟨linked, u, .ok ()⟩) :
    DeclarationsOf u (linked.flatMap (·.declarations)) := by
  have hok := congrArg Linked.outcome h
  have hlinked := linkedIn_linkAll hok
  have hoperations := forall_mem_linkAll (p := fun _ m => Module.OperationsDeclareNothing m)
    Module.le_link (fun _ _ _ _ hm => hm) (fun _ _ _ hm => Module.operationsDeclareNothing_link hm) hok
  rw [h] at hlinked hoperations
  have hrun := run_link_modules h
  refine ⟨fun d hd => ?_, fun p hp => ?_, fun a ha r hr p hp => ?_⟩
  · obtain ⟨m, hm, hd⟩ := List.mem_flatMap.1 hd
    exact (hlinked m hm).declaration_linkedIn d hd
  · obtain ⟨⟨q, k⟩, hq, rfl⟩ := List.mem_map.1 hp
    rw [hrun.entries_eq] at hq
    obtain ⟨x, hx, hentry⟩ := List.mem_filterMap.1 hq
    obtain ⟨m, hm, hx⟩ := List.mem_flatMap.1 hx
    cases x with
    | refers s r => cases hentry
    | declares s d =>
      obtain ⟨k', -, hpath⟩ := Option.map_eq_some_iff.1 hentry
      exact ⟨d, List.mem_flatMap.2
        ⟨m, hm, Module.mem_declarations_of_occurs (hoperations m hm) hx⟩, congrArg Prod.fst hpath⟩
  · obtain ⟨m, hm, ha⟩ := List.mem_flatMap.1 ha
    have hdefinition : .typedef a ∈ m.definitions := by
      rcases Module.mem_declarations ha with ⟨n, -, hn⟩ | ⟨ha, -⟩
      · cases hn
      · exact ha
    -- the typedef stands as a whole within the run
    have hinfix : (Definition.typedef a).occurrences (.child .root m.name) <:+:
        linked.flatMap (·.occurrences) :=
      ((List.infix_of_mem_flatten (List.mem_map_of_mem hdefinition)).trans
        (List.prefix_append _ _).isInfix).trans
          (List.infix_of_mem_flatten (List.mem_map_of_mem hm))
    obtain ⟨t, v, hpart, hv⟩ := hrun.of_infix hinfix
    exact TypedefDecl.idxOf_lt_of_run hpart hr hp hv

/-- Following ends at once, except from a reference. -/
theorem TypeExpr.exists_follows_of_declared (ds : List Definition) (n : TypeExpr)
    (h : ∀ r, n = .declared r → ∃ k, (TypeExpr.declared r).Follows ds k) :
    ∃ k, n.Follows ds k := by
  cases n with
  | declared r => exact h r rfl
  | primitive p => exact ⟨_, .primitive p⟩
  | string => exact ⟨_, .string⟩
  | sequence e => exact ⟨_, .sequence e⟩
  | struct d => exact ⟨_, .struct d⟩
  | enum d => exact ⟨_, .enum d⟩

namespace DeclarationsOf

variable {u : SymbolTable} {ds : List Definition}

/-- Typedefs do not refer to one another in a circle. -/
theorem not_transGen_refersTo (h : DeclarationsOf u ds) (a : TypedefDecl) :
    ¬Relation.TransGen (TypedefDecl.RefersTo ds) a a := by
  refine acyclic_of_rank (fun a => u.names.idxOf a.path) ?_ a
  rintro a b ⟨ha, -, r, hr, hb⟩
  exact h.idxOf_lt a ha r hr b.path hb

/-- A reference has the kind of its declaration. -/
theorem kind_eq (h : DeclarationsOf u ds) {r : Reference} (hr : (TypeExpr.declared r).BoundIn u)
    {d : Definition} (hd : d ∈ ds) (htarget : r.target = some d.path) : r.kind = d.kind? := by
  obtain ⟨p, k, hp, hk, hmem⟩ := hr
  obtain rfl : p = d.path := Option.some.inj (hp.symm.trans htarget)
  obtain ⟨k', hk', hmem'⟩ := (h.linked d hd).2
  rw [hk, hk', SymbolTable.kind_eq hmem hmem']

/-- The type of a typedef is bound. -/
theorem boundIn_type (h : DeclarationsOf u ds) {a : TypedefDecl} (ha : .typedef a ∈ ds) :
    a.type.BoundIn u := (h.linked _ ha).1 _ a.type.mem_nodes_self

/-- What following ends at is the kind that linking has found. -/
theorem kind?_eq_of_follows (h : DeclarationsOf u ds) {n : TypeExpr} {k : Kind}
    (hk : n.Follows ds k) (hn : n.BoundIn u) : n.kind? = some k := by
  induction hk with
  | primitive | string | sequence | struct | enum => rfl
  | toStruct htarget hd => exact h.kind_eq hn hd htarget
  | toEnum htarget hd => exact h.kind_eq hn hd htarget
  | toArray htarget hd hdims =>
    refine (h.kind_eq hn hd htarget).trans ?_
    obtain ⟨k, hk, -⟩ := (h.linked _ hd).2
    obtain ⟨k', -, rfl⟩ := Option.map_eq_some_iff.1 hk
    rw [hk, TypedefDecl.kindOver_of_ne_nil hdims]
  | @toAlias r d k htarget hd hdims _ ih =>
    calc r.kind = d.type.kind?.map d.kindOver := h.kind_eq hn hd htarget
      _ = some (d.kindOver k) := by rw [ih (h.boundIn_type hd), Option.map_some]
      _ = some k := by rw [TypedefDecl.kindOver_of_nil hdims]

/-- Following ends, from every reference. -/
theorem exists_follows_declared (h : DeclarationsOf u ds) {r : Reference}
    (hr : (TypeExpr.declared r).BoundIn u) : ∃ k, (TypeExpr.declared r).Follows ds k := by
  obtain ⟨p, k, hp, -, hmem⟩ := hr
  -- by induction on the place of the target in the table
  induction hi : u.names.idxOf p using Nat.strongRecOn generalizing p r k with
  | _ i ih =>
    obtain ⟨d, hd, rfl⟩ := h.exists_of_name p (List.mem_map_of_mem hmem)
    cases d with
    | struct s => exact ⟨_, .toStruct hp hd⟩
    | enum e => exact ⟨_, .toEnum hp hd⟩
    | typedef a =>
      by_cases hdims : a.dims = []
      · obtain ⟨k, hk⟩ := a.type.exists_follows_of_declared ds fun q hq => by
          have hbound := h.boundIn_type hd
          rw [hq] at hbound
          obtain ⟨p', k', hp', -, hmem'⟩ := hbound
          have hlt := h.idxOf_lt a hd q (by simp [hq, TypeExpr.references]) p' hp'
          exact ih _ (hi ▸ hlt) p' k' hp' hmem' rfl
        exact ⟨k, .toAlias hp hd hdims hk⟩
      · exact ⟨_, .toArray hp hd hdims⟩

/-- A bound type has the one kind that following ends at. -/
theorem exists_kind (h : DeclarationsOf u ds) {n : TypeExpr} (hn : n.BoundIn u) :
    ∃ k, n.kind? = some k ∧ ∀ k', n.Follows ds k' ↔ k' = k := by
  obtain ⟨k, hk⟩ := n.exists_follows_of_declared ds fun r hr =>
    h.exists_follows_declared (hr ▸ hn)
  have hkind := h.kind?_eq_of_follows hk hn
  refine ⟨k, hkind, fun k' => ⟨fun hk' => ?_, fun hk' => hk' ▸ hk⟩⟩
  exact Option.some.inj ((h.kind?_eq_of_follows hk' hn).symm.trans hkind)

end DeclarationsOf

/-! ### What linking returns -/

/-- Linking the type `e` has made `n` of it, before it reached the table `u`. -/
def TypeExpr.LinksTo (u : SymbolTable) (e n : TypeExpr) : Prop :=
  ∃ s t v k, e.link s t = ⟨n, v, .ok k⟩ ∧ v ≤ u

section Links

variable {t u v : SymbolTable}

theorem TypeExpr.LinksTo.mono {e n : TypeExpr} (h : e.LinksTo u n) (huv : u ≤ v) :
    e.LinksTo v n := by
  obtain ⟨s, t, w, k, hlink, hw⟩ := h
  exact ⟨s, t, w, k, hlink, hw.trans huv⟩

/-- Types that stand for the same place before and behind linking. -/
abbrev NodesLink (u : SymbolTable) : List TypeExpr → List TypeExpr → Prop :=
  List.Forall₂ (TypeExpr.LinksTo u)

theorem NodesLink.mono {es ns : List TypeExpr} (h : NodesLink u es ns) (huv : u ≤ v) :
    NodesLink v es ns := h.imp fun _ _ hen => hen.mono huv

theorem TypeExpr.linksTo_link {s : Site} {e : TypeExpr} {k : Kind}
    (h : (e.link s t).outcome = .ok k) : e.LinksTo (e.link s t).table (e.link s t).part :=
  ⟨s, t, _, k, by rw [← h], le_refl _⟩

/-- A linked type has the kind that linking returns. -/
theorem TypeExpr.kind?_eq_of_link {s : Site} {e n : TypeExpr} {k : Kind}
    (h : e.link s t = ⟨n, v, .ok k⟩) : n.kind? = some k := by
  have hkind := (e.boundIn_link s t k (congrArg Linked.outcome h)).1
  rwa [h] at hkind

/-- A struct links as it would where it is used. -/
theorem StructDecl.linksTo_link {scope : ScopedName} {d : StructDecl} {b : Unit}
    (h : (d.link scope t).outcome = .ok b) :
    (TypeExpr.struct d).LinksTo (d.link scope t).table (.struct (d.link scope t).part) := by
  refine ⟨⟨scope, some scope, scope⟩, t, _, .struct, ?_, le_refl _⟩
  simp [TypeExpr.link, Linked.mapOutcome, Linked.mapPart, h, Except.map]

/-- An enum links as it would where it is used. -/
theorem EnumDecl.linksTo_link {scope : ScopedName} {d : EnumDecl} {b : Unit}
    (h : (d.link scope t).outcome = .ok b) :
    (TypeExpr.enum d).LinksTo (d.link scope t).table (.enum (d.link scope t).part) := by
  refine ⟨⟨scope, some scope, scope⟩, t, _, .enum, ?_, le_refl _⟩
  simp [TypeExpr.link, Linked.mapOutcome, Linked.mapPart, h, Except.map]

mutual

theorem TypeExpr.nodesLink_link (s : Site) (t : SymbolTable) :
    ∀ (e : TypeExpr) (k : Kind), (e.link s t).outcome = .ok k →
      NodesLink (e.link s t).table e.nodes (e.link s t).part.nodes
  | .primitive _, _, h | .string, _, h => .cons (TypeExpr.linksTo_link h) .nil
  | .declared r, k, h => .cons (TypeExpr.linksTo_link h) .nil
  | .sequence e, k, h => by
    have hself := TypeExpr.linksTo_link h
    obtain ⟨k', hk', hlink⟩ := TypeExpr.link_sequence_eq_ok h
    rw [hlink] at hself ⊢
    exact .cons hself (TypeExpr.nodesLink_link s t e k' hk')
  | .struct d, k, h => by
    obtain ⟨scope, -, hd, hlink⟩ := TypeExpr.link_struct_eq_ok h
    rw [hlink]
    exact StructDecl.nodesLink_link scope t d () hd
  | .enum d, k, h => by
    obtain ⟨scope, -, hd, hlink⟩ := TypeExpr.link_enum_eq_ok h
    rw [hlink]
    exact .cons (EnumDecl.linksTo_link hd) .nil

theorem StructDecl.nodesLink_link (scope : ScopedName) (t : SymbolTable) :
    ∀ (d : StructDecl) (b : Unit), (d.link scope t).outcome = .ok b →
      NodesLink (d.link scope t).table (TypeExpr.struct d).nodes
        (TypeExpr.struct (d.link scope t).part).nodes
  | ⟨name, path, members⟩, b, h => by
    have hself := StructDecl.linksTo_link h
    obtain ⟨u, -, hmembers, hlink⟩ := StructDecl.link_eq_ok h
    rw [hlink] at hself ⊢
    exact .cons hself (Member.nodesLink_linkAll _ u members hmembers)

theorem Member.nodesLink_linkAll (path : ScopedName) (t : SymbolTable) :
    ∀ ms : List Member, (Member.linkAll path t ms).outcome = .ok () →
      NodesLink (Member.linkAll path t ms).table (Member.nodes ms)
        (Member.nodes (Member.linkAll path t ms).part)
  | [], _ => .nil
  | ⟨name, type, dims⟩ :: ms, h => by
    obtain ⟨k, hk, hms, hlink⟩ := Member.linkAll_cons_eq_ok h
    rw [hlink]
    have htype := TypeExpr.nodesLink_link (.member path name) t type k hk
    exact List.rel_append (htype.mono (Member.le_linkAll path _ ms))
      (Member.nodesLink_linkAll path _ ms hms)

end

theorem TypedefDecl.nodesLink_link {scope : ScopedName} {d : TypedefDecl} {b : Unit}
    (h : (d.link scope t).outcome = .ok b) :
    NodesLink (d.link scope t).table d.type.nodes (d.link scope t).part.type.nodes := by
  obtain ⟨k, u, hk, hdeclare, hlink⟩ := TypedefDecl.link_eq_ok h
  rw [hlink]
  have htype := d.type.nodesLink_link (.typedef scope d.name) t k hk
  exact htype.mono (SymbolTable.le_of_declare? hdeclare)

theorem Definition.nodesLink_link {scope : ScopedName} {d : Definition} {b : Unit}
    (h : (d.link scope t).outcome = .ok b) :
    NodesLink (d.link scope t).table d.nodes (d.link scope t).part.nodes := by
  cases d with
  | struct d => exact d.nodesLink_link scope t b h
  | enum d => exact .cons (EnumDecl.linksTo_link (d := d) h) .nil
  | typedef d => exact TypedefDecl.nodesLink_link (d := d) h

/-- The nodes of the parts of a list, before and behind linking. -/
theorem nodesLink_linkAll {α β : Type} {link : SymbolTable → α → Linked α β}
    {f : α → List TypeExpr} (hgrow : ∀ t a, t ≤ (link t a).table)
    (hlink : ∀ t a b, (link t a).outcome = .ok b →
      NodesLink (link t a).table (f a) (f (link t a).part))
    {as : List α} (h : (linkAll link t as).outcome = .ok ()) :
    NodesLink (linkAll link t as).table (as.flatMap f) ((linkAll link t as).part.flatMap f) := by
  induction as generalizing t with
  | nil => exact .nil
  | cons a as ih =>
    obtain ⟨b, hb, has, hlinkAll⟩ := linkAll_cons_eq_ok h
    rw [hlinkAll]
    exact List.rel_append ((hlink t a b hb).mono (linkAll_le hgrow _ as)) (ih has)

theorem Parameter.nodesLink_link {interface : ScopedName} {operation : String} {p : Parameter}
    {k : Kind} (h : (p.link interface operation t).outcome = .ok k) :
    NodesLink (p.link interface operation t).table p.type.nodes
      (p.link interface operation t).part.type.nodes :=
  p.type.nodesLink_link (.parameter interface operation p.name) t k h

theorem Operation.nodesLink_link {interface : ScopedName} {o : Operation} {b : Unit}
    (h : (o.link interface t).outcome = .ok b) :
    NodesLink (o.link interface t).table o.nodes (o.link interface t).part.nodes := by
  obtain ⟨k, hk, hps, hlink⟩ := Operation.link_eq_ok h
  rw [hlink]
  have hreturns := o.returns.nodesLink_link (.returns interface o.name) t k hk
  have hparameters := nodesLink_linkAll (f := fun p : Parameter => p.type.nodes)
    (Parameter.le_link interface o.name) (fun _ _ _ hp => Parameter.nodesLink_link hp) hps
  exact List.rel_append
    (hreturns.mono (linkAll_le (Parameter.le_link interface o.name) _ o.parameters)) hparameters

theorem Interface.nodesLink_link {scope : ScopedName} {i : Interface} {b : Unit}
    (h : (i.link scope t).outcome = .ok b) :
    NodesLink (i.link scope t).table (i.operations.flatMap (·.nodes))
      ((i.link scope t).part.operations.flatMap (·.nodes)) := by
  obtain ⟨hos, hlink⟩ := Interface.link_eq_ok h
  rw [hlink]
  exact nodesLink_linkAll (Operation.le_link (scope.child i.name))
    (fun _ _ _ ho => Operation.nodesLink_link ho) hos

theorem Module.nodesLink_link {m : Module} {b : Unit} (h : (m.link t).outcome = .ok b) :
    NodesLink (m.link t).table m.nodes (m.link t).part.nodes := by
  obtain ⟨hds, his, hlink⟩ := Module.link_eq_ok h
  rw [hlink]
  have hd := nodesLink_linkAll (Definition.le_link (.child .root m.name))
    (fun _ _ _ hd => Definition.nodesLink_link hd) hds
  have hi := nodesLink_linkAll (f := fun i : Interface => i.operations.flatMap (·.nodes))
    (Interface.le_link (.child .root m.name)) (fun _ _ _ hi => Interface.nodesLink_link hi) his
  exact List.rel_append
    (hd.mono (linkAll_le (Interface.le_link (.child .root m.name)) _ m.interfaces)) hi

end Links

/-- **Recorded kinds are those behind the names.**  In modules that link from an empty table, every
reference has the one kind that following the declarations from it ends at, typedefs do not refer to
one another in a circle, and every type has been linked and has the kind that linking returns for
it. -/
theorem kinds_follow_declarations {ms linked : List Module} {u : SymbolTable}
    (h : linkAll Module.link .empty ms = ⟨linked, u, .ok ()⟩) :
    (∀ r ∈ linked.flatMap (·.references), ∃ k, r.kind = some k ∧
        ∀ k', (TypeExpr.declared r).Follows (linked.flatMap (·.declarations)) k' ↔ k' = k) ∧
      (∀ a, ¬Relation.TransGen (TypedefDecl.RefersTo (linked.flatMap (·.declarations))) a a) ∧
      List.Forall₂
        (fun e n => (∃ s t v k, e.link s t = ⟨n, v, .ok k⟩ ∧ v ≤ u) ∧
          ∀ s t v k, e.link s t = ⟨n, v, .ok k⟩ → n.kind? = some k)
        (ms.flatMap (·.nodes)) (linked.flatMap (·.nodes)) := by
  have hdeclarations := declarationsOf_linkAll h
  have hok := congrArg Linked.outcome h
  have hlinked := linkedIn_linkAll hok
  have hnodes := nodesLink_linkAll Module.le_link (fun _ _ _ hm => Module.nodesLink_link hm) hok
  rw [h] at hlinked hnodes
  refine ⟨fun r hr => ?_, hdeclarations.not_transGen_refersTo,
    hnodes.imp fun e n hen => ⟨hen, fun s t v k hlink => TypeExpr.kind?_eq_of_link hlink⟩⟩
  obtain ⟨m, hm, hr⟩ := List.mem_flatMap.1 hr
  exact hdeclarations.exists_kind ((hlinked m hm).nodes _ (Module.declared_mem_nodes.2 hr))

/-- A grid is an array behind a name, and a level is an enum of another module. -/
def gridModules : List Module :=
  let ref (name : String) : TypeExpr := .declared (.unlinked name)
  let level : TypedefDecl := ⟨"Level", .root, ref "Mode", []⟩
  let row : TypedefDecl := ⟨"Row", .root, ref "Base::Level", [4]⟩
  let grid : TypedefDecl := ⟨"Grid", .root, ref "Row", []⟩
  [⟨"Base", [.enum ⟨"Mode", .root, ["OFF", "ON"]⟩, .typedef level], []⟩,
    ⟨"Plant", [.typedef row, .typedef grid,
      .struct ⟨"Cell", .root,
        [⟨"level", ref "Base::Level", []⟩, ⟨"grid", ref "Grid", []⟩,
          ⟨"grids", .sequence (ref "Grid"), [2]⟩]⟩], []⟩]

theorem kinds_follow_declarations_grid :
    ∃ linked u r, linkAll Module.link .empty gridModules = ⟨linked, u, .ok ()⟩ ∧
      (linked.flatMap (·.references)).map (fun r => (r.name, r.kind)) =
        [("Mode", some .enum), ("Base::Level", some .enum), ("Row", some .array),
          ("Base::Level", some .enum), ("Grid", some .array), ("Grid", some .array)] ∧
      r ∈ linked.flatMap (·.references) ∧ r.name = "Grid" ∧
      (∀ k, (TypeExpr.declared r).Follows (linked.flatMap (·.declarations)) k ↔ k = .array) ∧
      ∀ a, ¬Relation.TransGen (TypedefDecl.RefersTo (linked.flatMap (·.declarations))) a a := by
  have h : linkAll Module.link .empty gridModules = ⟨_, _, .ok ()⟩ := rfl
  obtain ⟨hkinds, hcircles, -⟩ := kinds_follow_declarations h
  obtain ⟨k, hk, hfollows⟩ := hkinds _ (List.mem_of_getElem? (i := 5) rfl)
  cases hk
  exact ⟨_, _, _, h, rfl, List.mem_of_getElem? (i := 5) rfl, rfl, hfollows, hcircles⟩

end WireStub
