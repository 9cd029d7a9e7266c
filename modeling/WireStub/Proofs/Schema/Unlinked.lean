import WireStub.Proofs.Schema.Nodes
import WireStub.Proofs.Schema.RoundTrip

/-!
# Schemas that are read

What is read from a document has no links: no reference has a target or a kind, and no declaration or
interface has a path.  Such a schema is what is read back when it is written.

* `TypeExpr.IsUnlinked` says it of a node, `Module.IsUnlinked` and `SchemaFile.IsUnlinked` of all that a
  module or a schema file holds;
* `Module.reread_eq_self`: without links, a module is read back as it is;
* `TypeExpr.isUnlinked_of_read?` and so on up to `SchemaFile.isUnlinked_of_read?`: what is read has no
  links;
* `SchemaFile.reading_undoes_writing` is the main statement.
-/

namespace WireStub

/-- A node without links of its own. -/
def TypeExpr.IsUnlinked : TypeExpr → Prop
  | .declared r => r.target = none ∧ r.kind = none
  | .struct d => d.path = .root
  | .enum d => d.path = .root
  | .primitive _ | .string | .sequence _ => True

/-- All types within a type, and the type itself, are without links. -/
def TypeExpr.AllUnlinked (e : TypeExpr) : Prop := ∀ n ∈ e.nodes, n.IsUnlinked

/-- A type with no types within it. -/
theorem TypeExpr.allUnlinked_of_nodes {e : TypeExpr} (hnodes : e.nodes = [e]) (h : e.IsUnlinked) :
    e.AllUnlinked := by
  intro n hn
  rw [hnodes, List.mem_singleton] at hn
  exact hn ▸ h

/-- No part of a module has a link. -/
structure Module.IsUnlinked (m : Module) : Prop where
  nodes : ∀ n ∈ m.nodes, n.IsUnlinked
  typedefs : ∀ d, .typedef d ∈ m.definitions → d.path = .root
  interfaces : ∀ i ∈ m.interfaces, i.path = .root

/-- No module of a schema file has a link. -/
def SchemaFile.IsUnlinked (f : SchemaFile) : Prop := ∀ m ∈ f.modules, m.IsUnlinked

/-! ### Reading back what has no links -/

theorem map_eq_self {α : Type} {f : α → α} {as : List α} (h : ∀ a ∈ as, f a = a) :
    as.map f = as := (List.map_congr_left h).trans (List.map_id' as)

theorem Reference.reread_eq_self {r : Reference} (h : (TypeExpr.declared r).IsUnlinked) :
    r.reread = r := by
  obtain ⟨name, target, kind⟩ := r
  obtain ⟨rfl, rfl⟩ := h
  rfl

theorem EnumDecl.reread_eq_self {d : EnumDecl} (h : d.path = .root) :
    d.relabel (fun _ => .root) = d := by
  obtain ⟨name, path, enumerators⟩ := d
  obtain rfl := h
  rfl

mutual

/-- A type without links is read back as it is. -/
theorem TypeExpr.reread_eq_self :
    ∀ {e : TypeExpr}, e.AllUnlinked → e.relabel (fun _ => .root) .reread = e
  | .primitive _, _ | .string, _ => rfl
  | .declared _, h => congrArg TypeExpr.declared (Reference.reread_eq_self (h _ List.mem_cons_self))
  | .sequence _, h =>
    congrArg TypeExpr.sequence (TypeExpr.reread_eq_self fun n hn => h n (List.mem_cons_of_mem _ hn))
  | .struct _, h => congrArg TypeExpr.struct (StructDecl.reread_eq_self h)
  | .enum _, h => congrArg TypeExpr.enum (EnumDecl.reread_eq_self (h _ List.mem_cons_self))

theorem StructDecl.reread_eq_self :
    ∀ {d : StructDecl}, (TypeExpr.struct d).AllUnlinked → d.relabel (fun _ => .root) .reread = d
  | ⟨name, path, ms⟩, h => by
    obtain rfl : path = .root := h _ List.mem_cons_self
    have hms := Member.reread_eq_self fun n hn => h n (List.mem_cons_of_mem _ hn)
    exact congrArg (StructDecl.mk name .root) hms

theorem Member.reread_eq_self :
    ∀ {ms : List Member}, (∀ n ∈ Member.nodes ms, n.IsUnlinked) →
      Member.relabelAll (fun _ => .root) .reread ms = ms
  | [], _ => rfl
  | ⟨name, e, dims⟩ :: ms, h => by
    have he := TypeExpr.reread_eq_self fun n hn => h n (List.mem_append_left _ hn)
    have hms := Member.reread_eq_self fun n hn => h n (List.mem_append_right _ hn)
    rw [Member.relabelAll, he, hms]

end

theorem Definition.reread_eq_self {d : Definition} (hnodes : ∀ n ∈ d.nodes, n.IsUnlinked)
    (hpath : ∀ t, d = .typedef t → t.path = .root) : d.relabel (fun _ => .root) .reread = d := by
  cases d with
  | struct d => exact congrArg Definition.struct (StructDecl.reread_eq_self hnodes)
  | enum d => exact congrArg Definition.enum (EnumDecl.reread_eq_self (hnodes _ List.mem_cons_self))
  | typedef d =>
    obtain ⟨name, path, e, dims⟩ := d
    obtain rfl : path = .root := hpath _ rfl
    exact congrArg (fun e => Definition.typedef ⟨name, .root, e, dims⟩)
      (TypeExpr.reread_eq_self hnodes)

theorem Operation.reread_eq_self {o : Operation} (h : ∀ n ∈ o.nodes, n.IsUnlinked) :
    o.relabel (fun _ => .root) .reread = o := by
  obtain ⟨name, returns, parameters, raises⟩ := o
  have hreturns := TypeExpr.reread_eq_self fun n hn => h n (List.mem_append_left _ hn)
  have hparameters : parameters.map (Parameter.relabel (fun _ => .root) .reread) = parameters := by
    refine map_eq_self fun p hp => ?_
    have htype := TypeExpr.reread_eq_self fun n hn =>
      h n (List.mem_append_right _ (List.mem_flatMap.2 ⟨p, hp, hn⟩))
    rw [Parameter.relabel, htype]
  rw [relabel, hreturns, hparameters]

/-- Without links, a module is read back as it is. -/
theorem Module.reread_eq_self {m : Module} (h : m.IsUnlinked) :
    m.relabel (fun _ => .root) .reread = m := by
  have hdefinitions : m.definitions.map (Definition.relabel (fun _ => .root) .reread) =
      m.definitions := by
    refine map_eq_self fun d hd => Definition.reread_eq_self (fun n hn => ?_) fun t ht => ?_
    · exact h.nodes n (List.mem_append_left _ (List.mem_flatMap.2 ⟨d, hd, hn⟩))
    · exact h.typedefs t (ht ▸ hd)
  have hinterfaces : m.interfaces.map (Interface.relabel (fun _ => .root) .reread) =
      m.interfaces := by
    refine map_eq_self fun i hi => ?_
    have hoperations : i.operations.map (Operation.relabel (fun _ => .root) .reread) =
        i.operations := by
      refine map_eq_self fun o ho => Operation.reread_eq_self fun n hn => ?_
      exact h.nodes n (List.mem_append_right _
        (List.mem_flatMap.2 ⟨i, hi, List.mem_flatMap.2 ⟨o, ho, hn⟩⟩))
    rw [Interface.relabel, hoperations, ← h.interfaces i hi]
  rw [relabel, hdefinitions, hinterfaces]

/-! ### What is read has no links -/

theorem EnumDecl.path_of_read? {t : Tree} {d : EnumDecl} (h : EnumDecl.read? t = some d) :
    d.path = .root := by
  simp only [read?, bind, Option.bind_eq_some_iff, Option.some.injEq] at h
  obtain ⟨fs, -, name, -, enumerators, -, rfl⟩ := h
  rfl

/-- A field can only be filled with a value, and then it has this value. -/
theorem exists_of_fill? {α : Type} {field value filled : Option α}
    (h : fill? field value = some filled) : ∃ a, value = some a ∧ filled = some a := by
  unfold fill? at h
  split at h
  · cases h
  · obtain ⟨a, ha, rfl⟩ := Option.map_eq_some_iff.1 h
    exact ⟨a, ha, rfl⟩

mutual

/-- A type that is read has no links. -/
theorem TypeExpr.isUnlinked_of_read? :
    ∀ {t : Tree} {e : TypeExpr}, TypeExpr.read? t = some e → e.AllUnlinked
  | .scalar s, e, h => by
    rw [TypeExpr.read?] at h
    split at h
    · cases h
      exact TypeExpr.allUnlinked_of_nodes rfl trivial
    · cases h
  | .list _ _, _, h => by simp [TypeExpr.read?] at h
  | .record _ [], _, h => by simp [TypeExpr.read?] at h
  | .record _ (_ :: _ :: _), _, h => by simp [TypeExpr.read?] at h
  | .record tag [(key, payload)], e, h => by
    unfold TypeExpr.read? at h
    split at h
    · cases h
    split at h
    · obtain ⟨p, -, rfl⟩ := Option.map_eq_some_iff.1 h
      exact TypeExpr.allUnlinked_of_nodes rfl trivial
    · obtain ⟨name, -, rfl⟩ := Option.map_eq_some_iff.1 h
      exact TypeExpr.allUnlinked_of_nodes rfl ⟨rfl, rfl⟩
    · obtain ⟨e, he, rfl⟩ := Option.map_eq_some_iff.1 h
      intro n hn
      rcases List.mem_cons.1 hn with rfl | hn
      · trivial
      · exact TypeExpr.isUnlinked_of_read? he n hn
    · obtain ⟨d, hd, rfl⟩ := Option.map_eq_some_iff.1 h
      exact StructDecl.isUnlinked_of_read? hd
    · obtain ⟨d, hd, rfl⟩ := Option.map_eq_some_iff.1 h
      exact TypeExpr.allUnlinked_of_nodes rfl (EnumDecl.path_of_read? hd)
    · cases h

theorem StructDecl.isUnlinked_of_read? :
    ∀ {t : Tree} {d : StructDecl}, StructDecl.read? t = some d → (TypeExpr.struct d).AllUnlinked
  | .scalar _, _, h | .list _ _, _, h => by simp [StructDecl.read?] at h
  | .record _ es, d, h => by
    rw [StructDecl.read?, Option.bind_eq_some_iff] at h
    obtain ⟨draft, hdraft, h⟩ := h
    simp only [StructDraft.finish?, bind, Option.bind_eq_some_iff, Option.some.injEq] at h
    obtain ⟨name, -, ms, hms, rfl⟩ := h
    have hmembers := StructDecl.isUnlinked_of_readEntries? hdraft (fun _ h => nomatch h) ms hms
    intro n hn
    rcases List.mem_cons.1 hn with rfl | hn
    · rfl
    · exact hmembers n hn

theorem StructDecl.isUnlinked_of_readEntries? :
    ∀ {es : List (String × Tree)} {d d' : StructDraft},
      StructDecl.readEntries? d es = some d' →
      (∀ ms ∈ d.members, ∀ n ∈ Member.nodes ms, n.IsUnlinked) →
        ∀ ms ∈ d'.members, ∀ n ∈ Member.nodes ms, n.IsUnlinked
  | [], d, d', h, hd => by
    rw [StructDecl.readEntries?] at h
    cases h
    exact hd
  | (key, value) :: es, d, d', h, hd => by
    unfold StructDecl.readEntries? at h
    split at h
    · obtain ⟨name, -, h⟩ := Option.bind_eq_some_iff.1 h
      exact StructDecl.isUnlinked_of_readEntries? h hd
    · obtain ⟨members, hfill, h⟩ := Option.bind_eq_some_iff.1 h
      obtain ⟨ms, hms, rfl⟩ := exists_of_fill? hfill
      refine StructDecl.isUnlinked_of_readEntries? h fun ms' hms' => ?_
      cases hms'
      exact Member.isUnlinked_of_readList? hms
    · cases h

theorem Member.isUnlinked_of_readList? :
    ∀ {t : Tree} {ms : List Member}, Member.readList? t = some ms →
      ∀ n ∈ Member.nodes ms, n.IsUnlinked
  | .list _ items, ms, h => by
    rw [Member.readList?] at h
    exact Member.isUnlinked_of_readItems? h
  | .scalar _, ms, h => by
    rw [Member.readList?] at h
    split at h
    · cases h
      exact fun n hn => nomatch hn
    · cases h
  | .record _ _, ms, h => by simp [Member.readList?] at h

theorem Member.isUnlinked_of_readItems? :
    ∀ {ts : List Tree} {ms : List Member}, Member.readItems? ts = some ms →
      ∀ n ∈ Member.nodes ms, n.IsUnlinked
  | [], ms, h => by
    rw [Member.readItems?] at h
    cases h
    exact fun n hn => nomatch hn
  | t :: ts, ms, h => by
    rw [Member.readItems?, Option.bind_eq_some_iff] at h
    obtain ⟨⟨name, e, dims⟩, hm, h⟩ := h
    obtain ⟨rest, hrest, rfl⟩ := Option.map_eq_some_iff.1 h
    intro n hn
    rcases List.mem_append.1 hn with hn | hn
    · exact Member.isUnlinked_of_read? hm n hn
    · exact Member.isUnlinked_of_readItems? hrest n hn

theorem Member.isUnlinked_of_read? :
    ∀ {t : Tree} {m : Member}, Member.read? t = some m → m.type.AllUnlinked
  | .scalar _, _, h | .list _ _, _, h => by simp [Member.read?] at h
  | .record _ es, m, h => by
    rw [Member.read?, Option.bind_eq_some_iff] at h
    obtain ⟨draft, hdraft, h⟩ := h
    simp only [MemberDraft.finish?, bind, Option.bind_eq_some_iff, Option.some.injEq] at h
    obtain ⟨name, -, e, he, rfl⟩ := h
    exact Member.isUnlinked_of_readEntries? hdraft (fun _ h => nomatch h) e he

theorem Member.isUnlinked_of_readEntries? :
    ∀ {es : List (String × Tree)} {d d' : MemberDraft}, Member.readEntries? d es = some d' →
      (∀ e ∈ d.type, e.AllUnlinked) → ∀ e ∈ d'.type, e.AllUnlinked
  | [], d, d', h, hd => by
    rw [Member.readEntries?] at h
    cases h
    exact hd
  | (key, value) :: es, d, d', h, hd => by
    unfold Member.readEntries? at h
    split at h
    · obtain ⟨name, -, h⟩ := Option.bind_eq_some_iff.1 h
      exact Member.isUnlinked_of_readEntries? h hd
    · obtain ⟨type, hfill, h⟩ := Option.bind_eq_some_iff.1 h
      obtain ⟨e, he, rfl⟩ := exists_of_fill? hfill
      refine Member.isUnlinked_of_readEntries? h fun e' he' => ?_
      cases he'
      exact TypeExpr.isUnlinked_of_read? he
    · obtain ⟨dims, -, h⟩ := Option.bind_eq_some_iff.1 h
      exact Member.isUnlinked_of_readEntries? h hd
    · cases h

end

/-- What is read of a typedef. -/
theorem TypedefDecl.isUnlinked_of_read? {t : Tree} {d : TypedefDecl}
    (h : TypedefDecl.read? t = some d) : d.path = .root ∧ d.type.AllUnlinked := by
  simp only [read?, bind, Option.bind_eq_some_iff, Option.some.injEq] at h
  obtain ⟨fs, -, name, -, e, he, dims, -, rfl⟩ := h
  obtain ⟨t', ht'⟩ := Tree.exists_of_required he
  exact ⟨rfl, TypeExpr.isUnlinked_of_read? ht'⟩

/-- What is read of a definition. -/
theorem Definition.isUnlinked_of_read? {t : Tree} {d : Definition}
    (h : Definition.read? t = some d) :
    (∀ n ∈ d.nodes, n.IsUnlinked) ∧ ∀ e, d = .typedef e → e.path = .root := by
  simp only [read?, bind, Option.bind_eq_some_iff] at h
  obtain ⟨⟨key, payload⟩, -, h⟩ := h
  split at h
  · obtain ⟨s, hs, rfl⟩ := Option.map_eq_some_iff.1 h
    exact ⟨StructDecl.isUnlinked_of_read? hs, fun _ he => by cases he⟩
  · obtain ⟨e, he, rfl⟩ := Option.map_eq_some_iff.1 h
    have henum : (TypeExpr.enum e).AllUnlinked :=
      TypeExpr.allUnlinked_of_nodes rfl (EnumDecl.path_of_read? he)
    exact ⟨henum, fun _ he => by cases he⟩
  · obtain ⟨e, he, rfl⟩ := Option.map_eq_some_iff.1 h
    obtain ⟨hpath, htype⟩ := TypedefDecl.isUnlinked_of_read? he
    refine ⟨htype, fun e' he' => ?_⟩
    cases he'
    exact hpath
  · cases h

theorem Parameter.isUnlinked_of_read? {t : Tree} {p : Parameter} (h : Parameter.read? t = some p) :
    p.type.AllUnlinked := by
  simp only [read?, bind, Option.bind_eq_some_iff, Option.some.injEq] at h
  obtain ⟨fs, -, name, -, e, he, direction, -, rfl⟩ := h
  obtain ⟨t', ht'⟩ := Tree.exists_of_required he
  exact TypeExpr.isUnlinked_of_read? ht'

theorem Operation.isUnlinked_of_read? {t : Tree} {o : Operation} (h : Operation.read? t = some o) :
    ∀ n ∈ o.nodes, n.IsUnlinked := by
  simp only [read?, bind, Option.bind_eq_some_iff, Option.some.injEq] at h
  obtain ⟨fs, -, name, -, returns, hreturns, parameters, hparameters, raises, -, rfl⟩ := h
  intro n hn
  rcases List.mem_append.1 hn with hn | hn
  · rcases Tree.eq_or_exists_of_optional hreturns with rfl | ⟨t', ht'⟩
    · -- the default returns nothing
      exact TypeExpr.allUnlinked_of_nodes (e := .primitive .void) rfl trivial n hn
    · exact TypeExpr.isUnlinked_of_read? ht' n hn
  · obtain ⟨p, hp, hn⟩ := List.mem_flatMap.1 hn
    obtain ⟨t', ht'⟩ := Tree.exists_of_optional_list? hparameters hp
    exact Parameter.isUnlinked_of_read? ht' n hn

/-- What is read of an interface. -/
theorem Interface.isUnlinked_of_read? {t : Tree} {i : Interface} (h : Interface.read? t = some i) :
    i.path = .root ∧ ∀ o ∈ i.operations, ∀ n ∈ o.nodes, n.IsUnlinked := by
  simp only [read?, bind, Option.bind_eq_some_iff, Option.some.injEq] at h
  obtain ⟨fs, -, name, -, operations, hoperations, rfl⟩ := h
  refine ⟨rfl, fun o ho => ?_⟩
  obtain ⟨t', ht'⟩ := Tree.exists_of_optional_list? hoperations ho
  exact Operation.isUnlinked_of_read? ht'

theorem Module.isUnlinked_of_read? {t : Tree} {m : Module} (h : Module.read? t = some m) :
    m.IsUnlinked := by
  simp only [read?, bind, Option.bind_eq_some_iff, Option.some.injEq] at h
  obtain ⟨fs, -, name, -, definitions, hdefinitions, interfaces, hinterfaces, rfl⟩ := h
  have hdefinition : ∀ d ∈ definitions,
      (∀ n ∈ d.nodes, n.IsUnlinked) ∧ ∀ e, d = .typedef e → e.path = .root := by
    intro d hd
    obtain ⟨t', ht'⟩ := Tree.exists_of_optional_list? hdefinitions hd
    exact Definition.isUnlinked_of_read? ht'
  have hinterface : ∀ i ∈ interfaces,
      i.path = .root ∧ ∀ o ∈ i.operations, ∀ n ∈ o.nodes, n.IsUnlinked := by
    intro i hi
    obtain ⟨t', ht'⟩ := Tree.exists_of_optional_list? hinterfaces hi
    exact Interface.isUnlinked_of_read? ht'
  refine ⟨fun n hn => ?_, fun d hd => (hdefinition _ hd).2 d rfl, fun i hi => (hinterface i hi).1⟩
  rcases List.mem_append.1 hn with hn | hn
  · obtain ⟨d, hd, hn⟩ := List.mem_flatMap.1 hn
    exact (hdefinition d hd).1 n hn
  · obtain ⟨i, hi, hn⟩ := List.mem_flatMap.1 hn
    obtain ⟨o, ho, hn⟩ := List.mem_flatMap.1 hn
    exact (hinterface i hi).2 o ho n hn

theorem SchemaFile.isUnlinked_of_read? {t : Tree} {f : SchemaFile}
    (h : SchemaFile.read? t = some f) : f.IsUnlinked := by
  simp only [read?, bind, Option.bind_eq_some_iff, Option.some.injEq] at h
  obtain ⟨fs, -, imports, -, modules, hmodules, rfl⟩ := h
  intro m hm
  obtain ⟨t', ht'⟩ := Tree.exists_of_optional_list? hmodules hm
  exact Module.isUnlinked_of_read? ht'

/-- **Reading undoes writing.**  A schema file without links is read back from what is written of it,
with all its imports and modules.  What is read has no links, so a value that was read is read back
again from what is written of it. -/
theorem SchemaFile.reading_undoes_writing :
    (∀ f : SchemaFile, f.IsUnlinked → SchemaFile.read? f.write = some f) ∧
      ∀ t f, SchemaFile.read? t = some f → f.IsUnlinked ∧ SchemaFile.read? f.write = some f := by
  have hback (f : SchemaFile) (h : f.IsUnlinked) : SchemaFile.read? f.write = some f := by
    rw [f.read?_write, map_eq_self fun m hm => Module.reread_eq_self (h m hm)]
  refine ⟨hback, fun t f h => ?_⟩
  have hunlinked := SchemaFile.isUnlinked_of_read? h
  exact ⟨hunlinked, hback f hunlinked⟩

/-- A document with synonyms and fields left out: a typedef for an array of lists of a struct that is
declared in place, and an operation with a parameter. -/
def kilnTree : Tree :=
  let zone : Tree := .ofEntries [("members", .ofList [.ofEntries
    [("name", .ofText "heat"), ("type", .ofCase "primitive" (.ofText "int32"))]]),
    ("name", .ofText "Zone")]
  let zones : Tree := .ofEntries [("name", .ofText "Zones"),
    ("type", .ofCase "sequence" (.ofCase "struct" zone)), ("dims", .ofList [.ofNat 4, .ofNat 2])]
  let fire : Tree := .ofEntries [("name", .ofText "fire"), ("raises", .ofList [.ofText "Overheated"]),
    ("parameters", .ofList [.ofEntries [("name", .ofText "zones"), ("direction", .ofText "in-out"),
      ("type", .ofCase "declared" (.ofText "Zones"))]])]
  .ofEntries [("modules", .ofList [.ofEntries [("name", .ofText "Kiln"),
    ("interfaces", .ofList [.ofEntries [("name", .ofText "Control"), ("operations", .ofList [fire])]]),
    ("definitions", .ofList [.ofCase "typedef" zones])]])]

theorem SchemaFile.reading_undoes_writing_kiln :
    ∃ f, SchemaFile.read? kilnTree = some f ∧ f.modules.map (·.name) = ["Kiln"] ∧
      f.IsUnlinked ∧ SchemaFile.read? f.write = some f := by
  obtain ⟨hback, hread⟩ := SchemaFile.reading_undoes_writing
  have h : SchemaFile.read? kilnTree = some _ := rfl
  have hunlinked := (hread kilnTree _ h).1
  exact ⟨_, h, rfl, hunlinked, hback _ hunlinked⟩

end WireStub
