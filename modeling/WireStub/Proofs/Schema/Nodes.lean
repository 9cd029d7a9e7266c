import WireStub.Code.CType

/-!
# Types within types

A type may hold other types: the element of a sequence, the members of a struct that is declared in
place.  Each of them is a *node*, and so is the type itself.

* `TypeExpr.nodes`, `Definition.nodes` and `Module.nodes` list the nodes, outer ones first;
* `TypeExpr.target?` is the declaration that a node leads to;
* `Module.declared_mem_nodes`: the references of a module are the nodes that refer;
* `Definition.mem_declarations` says where the declarations of a definition come from: nodes that
  declare a type in place, and the definition itself.
-/

namespace WireStub

mutual

/-- A type and the types within it. -/
def TypeExpr.nodes : TypeExpr → List TypeExpr
  | .sequence e => .sequence e :: e.nodes
  | .struct d => .struct d :: d.nodes
  | .primitive p => [.primitive p]
  | .declared r => [.declared r]
  | .string => [.string]
  | .enum d => [.enum d]

/-- The types within a struct. -/
def StructDecl.nodes : StructDecl → List TypeExpr
  | ⟨_, _, ms⟩ => Member.nodes ms

/-- The types within members. -/
def Member.nodes : List Member → List TypeExpr
  | [] => []
  | ⟨_, t, _⟩ :: ms => t.nodes ++ Member.nodes ms

end

/-- The declaration that a type leads to: the target of a reference, or the type that is declared in
place. -/
def TypeExpr.target? : TypeExpr → Option ScopedName
  | .declared r => r.target
  | .struct d => some d.path
  | .enum d => some d.path
  | .primitive _ | .string | .sequence _ => none

namespace Definition

/-- The types of a definition.  A struct or an enum is a type itself. -/
def nodes : Definition → List TypeExpr
  | .struct d => (TypeExpr.struct d).nodes
  | .enum d => [.enum d]
  | .typedef d => d.type.nodes

end Definition

namespace Operation

/-- The types of an operation: what it returns, then its parameters. -/
def nodes (o : Operation) : List TypeExpr := o.returns.nodes ++ o.parameters.flatMap (·.type.nodes)

end Operation

namespace Module

/-- The types of a module. -/
def nodes (m : Module) : List TypeExpr :=
  m.definitions.flatMap (·.nodes) ++ m.interfaces.flatMap (·.operations.flatMap (·.nodes))

end Module

theorem TypeExpr.mem_nodes_self (t : TypeExpr) : t ∈ t.nodes := by
  cases t <;> simp [nodes]

theorem Member.type_mem_nodes {m : Member} {ms : List Member} (h : m ∈ ms) :
    m.type ∈ Member.nodes ms := by
  induction ms with
  | nil => cases h
  | cons n ns ih =>
    obtain ⟨name, t, dims⟩ := n
    rw [nodes, List.mem_append]
    rcases List.mem_cons.1 h with rfl | h
    · exact .inl t.mem_nodes_self
    · exact .inr (ih h)

mutual

/-- The types within a type within a type. -/
theorem TypeExpr.nodes_trans {n x : TypeExpr} :
    ∀ {t : TypeExpr}, n ∈ t.nodes → x ∈ n.nodes → x ∈ t.nodes
  | .sequence e, hn, hx => by
    rcases List.mem_cons.1 hn with rfl | hn
    · exact hx
    · exact List.mem_cons_of_mem _ (TypeExpr.nodes_trans hn hx)
  | .struct s, hn, hx => by
    rcases List.mem_cons.1 hn with rfl | hn
    · exact hx
    · exact List.mem_cons_of_mem _ (StructDecl.nodes_trans hn hx)
  | .primitive _, hn, hx | .declared _, hn, hx | .string, hn, hx | .enum _, hn, hx => by
    obtain rfl := List.mem_singleton.1 hn
    exact hx

theorem StructDecl.nodes_trans {n x : TypeExpr} :
    ∀ {s : StructDecl}, n ∈ s.nodes → x ∈ n.nodes → x ∈ s.nodes
  | ⟨_, _, _⟩, hn, hx => Member.nodes_trans hn hx

theorem Member.nodes_trans {n x : TypeExpr} :
    ∀ {ms : List Member}, n ∈ Member.nodes ms → x ∈ n.nodes → x ∈ Member.nodes ms
  | [], hn, _ => absurd hn List.not_mem_nil
  | ⟨name, t, dims⟩ :: ms, hn, hx => by
    rw [Member.nodes, List.mem_append] at hn ⊢
    rcases hn with hn | hn
    · exact .inl (TypeExpr.nodes_trans hn hx)
    · exact .inr (Member.nodes_trans hn hx)

end

mutual

/-- The references within a type are the nodes that refer. -/
theorem TypeExpr.declared_mem_nodes {r : Reference} :
    ∀ {t : TypeExpr}, .declared r ∈ t.nodes ↔ r ∈ t.references
  | .sequence e => by
    have ih := TypeExpr.declared_mem_nodes (r := r) (t := e)
    simp [TypeExpr.nodes, TypeExpr.references, ih]
  | .struct s => by
    have ih := StructDecl.declared_mem_nodes (r := r) (s := s)
    simp [TypeExpr.nodes, TypeExpr.references, ih]
  | .declared q => by simp [TypeExpr.nodes, TypeExpr.references]
  | .primitive _ | .string | .enum _ => by simp [TypeExpr.nodes, TypeExpr.references]

theorem StructDecl.declared_mem_nodes {r : Reference} :
    ∀ {s : StructDecl}, .declared r ∈ s.nodes ↔ r ∈ s.references
  | ⟨_, _, _⟩ => Member.declared_mem_nodes

theorem Member.declared_mem_nodes {r : Reference} :
    ∀ {ms : List Member}, .declared r ∈ Member.nodes ms ↔ r ∈ Member.references ms
  | [] => by simp [Member.nodes, Member.references]
  | ⟨name, t, dims⟩ :: ms => by
    rw [Member.nodes, Member.references, List.mem_append, List.mem_append,
      TypeExpr.declared_mem_nodes, Member.declared_mem_nodes]

end

/-- A node that declares a type in place. -/
inductive TypeExpr.Declares : TypeExpr → Definition → Prop
  | struct (d : StructDecl) : Declares (.struct d) (.struct d)
  | enum (d : EnumDecl) : Declares (.enum d) (.enum d)

mutual

/-- The declarations within a type are made by its nodes. -/
theorem TypeExpr.mem_declarations {d : Definition} :
    ∀ {t : TypeExpr}, d ∈ t.declarations → ∃ n ∈ t.nodes, n.Declares d
  | .sequence e, h => by
    obtain ⟨n, hn, hd⟩ := TypeExpr.mem_declarations (t := e) (by simpa [TypeExpr.declarations] using h)
    exact ⟨n, List.mem_cons_of_mem _ hn, hd⟩
  | .struct s, h => StructDecl.mem_declarations (by simpa [TypeExpr.declarations] using h)
  | .enum e, h => by
    obtain rfl : d = .enum e := by simpa [TypeExpr.declarations] using h
    exact ⟨.enum e, List.mem_cons_self, .enum e⟩
  | .primitive _, h | .declared _, h | .string, h => by simp [TypeExpr.declarations] at h

/-- The declarations of a struct are made by its nodes or are the struct itself. -/
theorem StructDecl.mem_declarations {d : Definition} :
    ∀ {s : StructDecl}, d ∈ s.declarations → ∃ n ∈ (TypeExpr.struct s).nodes, n.Declares d
  | ⟨name, path, ms⟩, h => by
    rw [StructDecl.declarations, List.mem_append, List.mem_singleton] at h
    rcases h with h | rfl
    · obtain ⟨n, hn, hd⟩ := Member.mem_declarations h
      exact ⟨n, List.mem_cons_of_mem _ hn, hd⟩
    · exact ⟨_, List.mem_cons_self, .struct _⟩

theorem Member.mem_declarations {d : Definition} :
    ∀ {ms : List Member}, d ∈ Member.declarations ms → ∃ n ∈ Member.nodes ms, n.Declares d
  | [], h => by simp [Member.declarations] at h
  | ⟨name, t, dims⟩ :: ms, h => by
    rw [Member.declarations, List.mem_append] at h
    rcases h with h | h
    · obtain ⟨n, hn, hd⟩ := TypeExpr.mem_declarations h
      exact ⟨n, List.mem_append_left _ hn, hd⟩
    · obtain ⟨n, hn, hd⟩ := Member.mem_declarations h
      exact ⟨n, List.mem_append_right _ hn, hd⟩

end

/-- A declaration of a definition is made by a node, or is the definition itself: a typedef. -/
theorem Definition.mem_declarations {d e : Definition} (h : d ∈ e.declarations) :
    (∃ n ∈ e.nodes, n.Declares d) ∨ d = e ∧ ∃ t, e = .typedef t := by
  cases e with
  | struct s => exact .inl (StructDecl.mem_declarations h)
  | enum s => exact .inl (TypeExpr.mem_declarations (t := .enum s) h)
  | typedef t =>
    rw [declarations, List.mem_append, List.mem_singleton] at h
    rcases h with h | rfl
    · exact .inl (TypeExpr.mem_declarations h)
    · exact .inr ⟨rfl, t, rfl⟩

namespace Module

variable {m : Module}

/-- A declaration of a module is made by a node, or is a typedef among the definitions. -/
theorem mem_declarations {d : Definition} (h : d ∈ m.declarations) :
    (∃ n ∈ m.nodes, n.Declares d) ∨ d ∈ m.definitions ∧ ∃ t, d = .typedef t := by
  obtain ⟨e, he, hd⟩ := List.mem_flatMap.1 h
  rcases Definition.mem_declarations hd with ⟨n, hn, hnd⟩ | ⟨rfl, ht⟩
  · exact .inl ⟨n, List.mem_append_left _ (List.mem_flatMap.2 ⟨e, he, hn⟩), hnd⟩
  · exact .inr ⟨he, ht⟩

/-- The references of a module are the nodes that refer. -/
theorem declared_mem_nodes {r : Reference} : .declared r ∈ m.nodes ↔ r ∈ m.references := by
  have hdefinition (d : Definition) : .declared r ∈ d.nodes ↔ r ∈ d.references := by
    cases d with
    | struct s => exact TypeExpr.declared_mem_nodes (t := .struct s)
    | enum s => simp [Definition.nodes, Definition.references]
    | typedef d => exact TypeExpr.declared_mem_nodes
  have hoperation (o : Operation) : .declared r ∈ o.nodes ↔ r ∈ o.references := by
    simp only [Operation.nodes, Operation.references, List.mem_append, List.mem_flatMap,
      TypeExpr.declared_mem_nodes]
  simp only [nodes, references, List.mem_append, List.mem_flatMap, hdefinition, hoperation]

theorem mem_nodes_of_mem_nodes {n x : TypeExpr} (hn : n ∈ m.nodes) (hx : x ∈ n.nodes) :
    x ∈ m.nodes := by
  have hdefinition {d : Definition} (hn : n ∈ d.nodes) : x ∈ d.nodes := by
    cases d with
    | struct s => exact TypeExpr.nodes_trans (t := .struct s) hn hx
    | enum s => exact TypeExpr.nodes_trans (t := .enum s) hn hx
    | typedef d => exact TypeExpr.nodes_trans hn hx
  have hoperation {o : Operation} (hn : n ∈ o.nodes) : x ∈ o.nodes := by
    rcases List.mem_append.1 hn with hn | hn
    · exact List.mem_append_left _ (TypeExpr.nodes_trans hn hx)
    · obtain ⟨p, hp, hn⟩ := List.mem_flatMap.1 hn
      exact List.mem_append_right _ (List.mem_flatMap.2 ⟨p, hp, TypeExpr.nodes_trans hn hx⟩)
  rcases List.mem_append.1 hn with hn | hn
  · obtain ⟨d, hd, hn⟩ := List.mem_flatMap.1 hn
    exact List.mem_append_left _ (List.mem_flatMap.2 ⟨d, hd, hdefinition hn⟩)
  · obtain ⟨i, hi, hn⟩ := List.mem_flatMap.1 hn
    obtain ⟨o, ho, hn⟩ := List.mem_flatMap.1 hn
    exact List.mem_append_right _
      (List.mem_flatMap.2 ⟨i, hi, List.mem_flatMap.2 ⟨o, ho, hoperation hn⟩⟩)

theorem parameter_type_mem_nodes {i : Interface} (hi : i ∈ m.interfaces) {o : Operation}
    (ho : o ∈ i.operations) {p : Parameter} (hp : p ∈ o.parameters) : p.type ∈ m.nodes :=
  List.mem_append_right _ (List.mem_flatMap.2 ⟨i, hi, List.mem_flatMap.2 ⟨o, ho,
    List.mem_append_right _ (List.mem_flatMap.2 ⟨p, hp, p.type.mem_nodes_self⟩)⟩⟩)

end Module

end WireStub
