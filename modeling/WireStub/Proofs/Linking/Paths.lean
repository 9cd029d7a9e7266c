import WireStub.Proofs.Linking.Visiting

/-!
# Paths of declarations

Behind linking every declaration has a path, wherever it stands, and every reference leads to one.

* `TypeExpr.occurs_of_mem_nodes`: linking comes to every type that is declared in place;
* `TypeExpr.Located` says that a type has its path, and `Module.Located` that all parts of a module
  have theirs;
* `located_linkAll`: modules that link are located.
-/

namespace WireStub

@[simp] theorem ScopedName.isRoot_child (p : ScopedName) (s : String) :
    (p.child s).isRoot = false := by
  simp [isRoot]

open Occurrence

/-! ### Types declared in place -/

mutual

/-- A type that is declared in place occurs as a declaration. -/
theorem TypeExpr.occurs_of_mem_nodes {scope : ScopedName} {n : TypeExpr} {d : Definition}
    (hd : n.Declares d) :
    ∀ {t : TypeExpr}, n ∈ t.nodes → ∃ s, .declares s d ∈ t.occurrences scope
  | .sequence e, h => by
    rcases List.mem_cons.1 h with rfl | h
    · cases hd
    · exact TypeExpr.occurs_of_mem_nodes (t := e) hd h
  | .struct e, h => StructDecl.occurs_of_mem_nodes hd h
  | .enum e, h => by
    obtain rfl := List.mem_singleton.1 h
    cases hd
    exact ⟨scope, List.mem_singleton_self _⟩
  | .primitive _, h | .declared _, h | .string, h => by
    obtain rfl := List.mem_singleton.1 h
    cases hd

theorem StructDecl.occurs_of_mem_nodes {scope : ScopedName} {n : TypeExpr} {d : Definition}
    (hd : n.Declares d) :
    ∀ {e : StructDecl}, n ∈ (TypeExpr.struct e).nodes → ∃ s, .declares s d ∈ e.occurrences scope
  | ⟨name, path, ms⟩, h => by
    rcases List.mem_cons.1 h with rfl | h
    · cases hd
      exact ⟨scope, List.mem_cons_self⟩
    · obtain ⟨s, hs⟩ := Member.occurs_of_mem_nodes hd h
      exact ⟨s, List.mem_cons_of_mem _ hs⟩

theorem Member.occurs_of_mem_nodes {scope : ScopedName} {n : TypeExpr} {d : Definition}
    (hd : n.Declares d) :
    ∀ {ms : List Member}, n ∈ Member.nodes ms → ∃ s, .declares s d ∈ Member.occurrences scope ms
  | [], h => by cases h
  | ⟨_, t, _⟩ :: ms, h => by
    rw [Member.nodes, List.mem_append] at h
    rcases h with h | h
    · obtain ⟨s, hs⟩ := TypeExpr.occurs_of_mem_nodes hd h
      exact ⟨s, List.mem_append_left _ hs⟩
    · obtain ⟨s, hs⟩ := Member.occurs_of_mem_nodes hd h
      exact ⟨s, List.mem_append_right _ hs⟩

end

theorem Definition.occurs_of_mem_nodes (scope : ScopedName) {n : TypeExpr} {d e : Definition}
    (hd : n.Declares d) (hn : n ∈ e.nodes) : ∃ s, .declares s d ∈ e.occurrences scope := by
  cases e with
  | struct e => exact StructDecl.occurs_of_mem_nodes hd hn
  | enum e => exact TypeExpr.occurs_of_mem_nodes (t := .enum e) hd hn
  | typedef e =>
    obtain ⟨s, hs⟩ := TypeExpr.occurs_of_mem_nodes hd (t := e.type) hn
    exact ⟨s, List.mem_append_left _ hs⟩

namespace Module

variable {m : Module}

/-- Where operations declare nothing, a type that is declared in place belongs to a definition. -/
theorem exists_definition_of_declares (hm : m.OperationsDeclareNothing) {n : TypeExpr}
    {d : Definition} (hn : n ∈ m.nodes) (hd : n.Declares d) :
    ∃ e ∈ m.definitions, n ∈ e.nodes := by
  rcases List.mem_append.1 hn with hn | hn
  · exact List.mem_flatMap.1 hn
  · obtain ⟨i, hi, hn⟩ := List.mem_flatMap.1 hn
    obtain ⟨o, ho, hn⟩ := List.mem_flatMap.1 hn
    exact absurd hd (hm i hi o ho n hn d)

theorem occurs_of_mem_nodes (hm : m.OperationsDeclareNothing) {n : TypeExpr} {d : Definition}
    (hn : n ∈ m.nodes) (hd : n.Declares d) : ∃ s, .declares s d ∈ m.occurrences := by
  obtain ⟨e, he, hn⟩ := exists_definition_of_declares hm hn hd
  obtain ⟨s, hs⟩ := Definition.occurs_of_mem_nodes (.child .root m.name) hd hn
  exact ⟨s, List.mem_append_left _ (List.mem_flatMap.2 ⟨e, he, hs⟩)⟩

/-- The types that are declared in place are among the declarations of the module. -/
theorem mem_declarations_of_mem_nodes (hm : m.OperationsDeclareNothing) {n : TypeExpr}
    {d : Definition} (hn : n ∈ m.nodes) (hd : n.Declares d) : d ∈ m.declarations := by
  obtain ⟨s, hs⟩ := occurs_of_mem_nodes hm hn hd
  exact mem_declarations_of_occurs hm hs

/-- The declared structs and enums are types of the module, and the typedefs are definitions. -/
theorem struct_mem_nodes {d : StructDecl} (h : .struct d ∈ m.declarations) :
    .struct d ∈ m.nodes := by
  rcases mem_declarations h with ⟨n, hn, hd⟩ | ⟨-, t, ht⟩
  · cases hd
    exact hn
  · cases ht

theorem enum_mem_nodes {d : EnumDecl} (h : .enum d ∈ m.declarations) : .enum d ∈ m.nodes := by
  rcases mem_declarations h with ⟨n, hn, hd⟩ | ⟨-, t, ht⟩
  · cases hd
    exact hn
  · cases ht

theorem typedef_mem_definitions {d : TypedefDecl} (h : .typedef d ∈ m.declarations) :
    .typedef d ∈ m.definitions := by
  rcases mem_declarations h with ⟨n, -, hd⟩ | ⟨hd, -⟩
  · cases hd
  · exact hd

theorem mem_declarations_of_typedef {d : TypedefDecl} (hd : .typedef d ∈ m.definitions) :
    .typedef d ∈ m.declarations :=
  List.mem_flatMap.2 ⟨_, hd, List.mem_append_right _ List.mem_cons_self⟩

end Module

/-! ### Located modules -/

/-- A type leads to a path if it has to: a reference is linked, and a type that is declared in place
has a path. -/
def TypeExpr.Located : TypeExpr → Prop
  | .declared r => r.isLinked = true
  | .struct d => d.path.isRoot = false
  | .enum d => d.path.isRoot = false
  | .primitive _ | .string | .sequence _ => True

/-- All parts of a module have a path. -/
structure Module.Located (m : Module) : Prop where
  nodes : ∀ n ∈ m.nodes, n.Located
  typedefs : ∀ d, .typedef d ∈ m.definitions → d.path.isRoot = false
  interfaces : ∀ i ∈ m.interfaces, i.path.isRoot = false
  operations : m.OperationsDeclareNothing

variable {t u : SymbolTable}

/-- At the end of a run, every declaration has a path. -/
theorem Occurrence.Run.isRoot_eq_false {xs : List Occurrence} (h : Run t xs u) {s : ScopedName}
    {d : Definition} (hd : .declares s d ∈ xs) : d.path.isRoot = false := by
  obtain ⟨before, after, rfl⟩ := List.append_of_mem hd
  obtain ⟨v, w, -, hact, -⟩ := h.act_at
  obtain ⟨hpath, -, -⟩ := hact
  rw [hpath, ScopedName.isRoot_child]

theorem TypeExpr.BoundIn.isLinked {r : Reference} (h : (TypeExpr.declared r).BoundIn t) :
    r.isLinked = true := by
  obtain ⟨p, k, hp, hk, -⟩ := h
  simp [Reference.isLinked, hp, hk]

theorem Module.located_link {m : Module} {b : Unit} (h : (m.link t).outcome = .ok b) :
    (m.link t).part.Located where
  nodes n hn := by
    have hoperations := Module.operationsDeclareNothing_link h
    have hpath {d : Definition} (hd : n.Declares d) : d.path.isRoot = false := by
      obtain ⟨s, hs⟩ := Module.occurs_of_mem_nodes hoperations hn hd
      exact (Module.run_link h).isRoot_eq_false hs
    cases n with
    | declared r => exact ((Module.linkedIn_link h).nodes _ hn).isLinked
    | struct d => exact hpath (.struct d)
    | enum d => exact hpath (.enum d)
    | primitive | string | sequence => trivial
  typedefs d hd :=
    (Module.run_link h).isRoot_eq_false (d := .typedef d)
      (List.mem_append_left _ (List.mem_flatMap.2
        ⟨_, hd, List.mem_append_right _ List.mem_cons_self⟩))
  interfaces i hi := by rw [Module.interface_path_link h i hi, ScopedName.isRoot_child]
  operations := Module.operationsDeclareNothing_link h

/-- Modules that link are located. -/
theorem located_linkAll {ms linked : List Module}
    (h : linkAll Module.link t ms = ⟨linked, u, .ok ()⟩) : ∀ m ∈ linked, m.Located := by
  have hlocated := forall_mem_linkAll (p := fun _ m => Module.Located m) Module.le_link
    (fun _ _ _ _ hm => hm) (fun _ _ _ hm => Module.located_link hm) (congrArg Linked.outcome h)
  rwa [h] at hlocated

end WireStub
