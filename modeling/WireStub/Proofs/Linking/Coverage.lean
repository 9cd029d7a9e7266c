import WireStub.Proofs.Linking.Containment
import WireStub.Proofs.Linking.Paths

/-!
# What is declared is what is emitted

Linking enters the declarations of a module into the symbol table while it walks through the module,
a struct before those within it.  The declarations that are emitted are listed afterwards, those
within others first.  Neither misses a declaration that the other one has.

* `TypeExpr.mem_declarations_of_declares`: a type that is declared in place, at any depth, is among the
  declarations of the type around it;
* `Module.definitions_sublist`: the definitions of a module are emitted in their order;
* `Module.declared_iff_emitted` is the main statement.
-/

namespace WireStub

open Occurrence

/-- What the types within a type declare in place, the type itself declares. -/
theorem TypeExpr.mem_declarations_of_declares {t n : TypeExpr} {d : Definition} (hn : n ∈ t.nodes)
    (hd : n.Declares d) : d ∈ t.declarations := by
  have hoccurs : ∃ s, .declares s d ∈ t.occurrences .root := TypeExpr.occurs_of_mem_nodes hd hn
  obtain ⟨s, hs⟩ := hoccurs
  exact TypeExpr.mem_declarations_of_occurs hs

/-- Definitions are emitted in the order in which they stand, each with those within it before it. -/
theorem Module.definitions_sublist (m : Module) : m.definitions.Sublist m.declarations := by
  have hsublist (ds : List Definition) : ds.Sublist (ds.flatMap (·.declarations)) := by
    induction ds with
    | nil => exact .slnil
    | cons d ds ih =>
      rw [List.flatMap_cons]
      exact (List.singleton_sublist.2 d.mem_declarations_self).append ih
  exact hsublist m.definitions

/-- The declarations of a module are its definitions and what is declared in place. -/
theorem Module.mem_declarations_iff {m : Module} (hm : m.OperationsDeclareNothing)
    {d : Definition} :
    d ∈ m.declarations ↔ d ∈ m.definitions ∨ ∃ n ∈ m.nodes, n.Declares d := by
  constructor
  · intro h
    rcases Module.mem_declarations h with hnode | ⟨hd, -⟩
    · exact .inr hnode
    · exact .inl hd
  · rintro (hd | ⟨n, hn, hd⟩)
    · exact m.definitions_sublist.subset hd
    · exact Module.mem_declarations_of_mem_nodes hm hn hd

/-- A run adds the names of the declarations at its occurrences. -/
theorem Occurrence.Run.names_eq {t u : SymbolTable} {xs : List Occurrence} (h : Run t xs u) :
    u.names = t.names ++ (xs.filterMap definition?).map (·.path) := by
  rw [SymbolTable.names, h.entries_eq, List.map_append, h.map_entries, SymbolTable.names]

/-- **What linking declares is what is emitted.**  When a module links, from any symbol table:

* the names that it adds to the table are the paths of the declarations that are emitted, each of them
  once, and none was in the table before;
* emitted are the definitions and all structs and enums that are declared in place, at any depth;
* whatever is declared within a member of a struct or within the type of a typedef stands before that
  struct or typedef, and the definitions stand in their order.

Linking leaves out no part of the module and adds none. -/
theorem Module.declared_iff_emitted {t u : SymbolTable} {m linked : Module}
    (h : m.link t = ⟨linked, u, .ok ()⟩) :
    (∃ added, u.names = t.names ++ added ∧ added.Perm (linked.declarations.map (·.path))) ∧
      (linked.declarations.map (·.path)).Nodup ∧
      (∀ d ∈ linked.declarations, d.path ∉ t.names) ∧
      (∀ d, d ∈ linked.declarations ↔
        d ∈ linked.definitions ∨ ∃ n ∈ linked.nodes, n.Declares d) ∧
      (∀ before d after, linked.declarations = before ++ d :: after →
        ∀ part ∈ d.parts, ∀ n ∈ part.nodes, ∀ e, n.Declares e → e ∈ before) ∧
      linked.definitions.Sublist linked.declarations ∧
      linked.unlinked = m.unlinked := by
  have houtcome : (m.link t).outcome = .ok () := congrArg Linked.outcome h
  have hrun := Module.run_link houtcome
  have hnameable := Module.nameable_link houtcome
  have hoperations := Module.operationsDeclareNothing_link houtcome
  have hunlinked := Module.unlinked_link t m
  rw [h] at hrun hnameable hoperations hunlinked
  have hlist : linkAll Module.link t [m] = ⟨[linked], u, .ok ()⟩ := by
    simp [linkAll, h, Linked.mapPart]
  have hnodup := nodup_path_of_mem hlist List.mem_cons_self
  have hnew := nodup_path_declarations hlist
  rw [List.flatMap_singleton, List.nodup_append] at hnew
  refine ⟨⟨_, hrun.names_eq, (Module.perm_definitions hnameable).map _⟩, hnodup,
    fun d hd hold => ?_, fun d => Module.mem_declarations_iff hoperations,
    fun before d after hsplit part hpart n hn e he => ?_, linked.definitions_sublist, hunlinked⟩
  · exact hnew.2.2 _ hold _ (List.mem_map_of_mem hd) rfl
  · have hwithin := TypeExpr.mem_declarations_of_declares hn he
    exact mem_of_mem_inner hnodup.of_map hsplit (Definition.declarations_subset_inner hpart hwithin)

/-- A typedef for lists of lists of a struct that is declared in place and has an enum in it, between
two other definitions. -/
def trackModule : Module :=
  let state : EnumDecl := ⟨"State", .root, ["FREE", "TAKEN"]⟩
  let block : StructDecl := ⟨"Block", .root, [⟨"state", .sequence (.enum state), [2]⟩]⟩
  let blocks : TypedefDecl := ⟨"Blocks", .root, .sequence (.sequence (.struct block)), []⟩
  let current : TypedefDecl := ⟨"Current", .root, .declared (.unlinked "Block"), []⟩
  ⟨"Track", [.enum ⟨"Side", .root, ["LEFT", "RIGHT"]⟩, .typedef blocks, .typedef current], []⟩

theorem Module.declared_iff_emitted_track :
    ∃ linked u, trackModule.link (branchModule.link .empty).table = ⟨linked, u, .ok ()⟩ ∧
      linked.declarations.map (·.path.segments) =
        [["Track", "Side"], ["Track", "Block", "State"], ["Track", "Block"], ["Track", "Blocks"],
          ["Track", "Current"]] ∧
      u.names.map (·.segments) =
        [["Plant", "Branch"], ["Plant", "Branch", "Leaf"], ["Track", "Side"], ["Track", "Block"],
          ["Track", "Block", "State"], ["Track", "Blocks"], ["Track", "Current"]] ∧
      (∀ d ∈ linked.declarations, d.path ∉ (branchModule.link .empty).table.names) ∧
      linked.definitions.Sublist linked.declarations := by
  have h : trackModule.link (branchModule.link .empty).table = ⟨_, _, .ok ()⟩ := rfl
  obtain ⟨-, -, hnew, -, -, hsublist, -⟩ := Module.declared_iff_emitted h
  exact ⟨_, _, h, rfl, rfl, hnew, hsublist⟩

end WireStub
