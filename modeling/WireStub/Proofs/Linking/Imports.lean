import WireStub.Generate.CUnit
import WireStub.Proofs.Linking.Homes
import WireStub.Proofs.Linking.Paths
import WireStub.Proofs.Order

/-!
# Imported modules

A module refers to declarations of its own and of other modules.  The other ones are its imports: the
units of the module include theirs.

* `Module.uses` lists the modules that the types of a module lead to, one for each reference at any
  depth, in the order in which they are written;
* `Module.importedNames_eq`: the imports are the modules that are used, without the module itself and
  without repetitions;
* `exists_home`: a reference leads to a module that is linked before, or to its own.
-/

namespace WireStub

open Occurrence

/-! ### Uses -/

namespace TypeExpr

/-- The reference at a node. -/
def reference? : TypeExpr → Option Reference
  | .declared r => some r
  | _ => none

/-- The module that a reference leads to. -/
def owner? : TypeExpr → Option String
  | .declared r => r.target.bind (·.segments.head?)
  | _ => none

end TypeExpr

/-- The modules that the types of a module lead to, one for each reference. -/
def Module.uses (m : Module) : List String := m.nodes.filterMap (·.owner?)

mutual

/-- The references within a type are listed in the order of its nodes. -/
theorem TypeExpr.filterMap_reference?_nodes :
    ∀ t : TypeExpr, t.nodes.filterMap (·.reference?) = t.references
  | .sequence e => TypeExpr.filterMap_reference?_nodes e
  | .struct d => StructDecl.filterMap_reference?_nodes d
  | .primitive _ | .declared _ | .string | .enum _ => rfl

theorem StructDecl.filterMap_reference?_nodes :
    ∀ d : StructDecl, d.nodes.filterMap (·.reference?) = d.references
  | ⟨_, _, ms⟩ => Member.filterMap_reference?_nodes ms

theorem Member.filterMap_reference?_nodes :
    ∀ ms : List Member, (Member.nodes ms).filterMap (·.reference?) = Member.references ms
  | [] => rfl
  | ⟨_, t, _⟩ :: ms => by
    rw [Member.nodes, Member.references, List.filterMap_append,
      TypeExpr.filterMap_reference?_nodes t, Member.filterMap_reference?_nodes ms]

end

namespace Module

theorem filterMap_reference?_nodes (m : Module) :
    m.nodes.filterMap (·.reference?) = m.references := by
  have hdefinition (d : Definition) : d.nodes.filterMap (·.reference?) = d.references := by
    cases d with
    | struct d => exact d.filterMap_reference?_nodes
    | enum d => rfl
    | typedef d => exact d.type.filterMap_reference?_nodes
  have hoperation (o : Operation) : o.nodes.filterMap (·.reference?) = o.references := by
    simp only [Operation.nodes, Operation.references, List.filterMap_append,
      List.filterMap_flatMap, TypeExpr.filterMap_reference?_nodes]
  simp only [nodes, references, List.filterMap_append, List.filterMap_flatMap, hdefinition,
    hoperation]

/-- Where all references are linked, the imports are the modules that are used, except for the module
itself. -/
theorem importedNames_eq {m : Module} (h : ∀ r ∈ m.references, r.isLinked = true) :
    m.importedNames = (m.uses.filter (· != m.name)).eraseDups := by
  have huses : m.references.filterMap (·.owner?) = m.uses := by
    have howner : (fun n : TypeExpr => n.owner?) =
        fun n => n.reference?.bind fun r => r.target.bind (·.segments.head?) := by
      funext n
      cases n <;> rfl
    rw [uses, howner, ← List.filterMap_filterMap, filterMap_reference?_nodes]
    exact List.filterMap_congr fun r hr => by rw [Reference.owner?, if_pos (h r hr)]
  rw [importedNames, huses]

theorem mem_uses {m : Module} {n : String} :
    n ∈ m.uses ↔ ∃ r target, .declared r ∈ m.nodes ∧ r.target = some target ∧
      target.segments.head? = some n := by
  rw [uses, List.mem_filterMap]
  constructor
  · rintro ⟨x, hx, howner⟩
    cases x with
    | declared r =>
      obtain ⟨target, htarget, hhead⟩ := Option.bind_eq_some_iff.1 howner
      exact ⟨r, target, hx, htarget, hhead⟩
    | _ => cases howner
  · rintro ⟨r, target, hr, htarget, hhead⟩
    exact ⟨_, hr, Option.bind_eq_some_iff.2 ⟨target, htarget, hhead⟩⟩

end Module

/-! ### Modules that link -/

section Modules

variable {ms linked before after : List Module} {u : SymbolTable} {m : Module}

/-- In modules that link, the imports of a module are the modules that it uses, except for itself. -/
theorem importedNames_linked (h : linkAll Module.link .empty ms = ⟨linked, u, .ok ()⟩)
    (hm : m ∈ linked) : m.importedNames = (m.uses.filter (· != m.name)).eraseDups :=
  Module.importedNames_eq fun r hr =>
    (located_linkAll h m hm).nodes (.declared r) (Module.declared_mem_nodes.2 hr)

theorem mem_importedNames (h : linkAll Module.link .empty ms = ⟨linked, u, .ok ()⟩) (hm : m ∈ linked)
    {n : String} : n ∈ m.importedNames ↔ n ≠ m.name ∧ ∃ r target, .declared r ∈ m.nodes ∧
      r.target = some target ∧ target.segments.head? = some n := by
  rw [importedNames_linked h hm, List.mem_eraseDups, List.mem_filter, Module.mem_uses, and_comm]
  simp

/-- They stand in the order of their first use. -/
theorem pairwise_importedNames (h : linkAll Module.link .empty ms = ⟨linked, u, .ok ()⟩)
    (hm : m ∈ linked) :
    m.importedNames.Pairwise fun a b => m.uses.idxOf a < m.uses.idxOf b := by
  rw [importedNames_linked h hm]
  exact pairwise_idxOf_eraseDups m.uses _

theorem nodup_importedNames (h : linkAll Module.link .empty ms = ⟨linked, u, .ok ()⟩)
    (hm : m ∈ linked) : m.importedNames.Nodup := by
  refine (pairwise_importedNames h hm).imp fun {a b} hlt => ?_
  rintro rfl
  exact Nat.lt_irrefl _ hlt

/-- A reference leads to a declaration of its own module or of one before it. -/
theorem exists_home (h : linkAll Module.link .empty ms = ⟨linked, u, .ok ()⟩)
    (hsplit : linked = before ++ m :: after) {r : Reference} (hr : r ∈ m.references) :
    ∃ target, r.target = some target ∧
      ∃ e ∈ before ++ [m], target.segments.head? = some e.name := by
  have hrun := run_link_modules h
  rw [hsplit, List.append_cons, List.flatMap_append, run_append_iff] at hrun
  obtain ⟨v, hrun, -⟩ := hrun
  obtain ⟨x, hx, hxr⟩ := List.mem_filterMap.1 (m.filterMap_reference?_occurrences ▸ hr)
  have hmem : x ∈ (before ++ [m]).flatMap (·.occurrences) :=
    List.mem_flatMap.2 ⟨m, List.mem_append_right _ List.mem_cons_self, hx⟩
  cases x with
  | declares => cases hxr
  | refers s q =>
    cases hxr
    obtain ⟨target, kind, htarget, -, hentry⟩ := hrun.boundIn hmem
    rw [hrun.entries_eq] at hentry
    -- the table was empty, so the target was declared on the way
    obtain ⟨y, hy, hentry⟩ := List.mem_filterMap.1 hentry
    cases y with
    | refers => cases hentry
    | declares s' d =>
      obtain ⟨k, -, hentry⟩ := Option.map_eq_some_iff.1 hentry
      obtain ⟨rfl, -⟩ := Prod.mk.inj hentry
      obtain ⟨e, he, hd⟩ := List.mem_flatMap.1 hy
      have helinked : e ∈ linked := by
        rw [hsplit, List.append_cons]
        exact List.mem_append_left _ he
      have hdm := Module.mem_declarations_of_occurs (located_linkAll h e helinked).operations hd
      exact ⟨_, htarget, e, he, head?_path h helinked hdm⟩

/-- In modules that link, the imports of a module are modules before it. -/
theorem exists_before_of_mem_importedNames (h : linkAll Module.link .empty ms = ⟨linked, u, .ok ()⟩)
    (hsplit : linked = before ++ m :: after) {n : String} (hn : n ∈ m.importedNames) :
    ∃ e ∈ before, e.name = n := by
  rw [Module.importedNames, List.mem_eraseDups, List.mem_filter] at hn
  obtain ⟨r, hr, howner⟩ := List.mem_filterMap.1 hn.1
  obtain ⟨target, htarget, e, he, hhead⟩ := exists_home h hsplit hr
  have hname : e.name = n := by
    rw [Reference.owner?] at howner
    split at howner
    · rw [htarget, Option.bind_some, hhead] at howner
      exact Option.some.inj howner
    · cases howner
  rcases List.mem_append.1 he with he | he
  · exact ⟨e, he, hname⟩
  · obtain rfl := List.mem_singleton.1 he
    exact absurd hname.symm (by simpa using hn.2)

/-- With different names, no module imports itself, directly or through others. -/
theorem importing_acyclic (h : linkAll Module.link .empty ms = ⟨linked, u, .ok ()⟩)
    (hnames : (linked.map (·.name)).Nodup) (m : Module) :
    ¬Relation.TransGen (fun a b => a ∈ linked ∧ b ∈ linked ∧ b.name ∈ a.importedNames) m m := by
  refine acyclic_of_rank (fun a : Module => (linked.map (·.name)).idxOf a.name)
    (fun a b ⟨ha, _, hb⟩ => ?_) m
  obtain ⟨before, after, hsplit⟩ := List.append_of_mem ha
  obtain ⟨e, he, hname⟩ := exists_before_of_mem_importedNames h hsplit hb
  rw [hsplit, List.map_append, List.map_cons] at hnames ⊢
  refine idxOf_lt_idxOf (hname ▸ List.mem_map_of_mem he) fun hmem => ?_
  exact (List.nodup_append.1 hnames).2.2 _ hmem _ List.mem_cons_self rfl

end Modules

end WireStub
