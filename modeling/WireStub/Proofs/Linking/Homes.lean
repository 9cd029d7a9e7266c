import WireStub.Proofs.Linking.Declared
import WireStub.Proofs.Linking.Widening

/-!
# Where declarations are at home

The path of a declaration starts with its module and goes on with the names of the declarations around
it.  So what holds of the module and passes on to whatever is declared in a scope holds of the paths of
all declarations of the module.

* `exists_scope` finds the scope of a declaration, and `path_of_scope` says what its path inherits, both
  of modules that link;
* `head?_path`: the first segment of a path is the module, and `exists_names_path` says what the others
  are.
-/

namespace WireStub

open Occurrence

section Modules

variable {ms linked : List Module} {t u : SymbolTable} {m : Module} {d : Definition}

/-- Linking comes to every declaration that is emitted, in one of the definitions. -/
theorem exists_declares_of_mem (hm : m.Nameable) (hd : d ∈ m.declarations) :
    ∃ e ∈ m.definitions, ∃ s, .declares s d ∈ e.occurrences (.child .root m.name) := by
  obtain ⟨s, hs⟩ := mem_filterMap_definition?.1 ((Module.perm_definitions hm).mem_iff.2 hd)
  rcases List.mem_append.1 hs with hs | hs
  · obtain ⟨e, he, hs⟩ := List.mem_flatMap.1 hs
    exact ⟨e, he, s, hs⟩
  · obtain ⟨i, hi, hs⟩ := List.mem_flatMap.1 hs
    obtain ⟨o, ho, hs⟩ := List.mem_flatMap.1 hs
    exact absurd hs (hm.operations i hi o ho s d)

/-- A declaration of a module that links is declared in a scope.  What holds of the module and passes on
to what is declared in a scope holds of this one. -/
theorem exists_scope {q : ScopedName → Prop}
    (h : linkAll Module.link t ms = ⟨linked, u, .ok ()⟩) (hm : m ∈ linked)
    (hmodule : q (.child .root m.name))
    (hchild : ∀ s, ∀ d ∈ m.declarations, q s → q (s.child d.name)) (hd : d ∈ m.declarations) :
    ∃ s, q s ∧ d.path = s.child d.name := by
  have hnameable := nameable_linkAll h m hm
  obtain ⟨e, he, s, hs⟩ := exists_declares_of_mem hnameable hd
  have hmem {x : Occurrence} (hx : x ∈ e.occurrences (.child .root m.name)) : x ∈ m.occurrences :=
    List.mem_append_left _ (List.mem_flatMap.2 ⟨e, he, hx⟩)
  have hpath {s : ScopedName} {c : Definition}
      (hc : .declares s c ∈ e.occurrences (.child .root m.name)) : c.path = s.child c.name :=
    (run_link_modules h).path_eq (List.mem_flatMap.2 ⟨m, hm, hmem hc⟩)
  have hinherited : Inherited q (e.occurrences (.child .root m.name)) := by
    intro s c hc hq
    have hcm : c ∈ m.declarations :=
      (Module.perm_definitions hnameable).mem_iff.1 (mem_filterMap_definition?.2 ⟨s, hmem hc⟩)
    rw [hpath hc]
    exact hchild s c hcm hq
  exact ⟨s, Definition.scope_of_occurs hmodule hinherited _ hs, hpath hs⟩

/-- So it holds of the path of the declaration too. -/
theorem path_of_scope {q : ScopedName → Prop}
    (h : linkAll Module.link t ms = ⟨linked, u, .ok ()⟩) (hm : m ∈ linked)
    (hmodule : q (.child .root m.name))
    (hchild : ∀ s, ∀ d ∈ m.declarations, q s → q (s.child d.name)) (hd : d ∈ m.declarations) :
    q d.path := by
  obtain ⟨s, hs, hpath⟩ := exists_scope h hm hmodule hchild hd
  rw [hpath]
  exact hchild s d hd hs

/-- The path of a declaration starts with its module. -/
theorem head?_path (h : linkAll Module.link t ms = ⟨linked, u, .ok ()⟩) (hm : m ∈ linked)
    (hd : d ∈ m.declarations) : d.path.segments.head? = some m.name :=
  path_of_scope (q := fun n => n.segments.head? = some m.name) h hm rfl
    (fun _ d _ hs => ScopedName.head?_child hs d.name) hd

/-- So it is not the root. -/
theorem isRoot_path (h : linkAll Module.link t ms = ⟨linked, u, .ok ()⟩) (hm : m ∈ linked)
    (hd : d ∈ m.declarations) : d.path.isRoot = false := by
  have hhead := head?_path h hm hd
  rw [ScopedName.isRoot, List.isEmpty_eq_false_iff]
  rintro hnil
  simp [hnil] at hhead

/-- Behind the module stand names of declarations, at least one. -/
theorem exists_names_path {q : String → Prop} (h : linkAll Module.link t ms = ⟨linked, u, .ok ()⟩)
    (hm : m ∈ linked) (hnames : ∀ d ∈ m.declarations, q d.name) (hd : d ∈ m.declarations) :
    ∃ names, names ≠ [] ∧ d.path.segments = m.name :: names ∧ ∀ s ∈ names, q s := by
  have hextend {names : List String} {e : Definition} (hq : ∀ x ∈ names, q x)
      (he : e ∈ m.declarations) : ∀ x ∈ names ++ [e.name], q x :=
    List.forall_mem_append.2 ⟨hq, List.forall_mem_singleton.2 (hnames e he)⟩
  have hchild {names : List String} {s : ScopedName} (hs : s.segments = m.name :: names)
      (name : String) : (s.child name).segments = m.name :: (names ++ [name]) := by
    rw [ScopedName.segments_child, hs, List.cons_append]
  have hmodule : ∃ names, (ScopedName.root.child m.name).segments = m.name :: names ∧
      ∀ x ∈ names, q x := ⟨[], rfl, by simp⟩
  obtain ⟨s, ⟨names, hs, hq⟩, hpath⟩ := exists_scope (q := fun s => ∃ names,
    s.segments = m.name :: names ∧ ∀ x ∈ names, q x) h hm hmodule
    (fun s e he ⟨names, hs, hq⟩ => ⟨_, hchild hs e.name, hextend hq he⟩) hd
  exact ⟨names ++ [d.name], by simp, hpath ▸ hchild hs d.name, hextend hq hd⟩

end Modules

end WireStub
