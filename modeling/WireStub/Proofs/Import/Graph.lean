import WireStub.Import.Importer
import WireStub.Proofs.Order
import Mathlib.Logic.Relation

/-!
# The graph of imports

Files are the nodes of a graph, and imports its edges.  No file says where its imports lead: that
depends on which other files exist.

* `ImportResolves` says where an import leads, and `resolveImport?_eq_some_iff` that the search finds
  it;
* `Imports` are the edges, and `Reachable` are the files that main files lead to;
* `ImportFault` lists what can be wrong with a file that is reached;
* `Ordered` says of loaded files that each stands behind its imports.
-/

namespace WireStub

variable {t : FileTree} {dirs : List String}

/-- Where an import of the file `base` leads: beside it, or to the first include directory that has
a file of that name. -/
inductive ImportResolves (t : FileTree) (dirs : List String) (base : Path) (name : String) :
    Path → Prop
  | beside {p : Path} : t.resolve? base.parent name = some p → ImportResolves t dirs base name p
  | included {before after : List String} {dir : String} {p : Path} :
      t.resolve? base.parent name = none → dirs = before ++ dir :: after →
        (∀ d ∈ before, t.resolve? .root (Path.joinText d name) = none) →
          t.resolve? .root (Path.joinText dir name) = some p → ImportResolves t dirs base name p

theorem resolveImport?_eq_some_iff {base p : Path} {name : String} :
    resolveImport? t dirs base name = some p ↔ ImportResolves t dirs base name p := by
  unfold resolveImport?
  constructor
  · intro h
    split at h
    · rename_i q hq
      exact .beside (hq.trans h)
    · rename_i hnone
      obtain ⟨before, dir, after, hdirs, hdir, hbefore⟩ := List.findSome?_eq_some_iff.1 h
      exact .included hnone hdirs hbefore hdir
  · intro h
    cases h with
    | beside hp => rw [hp]
    | included hnone hdirs hbefore hdir =>
      rw [hnone]
      exact List.findSome?_eq_some_iff.2 ⟨_, _, _, hdirs, hdir, hbefore⟩

theorem ImportResolves.unique {base p q : Path} {name : String}
    (hp : ImportResolves t dirs base name p) (hq : ImportResolves t dirs base name q) : p = q :=
  Option.some.inj
    ((resolveImport?_eq_some_iff.2 hp).symm.trans (resolveImport?_eq_some_iff.2 hq))

/-- The file `p` loads, and one of its imports leads to `q`. -/
def Imports (t : FileTree) (dirs : List String) (p q : Path) : Prop :=
  ∃ f, SchemaFile.load t p = .ok f ∧ ∃ name ∈ f.imports, ImportResolves t dirs p name q

/-- The files that imports lead to from the main files, these included. -/
def Reachable (t : FileTree) (dirs mains : List String) (p : Path) : Prop :=
  ∃ text ∈ mains, ∃ start, t.resolve? .root text = some start ∧
    Relation.ReflTransGen (Imports t dirs) start p

/-- What is wrong with one of the files that are reached. -/
inductive ImportFault (t : FileTree) (dirs : List String) (R : Path → Prop) : LoadError → Prop
  | unloadable {p : Path} {e : LoadError} : R p → SchemaFile.load t p = .error e →
      ImportFault t dirs R e
  | unresolved {p : Path} {f : SchemaFile} {name : String} : R p → SchemaFile.load t p = .ok f →
      name ∈ f.imports → (∀ q, ¬ImportResolves t dirs p name q) →
        ImportFault t dirs R (.importNotFound name p)
  | cycle {p : Path} : R p → Relation.TransGen (Imports t dirs) p p →
      ImportFault t dirs R (.importCycle p)

/-- A file that does not load is no file of a cycle. -/
theorem SchemaFile.load_ne_importCycle {p q : Path} :
    SchemaFile.load t p ≠ .error (.importCycle q) := by
  unfold SchemaFile.load
  split
  · exact fun h => nomatch h
  · split <;> exact fun h => nomatch h

theorem ImportFault.transGen {R : Path → Prop} {p : Path}
    (h : ImportFault t dirs R (.importCycle p)) : Relation.TransGen (Imports t dirs) p p := by
  cases h with
  | unloadable _ hload => exact absurd hload SchemaFile.load_ne_importCycle
  | cycle _ hcycle => exact hcycle

/-- The modules of the file at a place; a file that does not load has none. -/
def fileModules (t : FileTree) (p : Path) : List Module :=
  match SchemaFile.load t p with
  | .ok f => f.modules
  | .error _ => []

/-! ### Files behind their imports -/

/-- The places of loaded files. -/
def paths (files : List LoadedFile) : List Path := files.map (·.path)

@[simp] theorem paths_append (files added : List LoadedFile) :
    paths (files ++ added) = paths files ++ paths added := List.map_append

@[simp] theorem paths_singleton (f : LoadedFile) : paths [f] = [f.path] := rfl

/-- A file that is loaded for the first time, behind all files that it imports. -/
structure LoadedBehind (t : FileTree) (dirs : List String) (before : List LoadedFile)
    (f : LoadedFile) : Prop where
  fresh : f.path ∉ paths before
  loaded : ∃ g, SchemaFile.load t f.path = .ok g ∧ f.modules = g.modules ∧
    ∀ name ∈ g.imports, ∃ q ∈ paths before, ImportResolves t dirs f.path name q

/-- Every file is loaded once, behind all files that it imports. -/
inductive Ordered (t : FileTree) (dirs : List String) : List LoadedFile → Prop
  | nil : Ordered t dirs []
  | snoc {files : List LoadedFile} {f : LoadedFile} : Ordered t dirs files →
      LoadedBehind t dirs files f → Ordered t dirs (files ++ [f])

namespace Ordered

variable {files : List LoadedFile}

theorem nodup (h : Ordered t dirs files) : (paths files).Nodup := by
  induction h with
  | nil => exact .nil
  | snoc _ hf ih =>
    rw [paths_append, List.nodup_append]
    refine ⟨ih, by simp, fun a ha b hb hab => hf.fresh ?_⟩
    rw [paths_singleton, List.mem_singleton] at hb
    exact hb ▸ hab ▸ ha

/-- Each file of the list stands behind its imports. -/
theorem loadedBehind (h : Ordered t dirs files) :
    ∀ {before after f}, files = before ++ f :: after → LoadedBehind t dirs before f := by
  induction h with
  | nil => exact fun hsplit => absurd hsplit.symm (by simp)
  | @snoc files g _ hg ih =>
    intro before after f hsplit
    rcases List.eq_nil_or_concat after with rfl | ⟨after, x, rfl⟩
    · obtain ⟨rfl, hfg⟩ := List.append_inj' hsplit rfl
      cases hfg
      exact hg
    · rw [List.concat_eq_append, ← List.cons_append, ← List.append_assoc] at hsplit
      exact ih (List.append_inj' hsplit rfl).1

theorem mem_paths_of_imports (h : Ordered t dirs files) {before after : List LoadedFile}
    {f : LoadedFile} (hsplit : files = before ++ f :: after) {q : Path}
    (hq : Imports t dirs f.path q) : q ∈ paths before := by
  obtain ⟨g, hg, -, himports⟩ := (h.loadedBehind hsplit).loaded
  obtain ⟨g', hg', name, hname, hresolves⟩ := hq
  obtain rfl : g = g' := Except.ok.inj (hg.symm.trans hg')
  obtain ⟨q', hq', hresolves'⟩ := himports name hname
  exact hresolves.unique hresolves' ▸ hq'

theorem mem_of_imports (h : Ordered t dirs files) {before after : List Path} {p q : Path}
    (hsplit : paths files = before ++ p :: after) (hq : Imports t dirs p q) : q ∈ before := by
  obtain ⟨front, rest, hfiles, rfl, hrest⟩ := List.map_eq_append_iff.1 hsplit
  obtain ⟨f, back, rfl, rfl, -⟩ := List.map_eq_cons_iff.1 hrest
  exact h.mem_paths_of_imports hfiles hq

/-- An import of a file of the list is of the list, and stands before it. -/
theorem idxOf_lt (h : Ordered t dirs files) {p q : Path} (hp : p ∈ paths files)
    (hq : Imports t dirs p q) : q ∈ paths files ∧ (paths files).idxOf q < (paths files).idxOf p := by
  obtain ⟨f, hf, rfl⟩ := List.mem_map.1 hp
  obtain ⟨before, after, rfl⟩ := List.append_of_mem hf
  have hbefore := h.mem_paths_of_imports rfl hq
  rw [paths_append]
  exact ⟨List.mem_append_left _ hbefore, idxOf_lt_idxOf hbefore (h.loadedBehind rfl).fresh⟩

/-- What a file of the list leads to stands before it. -/
theorem idxOf_lt_of_transGen (h : Ordered t dirs files) {p q : Path} (hp : p ∈ paths files)
    (hq : Relation.TransGen (Imports t dirs) p q) :
    q ∈ paths files ∧ (paths files).idxOf q < (paths files).idxOf p :=
  rank_lt_of_transGen (S := (· ∈ paths files)) (paths files).idxOf (fun _ _ => h.idxOf_lt) hp hq

theorem mem_paths_of_reflTransGen (h : Ordered t dirs files) {p q : Path} (hp : p ∈ paths files)
    (hq : Relation.ReflTransGen (Imports t dirs) p q) : q ∈ paths files := by
  rcases Relation.reflTransGen_iff_eq_or_transGen.1 hq with rfl | hq
  · exact hp
  · exact (h.idxOf_lt_of_transGen hp hq).1

/-- No file of the list leads to itself. -/
theorem not_transGen (h : Ordered t dirs files) {p : Path} (hp : p ∈ paths files) :
    ¬Relation.TransGen (Imports t dirs) p p :=
  fun hcycle => Nat.lt_irrefl _ (h.idxOf_lt_of_transGen hp hcycle).2

theorem exists_load (h : Ordered t dirs files) {p : Path} (hp : p ∈ paths files) :
    ∃ f, SchemaFile.load t p = .ok f ∧ ∀ name ∈ f.imports, ∃ q, ImportResolves t dirs p name q := by
  obtain ⟨f, hf, rfl⟩ := List.mem_map.1 hp
  obtain ⟨before, after, rfl⟩ := List.append_of_mem hf
  obtain ⟨g, hg, -, himports⟩ := (h.loadedBehind rfl).loaded
  exact ⟨g, hg, fun name hname => (himports name hname).imp fun q hq => hq.2⟩

theorem modules_eq (h : Ordered t dirs files) {f : LoadedFile} (hf : f ∈ files) :
    f.modules = fileModules t f.path := by
  obtain ⟨before, after, rfl⟩ := List.append_of_mem hf
  obtain ⟨g, hg, hmodules, -⟩ := (h.loadedBehind rfl).loaded
  rw [fileModules, hg, hmodules]

end Ordered

end WireStub
