import WireStub.Import.Ledger
import WireStub.Proofs.Import.Growing
import WireStub.Proofs.Keyed

/-!
# What a ledger records

A ledger records loaded files: which they are, their modules one file after the other, and where the
modules of each file are.  Loading with a ledger is loading with the list of files itself, with the
same faults.

* `Ledger.Records` says that a ledger records files, and `indexRuns` where their modules are;
* `Ledger.Records.enter` and `Ledger.Records.markMain` are the two changes of a ledger;
* `Ledger.visitFile_records` is the walk, and `Resolver.Records.loadMain` a call.
-/

namespace WireStub

variable {t : FileTree} {dirs : List String} {files : List LoadedFile}

/-! ### Indices -/

/-- The number of modules of all files. -/
def moduleCount (files : List LoadedFile) : Nat := (files.flatMap (·.loadedModules)).length

@[simp] theorem LoadedFile.length_loadedModules (f : LoadedFile) :
    f.loadedModules.length = f.modules.length := List.length_map _

theorem LoadedFile.loadedModules_promote (f : LoadedFile) :
    LoadedFile.loadedModules { f with isMain := true } = f.loadedModules.map LoadedModule.promote := by
  simp [loadedModules, LoadedModule.promote]

@[simp] theorem moduleCount_nil : moduleCount [] = 0 := rfl

@[simp] theorem moduleCount_cons (f : LoadedFile) (files : List LoadedFile) :
    moduleCount (f :: files) = f.modules.length + moduleCount files := by
  simp [moduleCount, LoadedFile.loadedModules]

theorem moduleCount_append (files files' : List LoadedFile) :
    moduleCount (files ++ files') = moduleCount files + moduleCount files' := by
  simp [moduleCount]

/-- The indices of the modules of each file, from a first index on. -/
def indexRuns (start : Nat) : List LoadedFile → List (Path × List Nat)
  | [] => []
  | f :: files =>
    (f.path, List.range' start f.modules.length) :: indexRuns (start + f.modules.length) files

theorem map_fst_indexRuns (start : Nat) (files : List LoadedFile) :
    (indexRuns start files).map (·.1) = paths files := by
  induction files generalizing start with
  | nil => rfl
  | cons f files ih => exact congrArg (f.path :: ·) (ih _)

theorem indexRuns_append (start : Nat) (files files' : List LoadedFile) :
    indexRuns start (files ++ files') =
      indexRuns start files ++ indexRuns (start + moduleCount files) files' := by
  induction files generalizing start with
  | nil => rfl
  | cons f files ih => simp [indexRuns, ih, Nat.add_assoc]

/-- The indices of a file begin behind those of the files before it. -/
theorem mem_indexRuns {start : Nat} {p : Path} {is : List Nat} :
    (p, is) ∈ indexRuns start files ↔ ∃ before f after, files = before ++ f :: after ∧ f.path = p ∧
      is = List.range' (start + moduleCount before) f.modules.length := by
  constructor
  · intro h
    induction files generalizing start with
    | nil => cases h
    | cons g files ih =>
      rcases List.mem_cons.1 h with h | h
      · obtain ⟨rfl, rfl⟩ := Prod.mk.inj h
        exact ⟨[], g, files, rfl, rfl, rfl⟩
      · obtain ⟨before, f, after, rfl, hf, his⟩ := ih h
        exact ⟨g :: before, f, after, rfl, hf, by simpa [Nat.add_assoc] using his⟩
  · rintro ⟨before, f, after, rfl, rfl, rfl⟩
    rw [indexRuns_append]
    exact List.mem_append_right _ List.mem_cons_self

/-- Changing the items at successive indices changes a part of the list. -/
theorem foldl_modify_range' {α : Type} (f : α → α) (front mid back : List α) :
    (List.range' front.length mid.length).foldl (fun as i => as.modify i f) (front ++ mid ++ back) =
      front ++ mid.map f ++ back := by
  induction mid generalizing front with
  | nil => simp
  | cons a mid ih =>
    have hfirst : (front ++ a :: mid ++ back).modify front.length f =
        (front ++ [f a]) ++ mid ++ back := by
      simp [List.modify_eq_take_drop]
    have hrest := ih (front ++ [f a])
    rw [List.length_append, List.length_singleton] at hrest
    rw [List.length_cons, List.range'_succ, List.foldl_cons, hfirst, hrest]
    simp

theorem Importer.markMain_of_not_mem {p : Path} (h : p ∉ paths files) : markMain p files = files := by
  refine (List.map_congr_left fun f hf => ?_).trans (List.map_id files)
  have hne : f.path ≠ p := fun heq => h (heq ▸ List.mem_map_of_mem hf)
  exact if_neg hne

theorem indexRuns_markMain (p : Path) (start : Nat) (files : List LoadedFile) :
    indexRuns start (Importer.markMain p files) = indexRuns start files := by
  induction files generalizing start with
  | nil => rfl
  | cons f files ih =>
    rw [Importer.markMain, List.map_cons]
    split
    · exact congrArg (_ :: ·) (ih _)
    · exact congrArg (_ :: ·) (ih _)

/-! ### Records -/

theorem Ledger.addModules_eq (p : Path) (loaded : List LoadedModule) (ms : List Module) :
    addModules p loaded ms =
      (loaded ++ ms.map (⟨·, p, false⟩), List.range' loaded.length ms.length) := by
  induction ms generalizing loaded with
  | nil => simp [addModules]
  | cons m ms ih => simp [addModules, ih, List.range'_succ]

/-- The ledger records these files. -/
structure Ledger.Records (l : Ledger) (files : List LoadedFile) : Prop where
  loaded : l.loaded.Perm (paths files)
  modules : l.modules = files.flatMap (·.loadedModules)
  indices : l.indices = indexRuns 0 files

namespace Ledger.Records

variable {l : Ledger}

theorem empty : Ledger.empty.Records [] := ⟨.nil, rfl, rfl⟩

theorem mem_loaded (h : l.Records files) {p : Path} : p ∈ l.loaded ↔ p ∈ paths files :=
  h.loaded.mem_iff

/-- A file that is new is recorded behind the others. -/
theorem enter (h : l.Records files) {p : Path} (hp : p ∉ paths files) (f : SchemaFile) :
    (l.enter p f).Records (files ++ [⟨p, f.modules, false⟩]) := by
  have hcount : l.modules.length = moduleCount files := congrArg List.length h.modules
  have hkey : p ∉ (indexRuns 0 files).map (·.1) := by
    rw [map_fst_indexRuns]
    exact hp
  refine ⟨?_, ?_, ?_⟩
  · rw [Ledger.enter, List.insert_of_not_mem (mt h.mem_loaded.1 hp), paths_append]
    exact (h.loaded.cons p).trans (List.perm_append_singleton p _).symm
  · simp [Ledger.enter, addModules_eq, h.modules, LoadedFile.loadedModules]
  · simp [Ledger.enter, addModules_eq, h.indices, hcount, Keyed.put_of_not_mem hkey,
      indexRuns_append, indexRuns]

/-- The modules of a file are marked where they are. -/
theorem markMain (h : l.Records files) (hnodup : (paths files).Nodup) (p : Path) :
    (l.markMain p).Records (Importer.markMain p files) := by
  by_cases hp : p ∈ paths files
  · obtain ⟨f, hf, rfl⟩ := List.mem_map.1 hp
    obtain ⟨before, after, rfl⟩ := List.append_of_mem hf
    rw [paths_append, List.nodup_append] at hnodup
    have hbefore : f.path ∉ paths before := fun hmem =>
      hnodup.2.2 _ hmem _ List.mem_cons_self rfl
    have hafter : f.path ∉ paths after := (List.nodup_cons.1 hnodup.2.1).1
    have hlookup : l.indices.lookup f.path =
        some (List.range' (moduleCount before) f.modules.length) := by
      rw [h.indices, indexRuns_append, Nat.zero_add]
      refine List.lookup_eq_some_iff.2 ⟨_, _, rfl, fun e he => ?_⟩
      have hkey := List.mem_map_of_mem (f := Prod.fst) he
      rw [map_fst_indexRuns] at hkey
      exact bne_iff_ne.2 fun heq => hbefore (heq ▸ hkey)
    have hmark : Importer.markMain f.path (before ++ f :: after) =
        before ++ { f with isMain := true } :: after := by
      have hfront := Importer.markMain_of_not_mem hbefore
      have hback := Importer.markMain_of_not_mem hafter
      unfold Importer.markMain at hfront hback ⊢
      rw [List.map_append, List.map_cons, if_pos rfl, hfront, hback]
    have hmodules : (l.markMain f.path).modules =
        (before ++ { f with isMain := true } :: after).flatMap (·.loadedModules) := by
      have hfold := foldl_modify_range' LoadedModule.promote (before.flatMap (·.loadedModules))
        f.loadedModules (after.flatMap (·.loadedModules))
      rw [f.length_loadedModules] at hfold
      rw [List.append_assoc] at hfold
      rw [List.flatMap_append, List.flatMap_cons, LoadedFile.loadedModules_promote,
        ← List.append_assoc, ← hfold]
      simp only [Ledger.markMain, hlookup, h.modules, List.flatMap_append, List.flatMap_cons,
        moduleCount]
    refine ⟨?_, hmark ▸ hmodules, ?_⟩
    · rw [paths_markMain]
      simpa [Ledger.markMain, hlookup] using h.loaded
    · rw [indexRuns_markMain]
      simpa [Ledger.markMain, hlookup] using h.indices
  · have hlookup : l.indices.lookup p = none := by
      rw [h.indices, List.lookup_eq_none_iff]
      intro e he
      have hkey := List.mem_map_of_mem (f := Prod.fst) he
      rw [map_fst_indexRuns] at hkey
      exact bne_iff_ne.2 fun heq => hp (heq ▸ hkey)
    rw [Importer.markMain_of_not_mem hp]
    simpa [Ledger.markMain, hlookup] using h

end Ledger.Records

/-! ### Loading -/

namespace Ledger

variable {l : Ledger}

mutual

/-- Visiting a file with a ledger is visiting it with the recorded files. -/
theorem visitFile_records (t : FileTree) (dirs : List String) (opened : List Path)
    (files : List LoadedFile) (l : Ledger) (p : Path) (h : l.Records files) :
    (visitFile t dirs opened l p).ledger.Records (WireStub.visitFile t dirs opened files p).files ∧
      (visitFile t dirs opened l p).failure = (WireStub.visitFile t dirs opened files p).failure := by
  by_cases hopen : p ∈ opened
  · rw [visitFile, if_pos hopen, WireStub.visitFile, if_pos hopen]
    exact ⟨h, rfl⟩
  by_cases hold : p ∈ paths files
  · rw [visitFile, if_neg hopen, if_pos (h.mem_loaded.2 hold), WireStub.visitFile, if_neg hopen,
      if_pos (any_path_eq_iff.2 hold)]
    exact ⟨h, rfl⟩
  rw [visitFile, if_neg hopen, if_neg (mt h.mem_loaded.1 hold)]
  split
  · rename_i e hload
    rw [visitFile_of_error hopen hold hload]
    exact ⟨h, rfl⟩
  · rename_i f hload
    obtain ⟨hrecords, hfailure⟩ :=
      visitImports_records t dirs (opened ++ [p]) files l p f.imports h
    have hgrows := (visitImports_grows t dirs (opened ++ [p]) files p f.imports).1
    have hfresh := hgrows.not_mem_paths (List.mem_append_right opened List.mem_cons_self) hold
    rw [visitFile_of_ok hopen hold hload]
    simp only [hfailure]
    cases (WireStub.visitImports t dirs (opened ++ [p]) files p f.imports).failure with
    | some e => exact ⟨hrecords, rfl⟩
    | none => exact ⟨hrecords.enter hfresh f, rfl⟩
termination_by (unopened t opened, 0)
decreasing_by
  rename_i hload
  exact Prod.Lex.left _ _ (unopened_append_lt (SchemaFile.mem_textFiles_of_load hload) hopen)

theorem visitImports_records (t : FileTree) (dirs : List String) (opened : List Path)
    (files : List LoadedFile) (l : Ledger) (base : Path) (names : List String) (h : l.Records files) :
    (visitImports t dirs opened l base names).ledger.Records
        (WireStub.visitImports t dirs opened files base names).files ∧
      (visitImports t dirs opened l base names).failure =
        (WireStub.visitImports t dirs opened files base names).failure := by
  match names with
  | [] =>
    rw [visitImports, WireStub.visitImports]
    exact ⟨h, rfl⟩
  | name :: names =>
    rw [visitImports, WireStub.visitImports]
    cases resolveImport? t dirs base name with
    | none => exact ⟨h, rfl⟩
    | some p =>
      obtain ⟨hrecords, hfailure⟩ := visitFile_records t dirs opened files l p h
      simp only [hfailure]
      cases (WireStub.visitFile t dirs opened files p).failure with
      | some e => exact ⟨hrecords, rfl⟩
      | none => exact visitImports_records t dirs opened _ _ base names hrecords
termination_by (unopened t opened, names.length + 1)

end

theorem visitFile_of_mem_loaded {opened : List Path} {p : Path} (hopen : p ∉ opened)
    (hold : p ∈ l.loaded) : visitFile t dirs opened l p = ⟨l, none⟩ := by
  rw [visitFile, if_neg hopen, if_pos hold]

/-- A file that is neither open nor loaded, and loads. -/
theorem visitFile_of_ok {opened : List Path} {p : Path} {f : SchemaFile} (hopen : p ∉ opened)
    (hold : p ∉ l.loaded) (hload : SchemaFile.load t p = .ok f) :
    visitFile t dirs opened l p =
      let v := visitImports t dirs (opened ++ [p]) l p f.imports
      match v.failure with
      | some e => ⟨v.ledger, some e⟩
      | none => ⟨v.ledger.enter p f, none⟩ := by
  rw [visitFile, if_neg hopen, if_neg hold]
  split
  · rename_i h
    cases hload.symm.trans h
  · rename_i h
    cases hload.symm.trans h
    rfl

end Ledger

/-- The state with the ledger records that with the files. -/
structure Resolver.Records (s : Resolver) (a : Importer) : Prop where
  includeDirs : s.includeDirs = a.includeDirs
  opened : s.opened = a.opened
  ledger : s.ledger.Records a.files

namespace Resolver

variable {s : Resolver} {a : Importer}

theorem Records.start (dirs : List String) : (start dirs).Records (Importer.start dirs) :=
  ⟨rfl, rfl, .empty⟩

/-- Loading a main file with the ledger is loading it with the files, with the same fault. -/
theorem Records.loadMain (h : s.Records a) (ha : Ordered t a.includeDirs a.files) (text : String) :
    (s.loadMain t text).1.Records (a.loadMain t text).1 ∧
      (s.loadMain t text).2 = (a.loadMain t text).2 := by
  unfold Resolver.loadMain Importer.loadMain
  cases t.resolve? .root text with
  | none => exact ⟨h, rfl⟩
  | some p =>
    obtain ⟨hrecords, hfailure⟩ :=
      Ledger.visitFile_records t a.includeDirs a.opened a.files s.ledger p h.ledger
    have hgrows := (visitFile_grows t a.includeDirs a.opened a.files p).1
    rw [h.includeDirs, h.opened]
    simp only [hfailure]
    cases (visitFile t a.includeDirs a.opened a.files p).failure with
    | some e => exact ⟨⟨rfl, rfl, hrecords⟩, rfl⟩
    | none => exact ⟨⟨rfl, rfl, hrecords.markMain (hgrows.ordered ha).nodup p⟩, rfl⟩

end Resolver

end WireStub
