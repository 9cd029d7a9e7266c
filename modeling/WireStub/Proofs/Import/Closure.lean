import WireStub.Proofs.Except
import WireStub.Proofs.Import.Graph

/-!
# The closure of imports

Loading walks depth first through the graph of imports.  The files that are open form a path of the
graph, and a file that is met again on this path closes a cycle; a file that is met again behind it
is loaded already.  What is loaded at any time is ordered: each file stands behind its imports.

* `Visit.Sound` is what a visit keeps, whether it fails or not: the order, and that all files it adds
  are reached; `visitFile_sound` and `visitImports_sound` are the walk;
* `Importer.Sound` is what main files keep, and `Importer.loadMains_eq_ok` and
  `Importer.loadMains_eq_error` are the run over them;
* `loaded_modules_are_closure` is the main statement.
-/

namespace WireStub

variable {t : FileTree} {dirs : List String} {R : Path → Prop}

/-- What a visit leaves behind: ordered files, of which the new ones are reached and were not open,
and a reason if it failed. -/
structure Visit.Sound (t : FileTree) (dirs : List String) (R : Path → Prop) (opened : List Path)
    (files : List LoadedFile) (v : Visit) : Prop where
  extends_files : files <+: v.files
  ordered : Ordered t dirs v.files
  added : ∀ f ∈ v.files, f ∈ files ∨ R f.path ∧ f.path ∉ opened
  fault : ∀ e, v.failure = some e → ImportFault t dirs R e.fault

/-- A visit that adds nothing. -/
theorem Visit.Sound.of_eq {opened : List Path} {files : List LoadedFile} {failure : Option VisitFailure}
    (h : Ordered t dirs files) (hfault : ∀ e, failure = some e → ImportFault t dirs R e.fault) :
    Visit.Sound t dirs R opened files ⟨files, failure⟩ :=
  ⟨List.prefix_refl files, h, fun _ hf => .inl hf, hfault⟩

theorem Visit.Sound.trans {opened : List Path} {files : List LoadedFile} {v w : Visit}
    (hv : v.Sound t dirs R opened files) (hw : w.Sound t dirs R opened v.files) :
    w.Sound t dirs R opened files where
  extends_files := hv.extends_files.trans hw.extends_files
  ordered := hw.ordered
  added f hf := by
    rcases hw.added f hf with hf | hf
    · exact hv.added f hf
    · exact .inr hf
  fault := hw.fault

theorem mem_paths_of_prefix {files files' : List LoadedFile} (h : files <+: files') {p : Path}
    (hp : p ∈ paths files) : p ∈ paths files' := (h.map _).subset hp

theorem any_path_eq_iff {files : List LoadedFile} {p : Path} :
    files.any (·.path == p) = true ↔ p ∈ paths files := by
  simp [paths]

/-! ### The walk -/

/-- A file that is neither open nor loaded, and does not load. -/
theorem visitFile_of_error {opened : List Path} {files : List LoadedFile} {p : Path} {e : LoadError}
    (hopen : p ∉ opened) (hold : p ∉ paths files) (hload : SchemaFile.load t p = .error e) :
    visitFile t dirs opened files p = ⟨files, some ⟨e, opened⟩⟩ := by
  rw [visitFile, if_neg hopen, if_neg (mt any_path_eq_iff.1 hold)]
  split
  · rename_i h
    cases hload.symm.trans h
    rfl
  · rename_i h
    cases hload.symm.trans h

/-- A file loads if a run of the reader finds imports and modules in it. -/
theorem SchemaFile.exists_load (p : Path) (imports names : List String)
    (h : (SchemaFile.load t p).toOption.map (fun f => (f.imports, f.modules.map (·.name))) =
      some (imports, names)) :
    ∃ f, SchemaFile.load t p = .ok f ∧ f.imports = imports ∧ f.modules.map (·.name) = names := by
  obtain ⟨f, hf, hfields⟩ := Option.map_eq_some_iff.1 h
  cases hfields
  exact ⟨f, toOption_eq_some.1 hf, rfl, rfl⟩

/-- A file that is neither open nor loaded, and loads. -/
theorem visitFile_of_ok {opened : List Path} {files : List LoadedFile} {p : Path} {f : SchemaFile}
    (hopen : p ∉ opened) (hold : p ∉ paths files) (hload : SchemaFile.load t p = .ok f) :
    visitFile t dirs opened files p =
      let v := visitImports t dirs (opened ++ [p]) files p f.imports
      match v.failure with
      | some e => ⟨v.files, some e⟩
      | none => ⟨v.files ++ [⟨p, f.modules, false⟩], none⟩ := by
  rw [visitFile, if_neg hopen, if_neg (mt any_path_eq_iff.1 hold)]
  split
  · rename_i h
    cases hload.symm.trans h
  · rename_i h
    cases hload.symm.trans h
    rfl

mutual

/-- Visiting a file that the open files lead to. -/
theorem visitFile_sound (hR : ∀ p q, R p → Imports t dirs p q → R q) (opened : List Path)
    (files : List LoadedFile) (p : Path) (hfiles : Ordered t dirs files) (hp : R p)
    (hopened : ∀ q ∈ opened, Relation.TransGen (Imports t dirs) q p) :
    (visitFile t dirs opened files p).Sound t dirs R opened files ∧
      ((visitFile t dirs opened files p).failure = none →
        p ∈ paths (visitFile t dirs opened files p).files) := by
  by_cases hopen : p ∈ opened
  · -- the file is open: it leads to itself
    rw [visitFile, if_pos hopen]
    refine ⟨.of_eq hfiles fun e he => ?_, fun h => nomatch h⟩
    cases he
    exact .cycle hp (hopened p hopen)
  by_cases hold : p ∈ paths files
  · rw [visitFile, if_neg hopen, if_pos (any_path_eq_iff.2 hold)]
    exact ⟨.of_eq hfiles fun _ h => (nomatch h), fun _ => hold⟩
  cases hload : SchemaFile.load t p with
  | error e =>
    rw [visitFile_of_error hopen hold hload]
    refine ⟨.of_eq hfiles fun e' he => ?_, fun h => nomatch h⟩
    cases he
    exact .unloadable hp hload
  | ok f =>
    have hpath : ∀ q ∈ opened ++ [p], Relation.ReflTransGen (Imports t dirs) q p := by
      intro q hq
      rcases List.mem_append.1 hq with hq | hq
      · exact (hopened q hq).to_reflTransGen
      · rw [List.mem_singleton.1 hq]
    obtain ⟨hsound, hresolved⟩ := visitImports_sound hR (opened ++ [p]) files p f.imports hfiles hp
      hload (fun _ h => h) hpath
    have hadded : ∀ g ∈ (visitImports t dirs (opened ++ [p]) files p f.imports).files,
        g ∈ files ∨ R g.path ∧ g.path ∉ opened := fun g hg =>
      (hsound.added g hg).imp_right fun h =>
        ⟨h.1, fun hmem => h.2 (List.mem_append_left _ hmem)⟩
    rw [visitFile_of_ok hopen hold hload]
    simp only
    split
    · rename_i e he
      refine ⟨⟨hsound.extends_files, hsound.ordered, hadded, fun e' he' => ?_⟩, fun h => nomatch h⟩
      cases he'
      exact hsound.fault e he
    · rename_i hnone
      -- the imports have not added the file itself, which was open
      have hfresh : p ∉ paths (visitImports t dirs (opened ++ [p]) files p f.imports).files := by
        intro hmem
        obtain ⟨g, hg, rfl⟩ := List.mem_map.1 hmem
        rcases hsound.added g hg with hg | ⟨-, hg⟩
        · exact hold (List.mem_map_of_mem hg)
        · exact hg (List.mem_append_right _ (List.mem_singleton_self _))
      refine ⟨⟨hsound.extends_files.trans (List.prefix_append _ _), ?_, ?_, fun _ h => nomatch h⟩,
        fun _ => by simp⟩
      · exact .snoc hsound.ordered ⟨hfresh, f, hload, rfl, hresolved hnone⟩
      · intro g hg
        rcases List.mem_append.1 hg with hg | hg
        · exact hadded g hg
        · rw [List.mem_singleton.1 hg]
          exact .inr ⟨hp, hopen⟩
termination_by (unopened t opened, 0)
decreasing_by
  exact Prod.Lex.left _ _ (unopened_append_lt (SchemaFile.mem_textFiles_of_load hload) hopen)

/-- Visiting some imports of a file that the open files lead to. -/
theorem visitImports_sound (hR : ∀ p q, R p → Imports t dirs p q → R q) (opened : List Path)
    (files : List LoadedFile) (base : Path) (names : List String) (hfiles : Ordered t dirs files)
    (hbase : R base) {f : SchemaFile}
    (hload : SchemaFile.load t base = .ok f) (hnames : names ⊆ f.imports)
    (hopened : ∀ q ∈ opened, Relation.ReflTransGen (Imports t dirs) q base) :
    (visitImports t dirs opened files base names).Sound t dirs R opened files ∧
      ((visitImports t dirs opened files base names).failure = none → ∀ name ∈ names,
        ∃ q ∈ paths (visitImports t dirs opened files base names).files,
          ImportResolves t dirs base name q) := by
  match names with
  | [] =>
    rw [visitImports]
    exact ⟨.of_eq hfiles fun _ h => (nomatch h), fun _ name hname => nomatch hname⟩
  | name :: names =>
    have hname : name ∈ f.imports := hnames List.mem_cons_self
    rw [visitImports]
    split
    · rename_i hnone
      refine ⟨.of_eq hfiles fun e he => ?_, fun h => nomatch h⟩
      cases he
      refine .unresolved hbase hload hname fun q hq => ?_
      exact nomatch hnone.symm.trans (resolveImport?_eq_some_iff.2 hq)
    · rename_i p hp
      have hresolves := resolveImport?_eq_some_iff.1 hp
      have hedge : Imports t dirs base p := ⟨f, hload, name, hname, hresolves⟩
      obtain ⟨hfirst, hmem⟩ := visitFile_sound hR opened files p hfiles
        (hR base p hbase hedge) fun q hq => Relation.TransGen.tail' (hopened q hq) hedge
      simp only
      split
      · rename_i e he
        refine ⟨⟨hfirst.extends_files, hfirst.ordered, hfirst.added, fun e' he' => ?_⟩,
          fun h => nomatch h⟩
        cases he'
        exact hfirst.fault e he
      · rename_i hnone
        obtain ⟨hrest, hresolved⟩ := visitImports_sound hR opened
          (visitFile t dirs opened files p).files base names hfirst.ordered hbase hload
          (List.subset_of_cons_subset hnames) hopened
        refine ⟨hfirst.trans hrest, fun h name' hname' => ?_⟩
        rcases List.mem_cons.1 hname' with rfl | hname'
        · exact ⟨p, mem_paths_of_prefix hrest.extends_files (hmem hnone), hresolves⟩
        · exact hresolved h name' hname'
termination_by (unopened t opened, names.length + 1)

end

/-! ### Main files -/

theorem paths_markMain (p : Path) (files : List LoadedFile) :
    paths (Importer.markMain p files) = paths files := by
  rw [paths, Importer.markMain, List.map_map]
  refine List.map_congr_left fun f _ => ?_
  simp only [Function.comp_apply]
  split <;> rfl

/-- Marking a main file changes neither places nor modules. -/
theorem Ordered.markMain {files : List LoadedFile} (h : Ordered t dirs files) (p : Path) :
    Ordered t dirs (Importer.markMain p files) := by
  induction h with
  | nil => exact .nil
  | @snoc files f _ hf ih =>
    have hsplit : Importer.markMain p (files ++ [f]) =
        Importer.markMain p files ++ [if f.path = p then { f with isMain := true } else f] :=
      List.map_append
    have hbehind : LoadedBehind t dirs (Importer.markMain p files) f :=
      ⟨by rw [paths_markMain]; exact hf.fresh, by rw [paths_markMain]; exact hf.loaded⟩
    rw [hsplit]
    refine .snoc ih ?_
    split
    · exact ⟨hbehind.fresh, hbehind.loaded⟩
    · exact hbehind

/-- The state of loading while nothing has failed: ordered files that are all reached, none open. -/
structure Importer.Sound (t : FileTree) (R : Path → Prop) (s : Importer) : Prop where
  ordered : Ordered t s.includeDirs s.files
  reached : ∀ p ∈ paths s.files, R p
  opened : s.opened = []

namespace Importer

variable {s s' : Importer} {text : String}

theorem Sound.start (t : FileTree) (dirs : List String) (R : Path → Prop) :
    (start dirs).Sound t R := ⟨.nil, fun _ h => (nomatch h), rfl⟩

/-- A file that is visited first of all. -/
theorem Sound.visitFile (hs : s.Sound t R) (hR : ∀ p q, R p → Imports t s.includeDirs p q → R q)
    {p : Path} (hp : R p) :
    (visitFile t s.includeDirs s.opened s.files p).Sound t s.includeDirs R s.opened s.files ∧
      ((WireStub.visitFile t s.includeDirs s.opened s.files p).failure = none →
        p ∈ paths (WireStub.visitFile t s.includeDirs s.opened s.files p).files) := by
  refine visitFile_sound hR s.opened s.files p hs.ordered hp fun q hq => ?_
  rw [hs.opened] at hq
  cases hq

/-- What loading a main file keeps and adds. -/
theorem Sound.loadMain_eq_none (hs : s.Sound t R)
    (hR : ∀ p q, R p → Imports t s.includeDirs p q → R q)
    (htext : ∀ p, t.resolve? .root text = some p → R p) (h : s.loadMain t text = (s', none)) :
    s'.Sound t R ∧ s'.includeDirs = s.includeDirs ∧ (∀ p ∈ paths s.files, p ∈ paths s'.files) ∧
      ∃ p, t.resolve? .root text = some p ∧ p ∈ paths s'.files := by
  unfold loadMain at h
  split at h
  · cases h
  · rename_i p hp
    obtain ⟨hsound, hmem⟩ := hs.visitFile hR (htext p hp)
    simp only at h
    split at h
    · cases h
    · rename_i hnone
      cases h
      refine ⟨⟨hsound.ordered.markMain p, fun q hq => ?_, hs.opened⟩, rfl, fun q hq => ?_, p, hp, ?_⟩
      · rw [paths_markMain] at hq
        obtain ⟨f, hf, rfl⟩ := List.mem_map.1 hq
        rcases hsound.added f hf with hf | ⟨hreached, -⟩
        · exact hs.reached _ (List.mem_map_of_mem hf)
        · exact hreached
      · rw [paths_markMain]
        exact mem_paths_of_prefix hsound.extends_files hq
      · rw [paths_markMain]
        exact hmem hnone

theorem Sound.loadMain_eq_some (hs : s.Sound t R)
    (hR : ∀ p q, R p → Imports t s.includeDirs p q → R q)
    (htext : ∀ p, t.resolve? .root text = some p → R p) {e : LoadError}
    (h : s.loadMain t text = (s', some e)) :
    (t.resolve? .root text = none ∧ e = .unreadable text) ∨ ImportFault t s.includeDirs R e := by
  unfold loadMain at h
  split at h
  · rename_i hnone
    cases h
    exact .inl ⟨hnone, rfl⟩
  · rename_i p hp
    obtain ⟨hsound, -⟩ := hs.visitFile hR (htext p hp)
    simp only at h
    split at h
    · rename_i failure hfailure
      cases h
      exact .inr (hsound.fault failure hfailure)
    · cases h

/-- The run over main files that succeeds. -/
theorem Sound.loadMains_eq_ok {texts : List String} (hs : s.Sound t R)
    (hR : ∀ p q, R p → Imports t s.includeDirs p q → R q)
    (htexts : ∀ text ∈ texts, ∀ p, t.resolve? .root text = some p → R p)
    (h : s.loadMains t texts = .ok s') :
    s'.Sound t R ∧ s'.includeDirs = s.includeDirs ∧ (∀ p ∈ paths s.files, p ∈ paths s'.files) ∧
      ∀ text ∈ texts, ∃ p, t.resolve? .root text = some p ∧ p ∈ paths s'.files := by
  induction texts generalizing s with
  | nil =>
    cases h
    exact ⟨hs, rfl, fun _ hp => hp, fun text htext => nomatch htext⟩
  | cons text texts ih =>
    rw [loadMains] at h
    split at h
    · cases h
    · rename_i s₁ hmain
      obtain ⟨hs₁, hdirs, hkeep, p, hp, hmem⟩ :=
        hs.loadMain_eq_none hR (htexts text List.mem_cons_self) hmain
      obtain ⟨hs', hdirs', hkeep', hmains⟩ := ih hs₁ (hdirs ▸ hR)
        (fun text' htext' => htexts text' (List.mem_cons_of_mem _ htext')) h
      refine ⟨hs', hdirs'.trans hdirs, fun q hq => hkeep' q (hkeep q hq), fun text' htext' => ?_⟩
      rcases List.mem_cons.1 htext' with rfl | htext'
      · exact ⟨p, hp, hkeep' p hmem⟩
      · exact hmains text' htext'

/-- The run over main files that fails. -/
theorem Sound.loadMains_eq_error {texts : List String} (hs : s.Sound t R)
    (hR : ∀ p q, R p → Imports t s.includeDirs p q → R q)
    (htexts : ∀ text ∈ texts, ∀ p, t.resolve? .root text = some p → R p) {e : LoadError}
    (h : s.loadMains t texts = .error e) :
    (∃ text ∈ texts, t.resolve? .root text = none ∧ e = .unreadable text) ∨
      ImportFault t s.includeDirs R e := by
  induction texts generalizing s with
  | nil => cases h
  | cons text texts ih =>
    have htext := htexts text List.mem_cons_self
    rw [loadMains] at h
    split at h
    · rename_i s₁ e' hmain
      cases h
      rcases hs.loadMain_eq_some hR htext hmain with hmain | hfault
      · exact .inl ⟨text, List.mem_cons_self, hmain⟩
      · exact .inr hfault
    · rename_i s₁ hmain
      obtain ⟨hs₁, hdirs, -⟩ := hs.loadMain_eq_none hR htext hmain
      rcases ih hs₁ (hdirs ▸ hR) (fun text' htext' => htexts text' (List.mem_cons_of_mem _ htext')) h
        with ⟨text', htext', hmain⟩ | hfault
      · exact .inl ⟨text', List.mem_cons_of_mem _ htext', hmain⟩
      · exact .inr (hdirs ▸ hfault)

end Importer

theorem Reachable.of_imports {mains : List String} (p q : Path) (hp : Reachable t dirs mains p)
    (hq : Imports t dirs p q) : Reachable t dirs mains q := by
  obtain ⟨text, htext, start, hstart, hpath⟩ := hp
  exact ⟨text, htext, start, hstart, hpath.tail hq⟩

theorem Reachable.of_main {mains : List String} (text : String) (htext : text ∈ mains) (p : Path)
    (hp : t.resolve? .root text = some p) : Reachable t dirs mains p := ⟨text, htext, p, hp, .refl⟩

/-- The modules of a state, file by file. -/
theorem Importer.modules_eq {s : Importer} (h : Ordered t s.includeDirs s.files) :
    s.modules.map (fun m => (m.path, m.module)) =
      (paths s.files).flatMap fun p => (fileModules t p).map (p, ·) := by
  rw [Importer.modules, List.map_flatMap, paths, List.flatMap_map]
  refine List.flatMap_congr fun f hf => ?_
  rw [LoadedFile.loadedModules, List.map_map, ← h.modules_eq hf]
  rfl

/-! ### From the start -/

section Start

variable {mains : List String}

/-- When main files load, the loaded files are those that are reached, in order. -/
theorem Importer.of_loadMains {s : Importer} (h : (start dirs).loadMains t mains = .ok s) :
    s.includeDirs = dirs ∧ Ordered t dirs s.files ∧
      (∀ p, p ∈ paths s.files ↔ Reachable t dirs mains p) ∧
      ∀ text ∈ mains, ∃ p, t.resolve? .root text = some p := by
  obtain ⟨hs, hdirs, -, hloaded⟩ :=
    (Sound.start t dirs (Reachable t dirs mains)).loadMains_eq_ok Reachable.of_imports
      Reachable.of_main h
  have hincludes : s.includeDirs = dirs := hdirs
  have hordered : Ordered t dirs s.files := hincludes ▸ hs.ordered
  refine ⟨hincludes, hordered, fun p => ⟨hs.reached p, ?_⟩, fun text htext => ?_⟩
  · rintro ⟨text, htext, start, hstart, hpath⟩
    obtain ⟨p₀, hp₀, hmem⟩ := hloaded text htext
    obtain rfl : start = p₀ := Option.some.inj (hstart.symm.trans hp₀)
    exact hordered.mem_paths_of_reflTransGen hmem hpath
  · obtain ⟨p, hp, -⟩ := hloaded text htext
    exact ⟨p, hp⟩

/-- When main files do not load, one of them does not exist, or a file that is reached is at
fault. -/
theorem Importer.fault_of_loadMains {e : LoadError}
    (h : (start dirs).loadMains t mains = .error e) :
    (∃ text ∈ mains, t.resolve? .root text = none ∧ e = .unreadable text) ∨
      ImportFault t dirs (Reachable t dirs mains) e :=
  (Sound.start t dirs (Reachable t dirs mains)).loadMains_eq_error Reachable.of_imports
    Reachable.of_main h

end Start

/-- **The closure of imports is loaded, in dependency order.**  Loading main files succeeds exactly if
each of them exists, and every file that is reached loads, has all its imports resolved, and does not
lead back to itself.  Then the modules are those of the reached files, file by file: each file once,
and behind all files that it imports.  A cycle is only reported at a file that leads to itself. -/
theorem loaded_modules_are_closure (t : FileTree) (dirs mains : List String) :
    ((∃ s, (Importer.start dirs).loadMains t mains = .ok s) ↔
      (∀ text ∈ mains, ∃ p, t.resolve? .root text = some p) ∧
        ∀ p, Reachable t dirs mains p →
          (∃ f, SchemaFile.load t p = .ok f ∧
            ∀ name ∈ f.imports, ∃ q, ImportResolves t dirs p name q) ∧
          ¬Relation.TransGen (Imports t dirs) p p) ∧
      (∀ s, (Importer.start dirs).loadMains t mains = .ok s → ∃ order : List Path,
        order.Nodup ∧ (∀ p, p ∈ order ↔ Reachable t dirs mains p) ∧
        (∀ before p after, order = before ++ p :: after → ∀ q, Imports t dirs p q → q ∈ before) ∧
        s.modules.map (fun m => (m.path, m.module)) =
          order.flatMap fun p => (fileModules t p).map (p, ·)) ∧
      ∀ p, (Importer.start dirs).loadMains t mains = .error (.importCycle p) →
        Relation.TransGen (Imports t dirs) p p := by
  refine ⟨⟨?_, ?_⟩, fun s h => ?_, fun p h => ?_⟩
  · rintro ⟨s, h⟩
    obtain ⟨-, hordered, hpaths, hexist⟩ := Importer.of_loadMains h
    refine ⟨hexist, fun p hp => ?_⟩
    have hmem := (hpaths p).2 hp
    exact ⟨hordered.exists_load hmem, hordered.not_transGen hmem⟩
  · rintro ⟨hexist, hsound⟩
    refine exists_ok_of_forall fun e he => ?_
    rcases Importer.fault_of_loadMains he with ⟨text, htext, hnone, -⟩ | hfault
    · obtain ⟨p, hp⟩ := hexist text htext
      exact nomatch hnone.symm.trans hp
    · cases hfault with
      | unloadable hp hload =>
        obtain ⟨⟨f, hf, -⟩, -⟩ := hsound _ hp
        exact nomatch hload.symm.trans hf
      | unresolved hp hload hname hnone =>
        obtain ⟨⟨f, hf, himports⟩, -⟩ := hsound _ hp
        cases hload.symm.trans hf
        obtain ⟨q, hq⟩ := himports _ hname
        exact hnone q hq
      | cycle hp hcycle => exact (hsound _ hp).2 hcycle
  · obtain ⟨hincludes, hordered, hpaths, -⟩ := Importer.of_loadMains h
    exact ⟨paths s.files, hordered.nodup, hpaths,
      fun before p after hsplit q hq => hordered.mem_of_imports hsplit hq,
      Importer.modules_eq (hincludes ▸ hordered)⟩
  · rcases Importer.fault_of_loadMains h with ⟨text, -, -, htext⟩ | hfault
    · cases htext
    · exact hfault.transGen

/-- A lamp that needs a file of the library, and a file that imports itself. -/
def lampFiles : FileTree :=
  ⟨[(⟨["lamp.yaml"]⟩, .text "\x7bimports: [units.yaml], modules: [\x7bname: Lamp\x7d]\x7d"),
    (⟨["loop.yaml"]⟩, .text "imports: [loop.yaml]"),
    (⟨["lib"]⟩, .directory),
    (⟨["lib", "units.yaml"]⟩, .text "modules: [\x7bname: Volt\x7d, \x7bname: Watt\x7d]")]⟩

theorem loaded_modules_are_closure_lamp :
    (∃ s, (Importer.start ["lib"]).loadMains lampFiles ["lamp.yaml"] = .ok s ∧
      s.modules.map (·.module.name) = ["Volt", "Watt", "Lamp"] ∧
      ∃ order : List Path, (∀ p, p ∈ order ↔ Reachable lampFiles ["lib"] ["lamp.yaml"] p) ∧
        s.modules.map (fun m => (m.path, m.module)) =
          order.flatMap fun p => (fileModules lampFiles p).map (p, ·)) ∧
      (Importer.start ["lib"]).loadMains lampFiles ["loop.yaml"] =
        .error (.importCycle ⟨["loop.yaml"]⟩) ∧
      Relation.TransGen (Imports lampFiles ["lib"]) ⟨["loop.yaml"]⟩ ⟨["loop.yaml"]⟩ := by
  obtain ⟨lamp, hlamp, hlampImports, hlampNames⟩ :=
    SchemaFile.exists_load (t := lampFiles) ⟨["lamp.yaml"]⟩ ["units.yaml"] ["Lamp"]
      (by decide +kernel)
  obtain ⟨units, hunits, hunitsImports, hunitsNames⟩ :=
    SchemaFile.exists_load (t := lampFiles) ⟨["lib", "units.yaml"]⟩ [] ["Volt", "Watt"]
      (by decide +kernel)
  obtain ⟨loop, hloop, hloopImports, -⟩ :=
    SchemaFile.exists_load (t := lampFiles) ⟨["loop.yaml"]⟩ ["loop.yaml"] [] (by decide +kernel)
  have hmain : lampFiles.resolve? .root "lamp.yaml" = some ⟨["lamp.yaml"]⟩ := rfl
  have hloopMain : lampFiles.resolve? .root "loop.yaml" = some ⟨["loop.yaml"]⟩ := rfl
  have himport : resolveImport? lampFiles ["lib"] ⟨["lamp.yaml"]⟩ "units.yaml" =
      some ⟨["lib", "units.yaml"]⟩ := rfl
  have hloopImport : resolveImport? lampFiles ["lib"] ⟨["loop.yaml"]⟩ "loop.yaml" =
      some ⟨["loop.yaml"]⟩ := rfl
  have hs : (Importer.start ["lib"]).loadMains lampFiles ["lamp.yaml"] =
      .ok ⟨["lib"], [⟨⟨["lib", "units.yaml"]⟩, units.modules, false⟩,
        ⟨⟨["lamp.yaml"]⟩, lamp.modules, true⟩], []⟩ := by
    simp [Importer.loadMains, Importer.loadMain, Importer.start, visitFile_of_ok, visitImports,
      paths, hmain, himport, hlamp, hunits, hlampImports, hunitsImports, Importer.markMain]
  have hcycle : (Importer.start ["lib"]).loadMains lampFiles ["loop.yaml"] =
      .error (.importCycle ⟨["loop.yaml"]⟩) := by
    simp [Importer.loadMains, Importer.loadMain, Importer.start, visitFile_of_ok, visitImports,
      paths, hloopMain, hloopImport, hloop, hloopImports, visitFile]
  obtain ⟨-, horder, -⟩ := loaded_modules_are_closure lampFiles ["lib"] ["lamp.yaml"]
  obtain ⟨order, -, hreachable, -, hmodules⟩ := horder _ hs
  obtain ⟨-, -, hloops⟩ := loaded_modules_are_closure lampFiles ["lib"] ["loop.yaml"]
  refine ⟨⟨_, hs, ?_, order, hreachable, hmodules⟩, hcycle, hloops _ hcycle⟩
  simp [Importer.modules, LoadedFile.loadedModules, Function.comp_def, hunitsNames, hlampNames]

end WireStub
