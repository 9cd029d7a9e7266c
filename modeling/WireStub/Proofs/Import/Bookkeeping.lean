import WireStub.Proofs.Import.Recording
import Mathlib.Data.List.Nodup

/-!
# Bookkeeping of loaded files

A call that loads a main file may fail at any of the files that are reached, and what has been loaded
by then stays.  The ledger is right behind every call, whichever calls before it have failed: at any
time it records files that are each behind their imports.

* `Ledger.Balanced` says what is right about a ledger, and `Ledger.Records.balanced` that the ledger
  of ordered files is;
* `Promotes` says how the list of modules may change: `Resolver.promotes_loadMain`;
* `Importer.Tracks` is what a call keeps, with `Importer.Tracks.loadMain` for one call and
  `Resolver.loadEach_tracks` for any number of them;
* `bookkeeping_survives_failures` is the main statement.
-/

namespace WireStub

variable {t : FileTree} {dirs : List String}

/-! ### Balanced ledgers -/

/-- The parts of a ledger agree with each other and with the files. -/
structure Ledger.Balanced (t : FileTree) (dirs : List String) (l : Ledger) : Prop where
  /-- No file has two entries. -/
  nodup : (l.indices.map (·.1)).Nodup
  /-- The files with an entry are those that are loaded. -/
  keys : (l.indices.map (·.1)).Perm l.loaded
  /-- The indices of a file follow each other, and its modules are there in their order. -/
  runs : ∀ p is, (p, is) ∈ l.indices → ∃ first, is = List.range' first (fileModules t p).length ∧
    is.map (fun i => l.modules[i]?.map fun m => (m.path, m.module)) =
      (fileModules t p).map fun m => some (p, m)
  /-- The index of a module is in the entry of the file that it comes from, and in no other one. -/
  owners : ∀ i m, l.modules[i]? = some m → ∀ p, (∃ is, (p, is) ∈ l.indices ∧ i ∈ is) ↔ p = m.path
  /-- A loaded file can be read, and all its imports lead to loaded files. -/
  imports : ∀ p ∈ l.loaded, ∃ f, SchemaFile.load t p = .ok f ∧
    ∀ name ∈ f.imports, ∃ q ∈ l.loaded, ImportResolves t dirs p name q
  /-- The modules of an imported file have smaller indices. -/
  order : ∀ p q is js, Imports t dirs p q → (p, is) ∈ l.indices → (q, js) ∈ l.indices →
    ∀ i ∈ is, ∀ j ∈ js, j < i

/-- The items at successive indices are a part of the list. -/
theorem map_getElem?_range' {α : Type} (front mid back : List α) :
    (List.range' front.length mid.length).map (fun i => (front ++ mid ++ back)[i]?) =
      mid.map some := by
  induction mid generalizing front with
  | nil => rfl
  | cons a mid ih =>
    have hrest := ih (front ++ [a])
    rw [List.length_append, List.length_singleton] at hrest
    rw [List.length_cons, List.range'_succ, List.map_cons, List.map_cons]
    refine congrArg₂ List.cons (by simp) ?_
    simpa using hrest

/-- A module among those of files belongs to one of them, in whose run its index is. -/
theorem exists_owner {files : List LoadedFile} {i : Nat} {m : LoadedModule}
    (h : (files.flatMap (·.loadedModules))[i]? = some m) :
    ∃ before f after, files = before ++ f :: after ∧ f.path = m.path ∧
      moduleCount before ≤ i ∧ i < moduleCount before + f.modules.length := by
  induction files generalizing i with
  | nil => cases h
  | cons f files ih =>
    rw [List.flatMap_cons] at h
    by_cases hi : i < f.loadedModules.length
    · rw [List.getElem?_append_left hi] at h
      obtain ⟨n, -, rfl⟩ := List.mem_map.1 (List.mem_of_getElem? h)
      rw [f.length_loadedModules] at hi
      exact ⟨[], f, files, rfl, rfl, Nat.zero_le i, by simpa using hi⟩
    · rw [List.getElem?_append_right (Nat.le_of_not_lt hi)] at h
      obtain ⟨before, g, after, rfl, hpath, hle, hlt⟩ := ih h
      rw [f.length_loadedModules] at hi hle hlt
      refine ⟨f :: before, g, after, rfl, hpath, ?_, ?_⟩
      · rw [moduleCount_cons]
        omega
      · rw [moduleCount_cons]
        omega

namespace Ledger.Records

variable {l : Ledger} {files : List LoadedFile}

theorem map_fst_indices (h : l.Records files) : l.indices.map (·.1) = paths files := by
  rw [h.indices, map_fst_indexRuns]

/-- The entry of a file, by the files before it. -/
theorem mem_indices (h : l.Records files) {p : Path} {is : List Nat} :
    (p, is) ∈ l.indices ↔ ∃ before f after, files = before ++ f :: after ∧ f.path = p ∧
      is = List.range' (moduleCount before) f.modules.length := by
  rw [h.indices, mem_indexRuns]
  simp only [Nat.zero_add]

/-- The modules of a file are at its indices. -/
theorem runs (h : l.Records files) (hfiles : Ordered t dirs files) {p : Path} {is : List Nat}
    (hp : (p, is) ∈ l.indices) : ∃ first, is = List.range' first (fileModules t p).length ∧
      is.map (fun i => l.modules[i]?.map fun m => (m.path, m.module)) =
        (fileModules t p).map fun m => some (p, m) := by
  obtain ⟨before, f, after, rfl, rfl, rfl⟩ := h.mem_indices.1 hp
  have hmodules := hfiles.modules_eq (List.mem_append_right before List.mem_cons_self)
  have hitems := map_getElem?_range' (before.flatMap (·.loadedModules)) f.loadedModules
    (after.flatMap (·.loadedModules))
  have hview := congrArg (List.map (Option.map fun m : LoadedModule => (m.path, m.module))) hitems
  refine ⟨_, by rw [hmodules], ?_⟩
  rw [h.modules, ← hmodules]
  simpa [moduleCount, LoadedFile.loadedModules, Function.comp_def] using hview

theorem owners (h : l.Records files) (hfiles : Ordered t dirs files) {i : Nat} {m : LoadedModule}
    (hm : l.modules[i]? = some m) {p : Path} :
    (∃ is, (p, is) ∈ l.indices ∧ i ∈ is) ↔ p = m.path := by
  constructor
  · rintro ⟨is, hp, hi⟩
    obtain ⟨first, -, hview⟩ := h.runs hfiles hp
    have hmem : some (m.path, m.module) ∈ (fileModules t p).map fun m => some (p, m) := by
      rw [← hview]
      exact List.mem_map.2 ⟨i, hi, by rw [hm, Option.map_some]⟩
    obtain ⟨n, -, hn⟩ := List.mem_map.1 hmem
    exact (Prod.mk.inj (Option.some.inj hn)).1
  · rintro rfl
    rw [h.modules] at hm
    obtain ⟨before, f, after, hsplit, hpath, hle, hlt⟩ := exists_owner hm
    exact ⟨_, h.mem_indices.2 ⟨before, f, after, hsplit, hpath, rfl⟩,
      List.mem_range'_1.2 ⟨hle, hlt⟩⟩

/-- An imported file has its modules before those of the file that imports it. -/
theorem order (h : l.Records files) (hfiles : Ordered t dirs files) {p q : Path} {is js : List Nat}
    (hq : Imports t dirs p q) (hp : (p, is) ∈ l.indices) (hqs : (q, js) ∈ l.indices) {i j : Nat}
    (hi : i ∈ is) (hj : j ∈ js) : j < i := by
  obtain ⟨before, f, after, hsplit, rfl, rfl⟩ := h.mem_indices.1 hp
  obtain ⟨g, hg, rfl⟩ := List.mem_map.1 (hfiles.mem_paths_of_imports hsplit hq)
  obtain ⟨front, back, rfl⟩ := List.append_of_mem hg
  -- the entry of the imported file is the one that it has among the files before
  have hentry : (g.path, List.range' (moduleCount front) g.modules.length) ∈ l.indices :=
    h.mem_indices.2 ⟨front, g, back ++ f :: after, by rw [hsplit]; simp, rfl, rfl⟩
  have hnodup : (l.indices.map (·.1)).Nodup := h.map_fst_indices ▸ hfiles.nodup
  obtain rfl := congrArg Prod.snd (List.inj_on_of_nodup_map hnodup hqs hentry rfl)
  rw [moduleCount_append, moduleCount_cons] at hi
  have hlow := (List.mem_range'_1.1 hi).1
  have hhigh := (List.mem_range'_1.1 hj).2
  omega

/-- The ledger of ordered files is balanced. -/
theorem balanced (h : l.Records files) (hfiles : Ordered t dirs files) : l.Balanced t dirs where
  nodup := h.map_fst_indices ▸ hfiles.nodup
  keys := h.map_fst_indices ▸ h.loaded.symm
  runs _ _ hp := h.runs hfiles hp
  owners _ _ hm _ := h.owners hfiles hm
  imports p hp := by
    obtain ⟨f, hf, rfl⟩ := List.mem_map.1 (h.mem_loaded.1 hp)
    obtain ⟨before, after, rfl⟩ := List.append_of_mem hf
    obtain ⟨g, hg, -, himports⟩ := (hfiles.loadedBehind rfl).loaded
    refine ⟨g, hg, fun name hname => ?_⟩
    obtain ⟨q, hq, hresolves⟩ := himports name hname
    refine ⟨q, h.mem_loaded.2 ?_, hresolves⟩
    rw [paths_append]
    exact List.mem_append_left _ hq
  order _ _ _ _ hq hp hqs _ hi _ hj := h.order hfiles hq hp hqs hi hj

end Ledger.Records

/-! ### Calls -/

/-- The second list has the modules of the first one, some of them marked as modules of a main file,
and perhaps others behind them. -/
def Promotes (ms ms' : List LoadedModule) : Prop :=
  ∃ front added, ms' = front ++ added ∧
    List.Forall₂ (fun m m' => m' = m ∨ m' = m.promote) ms front

theorem Promotes.append (ms added : List LoadedModule) : Promotes ms (ms ++ added) :=
  ⟨ms, added, rfl, List.forall₂_same.2 fun _ _ => .inl rfl⟩

/-- Marking a main file promotes its modules. -/
theorem forall₂_markMain (p : Path) (files : List LoadedFile) :
    List.Forall₂ (fun m m' : LoadedModule => m' = m ∨ m' = m.promote)
      (files.flatMap (·.loadedModules))
      ((Importer.markMain p files).flatMap (·.loadedModules)) := by
  induction files with
  | nil => exact .nil
  | cons f files ih =>
    rw [Importer.markMain, List.map_cons, List.flatMap_cons, List.flatMap_cons]
    refine List.rel_append ?_ ih
    split
    · rw [LoadedFile.loadedModules_promote, List.forall₂_map_right_iff]
      exact List.forall₂_same.2 fun _ _ => .inr rfl
    · exact List.forall₂_same.2 fun _ _ => .inl rfl

/-- The state of loading behind any calls: ordered files, of which those are main files that a call
which succeeded has named. -/
structure Importer.Tracks (t : FileTree) (M : Path → Prop) (a : Importer) : Prop where
  ordered : Ordered t a.includeDirs a.files
  loaded : ∀ p, M p → p ∈ paths a.files
  marked : ∀ f ∈ a.files, f.isMain = true ↔ M f.path

namespace Importer

variable {a : Importer} {M : Path → Prop}

theorem Tracks.start (t : FileTree) (dirs : List String) :
    (start dirs).Tracks t fun _ => False :=
  ⟨.nil, fun _ h => h.elim, fun _ hf => nomatch hf⟩

theorem Tracks.congr {M' : Path → Prop} (h : a.Tracks t M) (hM : ∀ p, M p ↔ M' p) :
    a.Tracks t M' :=
  ⟨h.ordered, fun p hp => h.loaded p ((hM p).2 hp), fun f hf => (h.marked f hf).trans (hM f.path)⟩

/-- A visit keeps what is tracked, whatever files are left open. -/
theorem Tracks.grows (h : a.Tracks t M) {opened : List Path} {fs : List LoadedFile}
    (hgrows : Grows t a.includeDirs opened a.files fs) (opened' : List Path) :
    Tracks t M ⟨a.includeDirs, fs, opened'⟩ := by
  induction hgrows with
  | refl => exact ⟨h.ordered, h.loaded, h.marked⟩
  | @load fs f _ hbehind hopen hmain ih =>
    refine ⟨.snoc ih.ordered hbehind, fun p hp => ?_, fun g hg => ?_⟩
    · rw [paths_append]
      exact List.mem_append_left _ (ih.loaded p hp)
    · rcases List.mem_append.1 hg with hg | hg
      · exact ih.marked g hg
      · -- no call has named a file that was not loaded
        rw [List.mem_singleton.1 hg, hmain]
        exact ⟨Bool.noConfusion, fun hM => absurd (ih.loaded _ hM) hbehind.fresh⟩

theorem Tracks.markMain (h : a.Tracks t M) {p : Path} (hp : p ∈ paths a.files) :
    Tracks t (fun q => M q ∨ q = p) ⟨a.includeDirs, Importer.markMain p a.files, a.opened⟩ := by
  refine ⟨h.ordered.markMain p, fun q hq => ?_, fun g hg => ?_⟩
  · rw [paths_markMain]
    rcases hq with hq | rfl
    · exact h.loaded q hq
    · exact hp
  · obtain ⟨f, hf, rfl⟩ := List.mem_map.1 hg
    have hmarked := h.marked f hf
    by_cases hpath : f.path = p
    · simp [hpath]
    · simpa [hpath] using hmarked

/-- What a call that succeeds names is a main file from then on. -/
theorem Tracks.loadMain (h : a.Tracks t M) (text : String) :
    (a.loadMain t text).1.Tracks t fun p =>
      M p ∨ (a.loadMain t text).2 = none ∧ t.resolve? .root text = some p := by
  unfold Importer.loadMain
  cases t.resolve? .root text with
  | none => exact h.congr fun p => by simp
  | some p =>
    obtain ⟨hgrows, hmem⟩ := visitFile_grows t a.includeDirs a.opened a.files p
    simp only
    cases hfailure : (visitFile t a.includeDirs a.opened a.files p).failure with
    | some e => exact (h.grows hgrows e.opened).congr fun q => by simp
    | none =>
      have htracks := (h.grows hgrows a.opened).markMain (hmem hfailure)
      exact htracks.congr fun q => by simp [eq_comm]

theorem includeDirs_loadMain (t : FileTree) (a : Importer) (text : String) :
    (a.loadMain t text).1.includeDirs = a.includeDirs := by
  unfold Importer.loadMain
  split
  · rfl
  · simp only
    split <;> rfl

end Importer

namespace Resolver

variable {s : Resolver} {a : Importer} {M : Path → Prop}

/-- The state of loading with a ledger behind any calls. -/
theorem loadEach_tracks (h : s.Records a) (ha : a.Tracks t M) (texts : List String) :
    ∃ b : Importer, b.includeDirs = a.includeDirs ∧ (s.loadEach t texts).1.Records b ∧
      b.Tracks t fun p => M p ∨ ∃ text, (text, none) ∈ texts.zip (s.loadEach t texts).2 ∧
        t.resolve? .root text = some p := by
  induction texts generalizing s a M with
  | nil => exact ⟨a, rfl, h, ha.congr fun p => by simp [loadEach]⟩
  | cons text texts ih =>
    obtain ⟨hrecords, hresult⟩ := h.loadMain ha.ordered text
    obtain ⟨b, hdirs, hb, htracks⟩ := ih hrecords (ha.loadMain text)
    refine ⟨b, hdirs.trans (a.includeDirs_loadMain t text), hb, htracks.congr fun p => ?_⟩
    rw [← hresult, loadEach]
    simp only [List.zip_cons_cons, List.mem_cons, Prod.mk.injEq]
    constructor
    · rintro ((hM | ⟨hok, hp⟩) | ⟨text', hok, hp⟩)
      · exact .inl hM
      · exact .inr ⟨text, .inl ⟨rfl, hok.symm⟩, hp⟩
      · exact .inr ⟨text', .inr hok, hp⟩
    · rintro (hM | ⟨text', ⟨rfl, hok⟩ | hok, hp⟩)
      · exact .inl (.inl hM)
      · exact .inl (.inr ⟨hok.symm, hp⟩)
      · exact .inr ⟨text', hok, hp⟩

/-- A call only adds modules and marks some as modules of a main file. -/
theorem promotes_loadMain (h : s.Records a) (ha : Ordered t a.includeDirs a.files) (text : String) :
    Promotes s.ledger.modules (s.loadMain t text).1.ledger.modules := by
  obtain ⟨hrecords, -⟩ := h.loadMain ha text
  rw [h.ledger.modules, hrecords.ledger.modules]
  unfold Importer.loadMain
  cases t.resolve? .root text with
  | none => simpa using Promotes.append (a.files.flatMap (·.loadedModules)) []
  | some p =>
    obtain ⟨added, hadded, -⟩ :=
      (visitFile_grows t a.includeDirs a.opened a.files p).1.exists_added
    simp only
    cases (visitFile t a.includeDirs a.opened a.files p).failure with
    | some e =>
      rw [hadded, List.flatMap_append]
      exact Promotes.append _ _
    | none =>
      have hsplit : Importer.markMain p (a.files ++ added) =
          Importer.markMain p a.files ++ Importer.markMain p added := List.map_append
      simp only [hadded, hsplit, List.flatMap_append]
      exact ⟨_, _, rfl, forall₂_markMain p a.files⟩

end Resolver

/-- **Bookkeeping survives failures.**  Main files are loaded one after the other from any tree of
files, whether some of them fail or not.  Then the parts of the ledger agree with each other and with
the files; a module is marked as one of a main file exactly if a call that succeeded has named its
file; and the next call only adds modules behind the others and marks some of them. -/
theorem bookkeeping_survives_failures (t : FileTree) (dirs texts : List String) :
    ((Resolver.start dirs).loadEach t texts).1.ledger.Balanced t dirs ∧
      (∀ m ∈ ((Resolver.start dirs).loadEach t texts).1.ledger.modules, m.isMain = true ↔
        ∃ text, (text, none) ∈ texts.zip ((Resolver.start dirs).loadEach t texts).2 ∧
          t.resolve? .root text = some m.path) ∧
      ∀ text, Promotes ((Resolver.start dirs).loadEach t texts).1.ledger.modules
        (((Resolver.start dirs).loadEach t texts).1.loadMain t text).1.ledger.modules := by
  obtain ⟨a, hdirs, hrecords, htracks⟩ :=
    Resolver.loadEach_tracks (.start dirs) (Importer.Tracks.start t dirs) texts
  have hdirs : a.includeDirs = dirs := hdirs
  refine ⟨hrecords.ledger.balanced (hdirs ▸ htracks.ordered), fun m hm => ?_,
    Resolver.promotes_loadMain hrecords htracks.ordered⟩
  rw [hrecords.ledger.modules] at hm
  obtain ⟨f, hf, hm⟩ := List.mem_flatMap.1 hm
  obtain ⟨n, -, rfl⟩ := List.mem_map.1 hm
  exact (htracks.marked f hf).trans (by simp)

/-- A file that imports another one, and one besides that does not exist. -/
def kettleFiles : FileTree :=
  ⟨[(⟨["plate.yaml"]⟩, .text "modules: [\x7bname: Plate\x7d]"),
    (⟨["kettle.yaml"]⟩, .text "imports: [plate.yaml, gone.yaml]")]⟩

/-- A call fails, but what it has loaded stays, and a later call finds it. -/
theorem bookkeeping_survives_failures_kettle :
    ∃ s plate, (Resolver.start []).loadEach kettleFiles ["kettle.yaml", "plate.yaml"] =
        (s, [some (.importNotFound "gone.yaml" ⟨["kettle.yaml"]⟩), none]) ∧
      plate.name = "Plate" ∧ s.ledger.modules = [⟨plate, ⟨["plate.yaml"]⟩, true⟩] ∧
      s.ledger.indices = [(⟨["plate.yaml"]⟩, [0])] ∧ s.ledger.Balanced kettleFiles [] ∧
      (∃ text, (text, none) ∈ ["kettle.yaml", "plate.yaml"].zip
          [some (LoadError.importNotFound "gone.yaml" ⟨["kettle.yaml"]⟩), none] ∧
        kettleFiles.resolve? .root text = some ⟨["plate.yaml"]⟩) ∧
      Promotes s.ledger.modules (s.loadMain kettleFiles "kettle.yaml").1.ledger.modules := by
  obtain ⟨plate, hplate, hplateImports, hplateNames⟩ :=
    SchemaFile.exists_load (t := kettleFiles) ⟨["plate.yaml"]⟩ [] ["Plate"] (by decide +kernel)
  obtain ⟨kettle, hkettle, hkettleImports, -⟩ :=
    SchemaFile.exists_load (t := kettleFiles) ⟨["kettle.yaml"]⟩ ["plate.yaml", "gone.yaml"] []
      (by decide +kernel)
  obtain ⟨m, hmodules, hname⟩ := List.map_eq_singleton_iff.1 hplateNames
  have hfound : resolveImport? kettleFiles [] ⟨["kettle.yaml"]⟩ "plate.yaml" =
      some ⟨["plate.yaml"]⟩ := rfl
  have hgone : resolveImport? kettleFiles [] ⟨["kettle.yaml"]⟩ "gone.yaml" = none := rfl
  have hkettleMain : kettleFiles.resolve? .root "kettle.yaml" = some ⟨["kettle.yaml"]⟩ := rfl
  have hplateMain : kettleFiles.resolve? .root "plate.yaml" = some ⟨["plate.yaml"]⟩ := rfl
  have hvisitPlate : Ledger.visitFile kettleFiles [] [⟨["kettle.yaml"]⟩] .empty ⟨["plate.yaml"]⟩ =
      ⟨⟨[⟨["plate.yaml"]⟩], [⟨m, ⟨["plate.yaml"]⟩, false⟩], [(⟨["plate.yaml"]⟩, [0])]⟩, none⟩ := by
    rw [Ledger.visitFile_of_ok (by decide) List.not_mem_nil hplate]
    simp [hplateImports, hmodules, Ledger.visitImports, Ledger.enter, Ledger.addModules,
      Ledger.empty, Keyed.put]
  have hvisitKettle : Ledger.visitFile kettleFiles [] [] .empty ⟨["kettle.yaml"]⟩ =
      ⟨⟨[⟨["plate.yaml"]⟩], [⟨m, ⟨["plate.yaml"]⟩, false⟩], [(⟨["plate.yaml"]⟩, [0])]⟩,
        some ⟨.importNotFound "gone.yaml" ⟨["kettle.yaml"]⟩, [⟨["kettle.yaml"]⟩]⟩⟩ := by
    rw [Ledger.visitFile_of_ok List.not_mem_nil List.not_mem_nil hkettle]
    simp [hkettleImports, Ledger.visitImports, hfound, hgone, hvisitPlate]
  have hs : (Resolver.start []).loadEach kettleFiles ["kettle.yaml", "plate.yaml"] =
      (⟨[], [⟨["kettle.yaml"]⟩], ⟨[⟨["plate.yaml"]⟩], [⟨m, ⟨["plate.yaml"]⟩, true⟩],
        [(⟨["plate.yaml"]⟩, [0])]⟩⟩,
      [some (.importNotFound "gone.yaml" ⟨["kettle.yaml"]⟩), none]) := by
    simp [Resolver.loadEach, Resolver.loadMain, Resolver.start, hkettleMain, hplateMain,
      hvisitKettle, Ledger.visitFile_of_mem_loaded, Ledger.markMain, LoadedModule.promote]
  obtain ⟨hbalanced, hmarked, hpromotes⟩ :=
    bookkeeping_survives_failures kettleFiles [] ["kettle.yaml", "plate.yaml"]
  rw [hs] at hbalanced hmarked hpromotes
  exact ⟨_, m, hs, hname, rfl, rfl, hbalanced, (hmarked _ List.mem_cons_self).1 rfl,
    hpromotes "kettle.yaml"⟩

end WireStub
