import Mathlib.Data.List.ProdSigma
import WireStub.Proofs.Emission.Writing
import WireStub.Proofs.Generate.Faults
import WireStub.Proofs.Generate.FileNames
import WireStub.Proofs.Import.InMemory

/-!
# What an emission leaves in the output directory

An emission writes the units of all main modules one after the other.  A unit is lost if a later one is
written to the same place, and no fault tells of it: nothing compares the names of modules.

* `CUnit.Renders` relates a unit and its file, and `Schema.renders_of_render` the units of a schema and
  the files that are written;
* `Schema.Keeps` says that no unit is lost, and `Schema.keeps_iff_pairwise` that this depends on the
  places of the units;
* `Schema.emitted_units_kept_iff` is the conclusion: no unit is lost if and only if no main module has
  the name of another one with the ending of a unit behind it.
-/

namespace WireStub

/-! ### Rendered units -/

/-- A file is the rendered unit of a module. -/
def CUnit.Renders (o : Options) (unit : LoadedModule × CUnit) (f : GeneratedFile) : Prop :=
  f.name = unit.2.fileName unit.1.module.name ∧ unit.2.render o unit.1.module = .ok f.contents

/-- The units of all main modules, in the order in which they are written. -/
def Schema.units (s : Schema) : List (LoadedModule × CUnit) := s.mainModules ×ˢ CUnit.all

theorem Schema.mem_units {s : Schema} {m : LoadedModule} {u : CUnit} :
    (m, u) ∈ s.units ↔ m ∈ s.mainModules := by
  rw [units, List.mem_product, and_iff_left u.mem_all]

/-- The rendered files of a schema are its units, one by one. -/
theorem Schema.renders_of_render {s : Schema} {o : Options} {fs : List GeneratedFile}
    (h : s.render o = .ok fs) : List.Forall₂ (CUnit.Renders o) s.units fs := by
  obtain ⟨groups, hgroups, rfl⟩ := map_eq_ok.1 h
  have hgroups : List.Forall₂ (List.Forall₂ (CUnit.Renders o))
      (s.mainModules.map fun m => CUnit.all.map (m, ·)) groups := by
    rw [List.forall₂_map_left_iff]
    refine (mapM_eq_ok_iff.1 hgroups).imp fun m group hgroup => ?_
    rw [List.forall₂_map_left_iff]
    refine (mapM_eq_ok_iff.1 hgroup).imp fun u f hf => ?_
    obtain ⟨text, htext, hf⟩ := bind_eq_ok.1 hf
    cases hf
    exact ⟨rfl, htext⟩
  exact List.rel_flatten hgroups

/-- The rendered files have the file names of all units, module by module. -/
theorem Schema.map_name_of_render {s : Schema} {o : Options} {fs : List GeneratedFile}
    (h : s.render o = .ok fs) : fs.map (·.name) =
      (s.mainModules.map (·.module.name)).flatMap fun a => CUnit.all.map (·.fileName a) := by
  have hnames : s.units.map (fun unit => unit.2.fileName unit.1.module.name) = fs.map (·.name) := by
    rw [← List.forall₂_eq_eq_eq, List.forall₂_map_left_iff, List.forall₂_map_right_iff]
    exact (renders_of_render h).imp fun _ _ hf => hf.1.symm
  rw [← hnames, units, List.flatMap_map]
  simp [SProd.sprod, List.product, List.map_flatMap, Function.comp_def]

/-! ### Written files -/

section Writing

variable {t t' : FileTree} {dir : String} {f : GeneratedFile} {fs : List GeneratedFile}

theorem textAt?_of_place? {p : Path} (hp : f.place? t dir = some p) :
    t.textAt? (f.path dir) = t.readText? p := by
  rw [FileTree.textAt?, show t.resolve? .root (f.path dir) = some p from hp, Option.bind_some]

/-- All files hold their contents in the end exactly if files at the same place have the same
contents. -/
theorem forall_textAt?_iff (h : Written dir t fs t') :
    (∀ f ∈ fs, t'.textAt? (f.path dir) = some f.contents) ↔
      fs.Pairwise fun f g => f.place? t' dir = g.place? t' dir → f.contents = g.contents := by
  constructor
  · intro hall
    refine List.pairwise_of_forall_mem_list fun f hf g hg hplace => ?_
    have htext : t'.textAt? (f.path dir) = t'.textAt? (g.path dir) :=
      congrArg (·.bind t'.readText?) hplace
    rw [hall f hf, hall g hg] at htext
    exact Option.some.inj htext
  · intro hsame
    induction fs generalizing t with
    | nil => exact fun f hf => nomatch hf
    | cons f fs ih =>
      obtain ⟨hf, hfs⟩ := List.pairwise_cons.1 hsame
      obtain ⟨t₁, hrest, p, hp, hlast⟩ := h.first
      have hkept := ih hrest hfs
      refine List.forall_mem_cons.2 ⟨?_, hkept⟩
      by_cases hlater : ∀ g ∈ fs, g.place? t' dir ≠ some p
      · rw [textAt?_of_place? hp, FileTree.readText?, hlast hlater]
      · -- a later file at the same place has the same contents
        push Not at hlater
        obtain ⟨g, hg, hgp⟩ := hlater
        rw [hf g hg (hp.trans hgp.symm), textAt?_of_place? hp, ← textAt?_of_place? hgp, hkept g hg]

end Writing

/-! ### Emitted schemas -/

/-- An emission that succeeds, as a whole. -/
theorem Emission.eq_of_outcome {e : Emission} {paths : List String}
    (h : e.outcome.toOption = some paths) : e = ⟨e.tree, .ok paths⟩ := by
  obtain ⟨tree, outcome⟩ := e
  obtain rfl := toOption_eq_some.1 h
  rfl

namespace Schema

/-- No unit is lost: every unit of a main module is found in its file, and no path text was written
twice. -/
structure Keeps (o : Options) (s : Schema) (dir : String) (t : FileTree) (paths : List String) :
    Prop where
  units : ∀ m ∈ s.mainModules, ∀ u : CUnit, ∃ text, u.render o m.module = .ok text ∧
    t.textAt? (Path.joinText dir (u.fileName m.module.name)) = some text
  nodup : paths.Nodup

variable {o : Options} {s : Schema} {t t' : FileTree} {dir : String} {paths : List String}
  {fs : List GeneratedFile}

/-- What is not rendered is not written. -/
theorem emit_of_render_error {e : RenderError} (h : s.render o = .error e) (t : FileTree)
    (dir : String) : s.emit o t dir = ⟨t, .error (.render e)⟩ := by
  rw [emit, h]

/-- What is rendered is written. -/
theorem writesInto_emit {fs : List GeneratedFile} (h : s.render o = .ok fs) (t : FileTree)
    (dir : String) : ∃ done, WritesInto t dir fs done (s.emit o t dir) := by
  rw [emit, h]
  exact writesInto_writeInto t dir fs

/-- A schema that is emitted is rendered first, then its files are written. -/
theorem exists_of_emit (h : s.emit o t dir = ⟨t', .ok paths⟩) :
    ∃ fs t₁, s.render o = .ok fs ∧ Written dir t₁ fs t' ∧ paths = fs.map (·.path dir) := by
  cases hrender : s.render o with
  | error e =>
    rw [emit_of_render_error hrender] at h
    cases h
  | ok fs =>
    obtain ⟨done, hdone⟩ := writesInto_emit hrender t dir
    rw [h] at hdone
    obtain ⟨rfl, rfl⟩ := hdone.of_ok rfl
    exact ⟨done, _, rfl, hdone.written, rfl⟩

theorem forall_units_iff (hrender : s.render o = .ok fs) :
    (∀ m ∈ s.mainModules, ∀ u : CUnit, ∃ text, u.render o m.module = .ok text ∧
      t'.textAt? (Path.joinText dir (u.fileName m.module.name)) = some text) ↔
      ∀ f ∈ fs, t'.textAt? (f.path dir) = some f.contents := by
  have hunits := renders_of_render hrender
  constructor
  · intro h f hf
    obtain ⟨⟨m, u⟩, hm, hname, htext⟩ := exists_left_of_forall₂ hunits hf
    obtain ⟨text, htext', hat⟩ := h m (mem_units.1 hm) u
    rw [GeneratedFile.path, hname, hat, Except.ok.inj (htext'.symm.trans htext)]
  · intro h m hm u
    obtain ⟨f, hf, hname, htext⟩ := exists_left_of_forall₂ hunits.flip (mem_units.2 hm)
    exact ⟨f.contents, htext, hname ▸ h f hf⟩

/-- No unit is lost exactly if no two units have the same path text, and units at the same place have
the same text. -/
theorem keeps_iff_pairwise (hrender : s.render o = .ok fs)
    (hwrite : Written dir t fs t') :
    s.Keeps o dir t' (fs.map (·.path dir)) ↔ fs.Pairwise fun f g => f.path dir ≠ g.path dir ∧
      (f.place? t' dir = g.place? t' dir → f.contents = g.contents) := by
  have hkeeps : s.Keeps o dir t' (fs.map (·.path dir)) ↔ (fs.map (·.path dir)).Nodup ∧
      ∀ f ∈ fs, t'.textAt? (f.path dir) = some f.contents := by
    rw [← forall_units_iff hrender]
    exact ⟨fun h => ⟨h.nodup, h.units⟩, fun h => ⟨h.2, h.1⟩⟩
  rw [hkeeps, forall_textAt?_iff hwrite, List.pairwise_and_iff, List.Nodup, List.pairwise_map]

/-- Rendered files have neither slashes nor special names if no main module has a slash in its name. -/
theorem plain_of_render (hrender : s.render o = .ok fs)
    (hslash : ∀ m ∈ s.mainModules, '/' ∉ m.module.name.toList) {f : GeneratedFile} (hf : f ∈ fs) :
    '/' ∉ f.name.toList ∧ f.name ∉ ["", ".", ".."] := by
  obtain ⟨⟨m, u⟩, hm, hname, -⟩ := exists_left_of_forall₂ (renders_of_render hrender) hf
  rw [hname]
  exact ⟨u.slash_not_mem_fileName (hslash m (mem_units.1 hm)), u.fileName_not_special _⟩

/-- Without slashes in their names, no unit is lost exactly if the names of the main modules are
apart. -/
theorem keeps_iff_apart (hrender : s.render o = .ok fs)
    (hwrite : Written dir t fs t')
    (hslash : ∀ m ∈ s.mainModules, '/' ∉ m.module.name.toList) :
    s.Keeps o dir t' (fs.map (·.path dir)) ↔ (s.mainModules.map (·.module.name)).Pairwise CUnit.Apart := by
  rw [keeps_iff_pairwise hrender hwrite, ← CUnit.nodup_fileNames_iff, ← map_name_of_render hrender,
    List.Nodup, List.pairwise_map]
  refine List.Pairwise.iff_of_mem fun {f g} hf hg => ?_
  obtain ⟨hfslash, hfname⟩ := plain_of_render hrender hslash hf
  obtain ⟨hgslash, hgname⟩ := plain_of_render hrender hslash hg
  have hpath : f.path dir = g.path dir → f.name = g.name := Path.eq_of_joinText_eq hfslash hgslash
  have hplace : f.place? t' dir = g.place? t' dir → f.name = g.name := by
    obtain ⟨p, hp⟩ := hwrite.exists_place hf
    intro h
    exact FileTree.eq_of_resolve?_joinText hfslash hgslash hfname hgname hp (h.symm.trans hp)
  constructor
  · intro h hname
    exact h.1 (congrArg (Path.joinText dir) hname)
  · intro h
    exact ⟨mt hpath h, fun heq => absurd (hplace heq) h⟩

end Schema

/-- **What an emission keeps.**  After an emission, every place holds what was written to it last.  So
no unit is lost if and only if no path text is that of two units, and units whose paths lead to the same
place have the same text.  Where no main module has a slash in its name, this is so if and only if no
main module has the name of another one with the ending of a unit behind it. -/
theorem Schema.emitted_units_kept_iff {o : Options} {s : Schema} {t t' : FileTree} {dir : String}
    {paths : List String} (h : s.emit o t dir = ⟨t', .ok paths⟩) :
    ∃ fs, s.render o = .ok fs ∧ paths = fs.map (·.path dir) ∧
      (∀ before f after, fs = before ++ f :: after →
        ∃ p, f.place? t' dir = some p ∧
          ((∀ g ∈ after, g.place? t' dir ≠ some p) → t'.entry? p = some (.text f.contents))) ∧
      (s.Keeps o dir t' paths ↔ fs.Pairwise fun f g => f.path dir ≠ g.path dir ∧
        (f.place? t' dir = g.place? t' dir → f.contents = g.contents)) ∧
      ((∀ m ∈ s.mainModules, '/' ∉ m.module.name.toList) →
        (s.Keeps o dir t' paths ↔
          (s.mainModules.map (·.module.name)).Pairwise CUnit.Apart)) := by
  obtain ⟨fs, t₁, hrender, hwrite, rfl⟩ := Schema.exists_of_emit h
  refine ⟨fs, hrender, rfl, ?_, Schema.keeps_iff_pairwise hrender hwrite,
    Schema.keeps_iff_apart hrender hwrite⟩
  rintro before f after rfl
  exact hwrite.last

/-- A module with a level, and one whose name starts like a unit of it. -/
def gaugeSchema : Schema :=
  let level : StructDecl := ⟨"Level", ⟨["Gauge", "Level"]⟩, [⟨"height", .primitive .float, [2]⟩]⟩
  ⟨[⟨⟨"Gauge", [.struct level], []⟩, ⟨["gauge.yaml"]⟩, true⟩,
    ⟨⟨"Gauge_stubs", [], []⟩, ⟨["gauge.yaml"]⟩, true⟩]⟩

theorem Schema.emitted_units_kept_iff_gauge :
    ∃ t' paths, gaugeSchema.emit {} .empty "out" = ⟨t', .ok paths⟩ ∧
      gaugeSchema.Keeps {} "out" t' paths := by
  have hok : (gaugeSchema.emit {} .empty "out").outcome.toOption.isSome := by decide +kernel
  obtain ⟨paths, hpaths⟩ := Option.isSome_iff_exists.1 hok
  have hemit := Emission.eq_of_outcome hpaths
  obtain ⟨fs, -, -, -, -, hkeeps⟩ := Schema.emitted_units_kept_iff hemit
  refine ⟨_, paths, hemit, (hkeeps ?_).2 ?_⟩
  · decide
  · refine List.pairwise_pair.2 fun u => ?_
    cases u <;> decide

/-- Modules without definitions and interfaces are known by their names. -/
theorem Module.eq_map_of_lengths {ms : List Module} {names : List String}
    (h : ms.map (fun m => (m.name, m.definitions.length, m.interfaces.length)) =
      names.map (·, 0, 0)) : ms = names.map fun name => ⟨name, [], []⟩ := by
  induction ms generalizing names with
  | nil => rw [List.map_eq_nil_iff.1 h.symm, List.map_nil]
  | cons m ms ih =>
    obtain ⟨name, names, rfl, hm, hms⟩ := List.map_eq_cons_iff.1 h.symm
    obtain ⟨_, _, _⟩ := m
    simp only [Prod.mk.injEq] at hm
    obtain ⟨rfl, hdefinitions, hinterfaces⟩ := hm
    rw [List.map_cons, ih hms.symm, List.length_eq_zero_iff.1 hdefinitions.symm,
      List.length_eq_zero_iff.1 hinterfaces.symm]

/-- A file that imports nothing, and whose modules are empty, loads as these modules. -/
theorem Schema.load_of_names {t : FileTree} {text : String} {p : Path} (names : List String)
    (hmain : t.resolve? .root text = some p)
    (hfields : (SchemaFile.load t p).toOption.map (fun f =>
      (f.imports, f.modules.map fun m => (m.name, m.definitions.length, m.interfaces.length))) =
        some ([], names.map (·, 0, 0))) :
    Schema.load t [text] [] =
      Schema.ofModules (names.map fun name => ⟨⟨name, [], []⟩, p, true⟩) := by
  obtain ⟨⟨imports, modules⟩, hfile, hfields⟩ := Option.map_eq_some_iff.1 hfields
  obtain ⟨rfl, hmodules⟩ := Prod.mk.inj hfields
  obtain rfl := Module.eq_map_of_lengths hmodules
  rw [Schema.load_single [] hmain (toOption_eq_some.1 hfile) rfl, List.map_map]
  rfl

/-- A file with a module, and a second one that is named like the stubs of the first. -/
def stubFiles : FileTree :=
  ⟨[(⟨["a.yaml"]⟩, .text "modules: [\x7bname: Demo\x7d, \x7bname: Demo_stub\x7d]")]⟩

/-- What the file holds. -/
def stubSchema : Schema :=
  ⟨[⟨⟨"Demo", [], []⟩, ⟨["a.yaml"]⟩, true⟩, ⟨⟨"Demo_stub", [], []⟩, ⟨["a.yaml"]⟩, true⟩]⟩

theorem load_stubFiles : Schema.load stubFiles ["a.yaml"] [] = .ok stubSchema := by
  rw [Schema.load_of_names (p := ⟨["a.yaml"]⟩) ["Demo", "Demo_stub"] rfl (by decide +kernel)]
  rfl

/-- The declarations of the second module take the place of the header of the first one's stubs. -/
theorem Schema.emission_loses_stub_header :
    Schema.load stubFiles ["a.yaml"] [] = .ok stubSchema ∧
      ∃ t' paths, stubSchema.emit {} stubFiles "out" = ⟨t', .ok paths⟩ ∧
        ¬stubSchema.Keeps {} "out" t' paths ∧ ¬paths.Nodup ∧
        ∃ text, CUnit.stubHeader.render {} ⟨"Demo", [], []⟩ = .ok text ∧
          t'.textAt? "out/Demo_stub.h" ≠ some text := by
  have hrun : (stubSchema.emit {} stubFiles "out").outcome.toOption.map (fun ps => decide ps.Nodup) =
        some false ∧
      (stubSchema.emit {} stubFiles "out").tree.textAt? "out/Demo_stub.h" ≠
        (CUnit.stubHeader.render {} ⟨"Demo", [], []⟩).toOption := by decide +kernel
  obtain ⟨houtcome, hlost⟩ := hrun
  obtain ⟨ps, hps, hdup⟩ := Option.map_eq_some_iff.1 houtcome
  have hdup : ¬ps.Nodup := of_decide_eq_false hdup
  have htext : ∃ text, CUnit.stubHeader.render {} ⟨"Demo", [], []⟩ = .ok text := ⟨_, rfl⟩
  obtain ⟨text, htext⟩ := htext
  rw [htext] at hlost
  exact ⟨load_stubFiles, _, ps, Emission.eq_of_outcome hps, fun hkeeps => hdup hkeeps.nodup, hdup,
    text, htext, hlost⟩

end WireStub
