import WireStub.Proofs.Import.Linking
import WireStub.Proofs.Import.Recording

/-!
# Loading from memory

A schema without imports can be loaded from its file or from a text in memory.  The first way opens the
file, records it among the loaded files, finds its modules again by their indices and marks them; the
second takes the modules as they are read.

* `Importer.loadMains_single` loads a single file that imports nothing, and
  `Resolver.loadMain_single` what is recorded of it;
* `Schema.Alike` says how results of both ways correspond;
* `Schema.file_and_text_load_alike` is the main statement.
-/

namespace WireStub

variable {t : FileTree} {dirs : List String} {name text : String} {p : Path} {f : SchemaFile}

namespace SchemaFile

theorem load_of_parse (htext : t.readText? p = some text) (hparse : parse? text = some f) :
    load t p = .ok f := by
  simp only [load, htext, hparse]

theorem load_of_malformed (htext : t.readText? p = some text) (hparse : parse? text = none) :
    load t p = .error (.malformed p) := by
  simp only [load, htext, hparse]

end SchemaFile

/-! ### A single file -/

namespace Importer

/-- A file that imports nothing is loaded alone, as a main file. -/
theorem loadMain_single (dirs : List String) (hplace : t.resolve? .root name = some p)
    (hload : SchemaFile.load t p = .ok f) (himports : f.imports = []) :
    (start dirs).loadMain t name = (⟨dirs, [⟨p, f.modules, true⟩], []⟩, none) := by
  have hvisit : visitFile t dirs [] [] p = ⟨[⟨p, f.modules, false⟩], none⟩ := by
    rw [visitFile_of_ok List.not_mem_nil List.not_mem_nil hload, himports, visitImports]
    rfl
  simp [loadMain, start, hplace, hvisit, markMain]

theorem loadMains_single (dirs : List String) (hplace : t.resolve? .root name = some p)
    (hload : SchemaFile.load t p = .ok f) (himports : f.imports = []) :
    (start dirs).loadMains t [name] = .ok ⟨dirs, [⟨p, f.modules, true⟩], []⟩ := by
  rw [loadMains, loadMain_single dirs hplace hload himports]
  rfl

/-- The fault of a file is that of loading it. -/
theorem loadMains_single_of_error (dirs : List String) {e : LoadError}
    (hplace : t.resolve? .root name = some p) (hload : SchemaFile.load t p = .error e) :
    (start dirs).loadMains t [name] = .error e := by
  have hvisit : visitFile t dirs [] [] p = ⟨[], some ⟨e, []⟩⟩ :=
    visitFile_of_error List.not_mem_nil List.not_mem_nil hload
  simp [loadMains, loadMain, start, hplace, hvisit]

end Importer

/-- The ledger of a file that imports nothing holds its modules, all marked. -/
theorem Resolver.loadMain_single (dirs : List String) (hplace : t.resolve? .root name = some p)
    (hload : SchemaFile.load t p = .ok f) (himports : f.imports = []) :
    ((start dirs).loadMain t name).2 = none ∧
      ((start dirs).loadMain t name).1.ledger.modules = f.modules.map (⟨·, p, true⟩) := by
  obtain ⟨hrecords, hfault⟩ := (Records.start dirs).loadMain (t := t) .nil name
  rw [Importer.loadMain_single dirs hplace hload himports] at hrecords hfault
  refine ⟨hfault, hrecords.ledger.modules.trans ?_⟩
  simp [LoadedFile.loadedModules]

/-! ### Both ways -/

namespace Schema

/-- What loading a text without imports gives in two ways, with the modules recorded under the places
`p` and `q`: linked modules, all main and in the same order, or the fault of linking them, or that the
text is no schema. -/
inductive Alike (text : String) (p q : Path) : Except LoadError Schema → Except LoadError Schema → Prop
  | linked {f : SchemaFile} {ms : List Module} {u : SymbolTable} :
      SchemaFile.parse? text = some f → linkAll Module.link .empty f.modules = ⟨ms, u, .ok ()⟩ →
      Alike text p q (.ok ⟨ms.map (⟨·, p, true⟩)⟩) (.ok ⟨ms.map (⟨·, q, true⟩)⟩)
  | faulty {f : SchemaFile} {ms : List Module} {u : SymbolTable} {e : LinkError} :
      SchemaFile.parse? text = some f → linkAll Module.link .empty f.modules = ⟨ms, u, .error e⟩ →
      Alike text p q (.error (.link e)) (.error (.link e))
  | malformed : SchemaFile.parse? text = none →
      Alike text p q (.error (.malformed p)) (.error (.malformed q))

theorem load_single (dirs : List String) (hplace : t.resolve? .root name = some p)
    (hload : SchemaFile.load t p = .ok f) (himports : f.imports = []) :
    load t [name] dirs = ofModules (f.modules.map (⟨·, p, true⟩)) := by
  rw [load, Importer.loadMains_single dirs hplace hload himports]
  simp [Importer.modules, LoadedFile.loadedModules]

theorem ofText_single (q : Path) (hparse : SchemaFile.parse? text = some f) (himports : f.imports = []) :
    ofText text q = ofModules (f.modules.map (⟨·, q, true⟩)) := by
  simp only [ofText, hparse, himports]

/-- Modules that are recorded under two places link alike. -/
theorem alike_ofModules (p q : Path) (hparse : SchemaFile.parse? text = some f) :
    Alike text p q (ofModules (f.modules.map (⟨·, p, true⟩)))
      (ofModules (f.modules.map (⟨·, q, true⟩))) := by
  rw [ofModules_map, ofModules_map]
  cases hlink : linkAll Module.link .empty f.modules with
  | mk ms u outcome =>
    cases outcome with
    | error e => exact .faulty hparse hlink
    | ok _ => exact .linked hparse hlink

/-- **Files and texts load alike.**  A readable file without imports loads, whatever the include
directories, as its text does from memory: both give the same linked modules in the same order, all main
and each recorded under its own place, or both the same fault of linking, or both say that they hold no
schema.  The modules that are recorded while the file is loaded are those that are read, all of them
marked.  From memory, a text with imports fails at the first of them. -/
theorem file_and_text_load_alike (dirs : List String) (origin : Path)
    (hplace : t.resolve? .root name = some p) (htext : t.readText? p = some text) :
    ((∀ f, SchemaFile.parse? text = some f → f.imports = []) →
        Alike text p origin (load t [name] dirs) (ofText text origin)) ∧
      (∀ f, SchemaFile.parse? text = some f → f.imports = [] →
        ((Resolver.start dirs).loadMain t name).2 = none ∧
          ((Resolver.start dirs).loadMain t name).1.ledger.modules = f.modules.map (⟨·, p, true⟩)) ∧
      ∀ f imported others, SchemaFile.parse? text = some f → f.imports = imported :: others →
        ofText text origin = .error (.importNotFound imported origin) := by
  refine ⟨fun hnone => ?_, fun f hparse => ?_, fun f imported others hparse himports => ?_⟩
  · cases hparse : SchemaFile.parse? text with
    | none =>
      have hload := SchemaFile.load_of_malformed htext hparse
      rw [load, Importer.loadMains_single_of_error dirs hplace hload, ofText, hparse]
      exact .malformed hparse
    | some f =>
      have hload := SchemaFile.load_of_parse htext hparse
      have himports := hnone f hparse
      rw [load_single dirs hplace hload himports, ofText_single origin hparse himports]
      exact alike_ofModules p origin hparse
  · exact Resolver.loadMain_single dirs hplace (SchemaFile.load_of_parse htext hparse)
  · simp only [ofText, hparse, himports]

/-- A text with two modules of one name. -/
def twinText : String := "modules: [\x7bname: Twin\x7d, \x7bname: Twin\x7d]"

/-- A file with this text. -/
def twinFiles : FileTree := ⟨[(⟨["twin.yaml"]⟩, .text twinText)]⟩

theorem file_and_text_load_alike_twin :
    ∃ ms : List Module, twinFiles.resolve? .root "twin.yaml" = some ⟨["twin.yaml"]⟩ ∧
      twinFiles.readText? ⟨["twin.yaml"]⟩ = some twinText ∧
      load twinFiles ["twin.yaml"] ["lib"] = .ok ⟨ms.map (⟨·, ⟨["twin.yaml"]⟩, true⟩)⟩ ∧
      ofText twinText ⟨["memory"]⟩ = .ok ⟨ms.map (⟨·, ⟨["memory"]⟩, true⟩)⟩ ∧
      ms.map (·.name) = ["Twin", "Twin"] := by
  have hparse : (SchemaFile.parse? twinText).map (·.imports) = some [] := by decide +kernel
  have htext : (ofText twinText ⟨["memory"]⟩).toOption.map (·.modules.map (·.module.name)) =
      some ["Twin", "Twin"] := by decide +kernel
  obtain ⟨f, hf, himports⟩ := Option.map_eq_some_iff.1 hparse
  obtain ⟨s, hs, hnames⟩ := Option.map_eq_some_iff.1 htext
  have hnone : ∀ g, SchemaFile.parse? twinText = some g → g.imports = [] := by
    intro g hg
    rw [← Option.some.inj (hf.symm.trans hg), himports]
  have hplace : twinFiles.resolve? .root "twin.yaml" = some ⟨["twin.yaml"]⟩ := rfl
  have hread : twinFiles.readText? ⟨["twin.yaml"]⟩ = some twinText := rfl
  have halike := (file_and_text_load_alike ["lib"] ⟨["memory"]⟩ hplace hread).1 hnone
  rw [toOption_eq_some.1 hs] at halike ⊢
  generalize load twinFiles ["twin.yaml"] ["lib"] = loaded at halike ⊢
  cases halike with
  | @linked _ ms => exact ⟨ms, hplace, hread, rfl, rfl, by simpa [Function.comp_def] using hnames⟩

end Schema

end WireStub
