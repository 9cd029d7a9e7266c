import WireStub.Import.Error
import WireStub.Schema.Reading
import WireStub.Yaml.Document

/-!
# Importing files

A schema file may import others, which are found beside it or in the include directories.  A file is
loaded once, behind the files that it imports.

* `resolveImport?` finds the file that an import means;
* `visitFile` loads a file with its imports, depth first;
* `Importer.loadMain` loads a main file.  When it fails, the files that were loaded before the fault
  stay loaded, and the files that were open at the fault stay open.
-/

namespace WireStub

/-- The schema file that a text holds. -/
def SchemaFile.parse? (text : String) : Option SchemaFile := (Yaml.read? text).bind SchemaFile.read?

/-- The schema file at a place. -/
def SchemaFile.load (t : FileTree) (p : Path) : Except LoadError SchemaFile :=
  match t.readText? p with
  | none => .error (.unreadable p.display)
  | some text =>
    match SchemaFile.parse? text with
    | none => .error (.malformed p)
    | some f => .ok f

theorem SchemaFile.mem_textFiles_of_load {t : FileTree} {p : Path} {f : SchemaFile}
    (h : SchemaFile.load t p = .ok f) : p ∈ t.textFiles := by
  unfold SchemaFile.load at h
  split at h
  · cases h
  · exact FileTree.mem_textFiles_of_readText? ‹_›

/-- A file that was loaded. -/
structure LoadedFile where
  path : Path
  modules : List Module
  /-- The file was named by the user and not only imported. -/
  isMain : Bool

/-- A module and the file that it comes from. -/
structure LoadedModule where
  module : Module
  path : Path
  /-- The file was named by the user and not only imported. -/
  isMain : Bool

/-- The modules of a file. -/
def LoadedFile.loadedModules (f : LoadedFile) : List LoadedModule :=
  f.modules.map fun m => ⟨m, f.path, f.isMain⟩

/-- The file that an import means: beside the importing file, or else in the first include directory
that has it. -/
def resolveImport? (t : FileTree) (includeDirs : List String) (base : Path) (name : String) :
    Option Path :=
  match t.resolve? base.parent name with
  | some p => some p
  | none => includeDirs.findSome? fun dir => t.resolve? .root (Path.joinText dir name)

/-- Why a visit ended early, and the files that were open then. -/
structure VisitFailure where
  fault : LoadError
  opened : List Path

/-- The files loaded by a visit and before it, and why it ended early, if it did. -/
structure Visit where
  files : List LoadedFile
  failure : Option VisitFailure

/-- The number of text files that are not open: it bounds the depth of imports. -/
def unopened (t : FileTree) (opened : List Path) : Nat :=
  (t.textFiles.filter fun p => !opened.contains p).length

theorem unopened_append_lt {t : FileTree} {opened : List Path} {p : Path} (hp : p ∈ t.textFiles)
    (ho : p ∉ opened) : unopened t (opened ++ [p]) < unopened t opened := by
  have hsub : t.textFiles.filter (fun q => !(opened ++ [p]).contains q) =
      (t.textFiles.filter fun q => !opened.contains q).filter (· != p) := by
    rw [List.filter_filter]
    congr 1
    funext q
    by_cases hq : q = p <;> simp [hq]
  rw [unopened, unopened, hsub]
  refine List.length_filter_lt_length_iff_exists.2 ⟨p, ?_, by simp⟩
  simpa using ⟨hp, ho⟩

mutual

/-- Loads the file at a place behind its imports, unless it is loaded already.  `opened` are the
files that are being loaded; a file among them imports itself. -/
def visitFile (t : FileTree) (includeDirs : List String) (opened : List Path)
    (files : List LoadedFile) (p : Path) : Visit :=
  if p ∈ opened then ⟨files, some ⟨.importCycle p, opened⟩⟩
  else if files.any (·.path == p) then ⟨files, none⟩
  else
    match _loaded : SchemaFile.load t p with
    | .error e => ⟨files, some ⟨e, opened⟩⟩
    | .ok f =>
      let v := visitImports t includeDirs (opened ++ [p]) files p f.imports
      match v.failure with
      | some e => ⟨v.files, some e⟩
      | none => ⟨v.files ++ [⟨p, f.modules, false⟩], none⟩
termination_by (unopened t opened, 0)
decreasing_by
  exact Prod.Lex.left _ _ (unopened_append_lt (SchemaFile.mem_textFiles_of_load _loaded) ‹_›)

/-- Loads the imports of the file `base`, one after the other. -/
def visitImports (t : FileTree) (includeDirs : List String) (opened : List Path)
    (files : List LoadedFile) (base : Path) : List String → Visit
  | [] => ⟨files, none⟩
  | name :: names =>
    match resolveImport? t includeDirs base name with
    | none => ⟨files, some ⟨.importNotFound name base, opened⟩⟩
    | some p =>
      let v := visitFile t includeDirs opened files p
      match v.failure with
      | some e => ⟨v.files, some e⟩
      | none => visitImports t includeDirs opened v.files base names
termination_by names => (unopened t opened, names.length + 1)

end

/-- The state of loading: what is loaded, and the files that a failure left open. -/
structure Importer where
  includeDirs : List String
  files : List LoadedFile
  opened : List Path

namespace Importer

/-- The state before any file is loaded. -/
def start (includeDirs : List String) : Importer := ⟨includeDirs, [], []⟩

/-- The loaded modules: file by file, imports first. -/
def modules (s : Importer) : List LoadedModule := s.files.flatMap (·.loadedModules)

/-- Marks the file at a place as a main file. -/
def markMain (p : Path) (files : List LoadedFile) : List LoadedFile :=
  files.map fun f => if f.path = p then { f with isMain := true } else f

/-- Loads a main file: the state behind it, and why it failed, if it did. -/
def loadMain (t : FileTree) (s : Importer) (text : String) : Importer × Option LoadError :=
  match t.resolve? .root text with
  | none => (s, some (.unreadable text))
  | some p =>
    let v := visitFile t s.includeDirs s.opened s.files p
    match v.failure with
    | some e => ({ s with files := v.files, opened := e.opened }, some e.fault)
    | none => ({ s with files := markMain p v.files }, none)

/-- Loads main files one after the other; the first that fails ends the loading. -/
def loadMains (t : FileTree) (s : Importer) : List String → Except LoadError Importer
  | [] => .ok s
  | text :: texts =>
    match s.loadMain t text with
    | (_, some e) => .error e
    | (s, none) => s.loadMains t texts

end Importer

end WireStub
