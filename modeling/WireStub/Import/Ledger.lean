import WireStub.Import.Importer

/-!
# The ledger of loaded files

While files are loaded, three things are recorded: which files are loaded, all their modules, and for
each file the indices of its modules.  A file is entered once its imports are, and a main file finds
its modules by their indices.

* `Ledger.enter` records a file, and `Ledger.markMain` marks its modules;
* `Ledger.visitFile` loads a file with its imports, depth first;
* `Resolver.loadMain` loads a main file, and `Resolver.loadEach` one after the other, going on behind
  those that fail.
-/

namespace WireStub

/-- What is recorded of the loaded files. -/
structure Ledger where
  /-- The files that are loaded. -/
  loaded : List Path
  /-- The modules of all files, imports first. -/
  modules : List LoadedModule
  /-- The places of the modules of each file. -/
  indices : List (Path × List Nat)

/-- A module as one of a main file. -/
def LoadedModule.promote (m : LoadedModule) : LoadedModule := { m with isMain := true }

namespace Ledger

/-- The ledger of no files. -/
def empty : Ledger := ⟨[], [], []⟩

/-- Adds the modules of the file at a place one after the other, and gives their indices. -/
def addModules (p : Path) (loaded : List LoadedModule) :
    List Module → List LoadedModule × List Nat
  | [] => (loaded, [])
  | m :: ms =>
    let (all, indices) := addModules p (loaded ++ [⟨m, p, false⟩]) ms
    (all, loaded.length :: indices)

/-- Enters the file at a place with its modules. -/
def enter (l : Ledger) (p : Path) (f : SchemaFile) : Ledger :=
  let (modules, indices) := addModules p l.modules f.modules
  ⟨l.loaded.insert p, modules, Keyed.put p indices l.indices⟩

/-- Marks the modules of the file at a place as those of a main file. -/
def markMain (p : Path) (l : Ledger) : Ledger :=
  match l.indices.lookup p with
  | none => l
  | some indices =>
    { l with modules := indices.foldl (fun ms i => ms.modify i LoadedModule.promote) l.modules }

/-- The ledger behind a visit, and why the visit ended early, if it did. -/
structure Visit where
  ledger : Ledger
  failure : Option VisitFailure

mutual

/-- Enters the file at a place behind its imports, unless it is loaded already.  `opened` are the
files that are being loaded; a file among them imports itself. -/
def visitFile (t : FileTree) (includeDirs : List String) (opened : List Path) (l : Ledger)
    (p : Path) : Visit :=
  if p ∈ opened then ⟨l, some ⟨.importCycle p, opened⟩⟩
  else if p ∈ l.loaded then ⟨l, none⟩
  else
    match _loaded : SchemaFile.load t p with
    | .error e => ⟨l, some ⟨e, opened⟩⟩
    | .ok f =>
      let v := visitImports t includeDirs (opened ++ [p]) l p f.imports
      match v.failure with
      | some e => ⟨v.ledger, some e⟩
      | none => ⟨v.ledger.enter p f, none⟩
termination_by (unopened t opened, 0)
decreasing_by
  exact Prod.Lex.left _ _ (unopened_append_lt (SchemaFile.mem_textFiles_of_load _loaded) ‹_›)

/-- Enters the imports of the file `base`, one after the other. -/
def visitImports (t : FileTree) (includeDirs : List String) (opened : List Path) (l : Ledger)
    (base : Path) : List String → Visit
  | [] => ⟨l, none⟩
  | name :: names =>
    match resolveImport? t includeDirs base name with
    | none => ⟨l, some ⟨.importNotFound name base, opened⟩⟩
    | some p =>
      let v := visitFile t includeDirs opened l p
      match v.failure with
      | some e => ⟨v.ledger, some e⟩
      | none => visitImports t includeDirs opened v.ledger base names
termination_by names => (unopened t opened, names.length + 1)

end

end Ledger

/-- The state of loading: the ledger, and the files that a failure left open. -/
structure Resolver where
  includeDirs : List String
  opened : List Path
  ledger : Ledger

namespace Resolver

/-- The state before any file is loaded. -/
def start (includeDirs : List String) : Resolver := ⟨includeDirs, [], .empty⟩

/-- Loads a main file: the state behind it, and why it failed, if it did. -/
def loadMain (t : FileTree) (s : Resolver) (text : String) : Resolver × Option LoadError :=
  match t.resolve? .root text with
  | none => (s, some (.unreadable text))
  | some p =>
    let v := Ledger.visitFile t s.includeDirs s.opened s.ledger p
    match v.failure with
    | some e => ({ s with opened := e.opened, ledger := v.ledger }, some e.fault)
    | none => ({ s with ledger := v.ledger.markMain p }, none)

/-- Loads main files one after the other, and tells of each why it failed, if it did. -/
def loadEach (t : FileTree) (s : Resolver) : List String → Resolver × List (Option LoadError)
  | [] => (s, [])
  | text :: texts =>
    let (s, result) := s.loadMain t text
    let (s, results) := s.loadEach t texts
    (s, result :: results)

end Resolver

end WireStub
