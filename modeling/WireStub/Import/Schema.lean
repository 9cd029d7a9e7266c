import WireStub.Import.Importer
import WireStub.Linking.Basic

/-!
# Loading schemas

A schema is the list of the modules of the main files and of the files they import, linked.

* `Schema.load` loads main files from a file tree;
* `Schema.ofText` reads a single text, which may not import anything.
-/

namespace WireStub

/-- Loaded and linked modules, imports first. -/
structure Schema where
  modules : List LoadedModule

namespace Schema

/-- The modules of the main files. -/
def mainModules (s : Schema) : List LoadedModule := s.modules.filter (·.isMain)

/-- The place of the first module with a name. -/
def findModule? (s : Schema) (name : String) : Option Nat :=
  s.modules.findIdx? (·.module.name == name)

/-- Links the modules one after the other, from an empty symbol table. -/
def ofModules (ms : List LoadedModule) : Except LoadError Schema :=
  let l := linkAll (fun t (m : LoadedModule) =>
    (m.module.link t).mapPart fun module => { m with module := module }) .empty ms
  match l.outcome with
  | .error e => .error (.link e)
  | .ok _ => .ok ⟨l.part⟩

/-- Loads main files with their imports, and links all modules. -/
def load (t : FileTree) (mains includeDirs : List String) : Except LoadError Schema :=
  match (Importer.start includeDirs).loadMains t mains with
  | .error e => .error e
  | .ok s => ofModules s.modules

/-- Reads and links a text.  All its modules are main modules. -/
def ofText (text : String) (origin : Path) : Except LoadError Schema :=
  match SchemaFile.parse? text with
  | none => .error (.malformed origin)
  | some f =>
    match f.imports with
    | name :: _ => .error (.importNotFound name origin)
    | [] => ofModules (f.modules.map fun m => ⟨m, origin, true⟩)

end Schema

end WireStub
