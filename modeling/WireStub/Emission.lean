import WireStub.Generate.CUnit
import WireStub.Import.Schema

/-!
# Emission

The generated files of a schema are written to an output directory.  All main modules are rendered
before anything is written.

* `Schema.render` renders the units of all main modules;
* `writeAll` writes files, up to the first that cannot be written;
* `Schema.emit` renders a schema and writes it; `EmissionError` says why it failed.
-/

namespace WireStub

/-- Why a schema is not emitted. -/
inductive EmissionError where
  /-- A module has no C code. -/
  | render (fault : RenderError)
  /-- A directory cannot be made, or a file cannot be written. -/
  | inaccessible (path : String)
  deriving DecidableEq, Repr

/-- The wording of a fault. -/
def EmissionError.message : EmissionError → String
  | .render fault => fault.message
  | .inaccessible path => "failed to access '" ++ path ++ "':"

/-- The path text of a generated file in an output directory. -/
def GeneratedFile.path (dir : String) (f : GeneratedFile) : String := Path.joinText dir f.name

/-- What an emission leaves behind: the files, and the path texts that were written or the fault. -/
structure Emission where
  tree : FileTree
  outcome : Except EmissionError (List String)

/-- Writes files into a directory; the first that cannot be written ends the writing. -/
def writeAll (t : FileTree) (dir : String) : List GeneratedFile → Emission
  | [] => ⟨t, .ok []⟩
  | f :: fs =>
    match t.write? (f.path dir) (.text f.contents) with
    | none => ⟨t, .error (.inaccessible (f.path dir))⟩
    | some t =>
      let e := writeAll t dir fs
      ⟨e.tree, e.outcome.map (f.path dir :: ·)⟩

/-- Makes the output directory and writes files into it. -/
def writeInto (t : FileTree) (dir : String) (fs : List GeneratedFile) : Emission :=
  match t.makeDirs dir with
  | (t, false) => ⟨t, .error (.inaccessible dir)⟩
  | (t, true) => writeAll t dir fs

namespace Schema

/-- The units of all main modules, in the order in which they are written. -/
def render (o : Options) (s : Schema) : Except RenderError (List GeneratedFile) :=
  (s.mainModules.mapM fun (m : LoadedModule) => m.module.render o).map List.flatten

/-- Renders a schema and writes it to an output directory.  When a module has no C code, nothing is
written. -/
def emit (o : Options) (s : Schema) (t : FileTree) (dir : String) : Emission :=
  match s.render o with
  | .error e => ⟨t, .error (.render e)⟩
  | .ok fs => writeInto t dir fs

end Schema

end WireStub
