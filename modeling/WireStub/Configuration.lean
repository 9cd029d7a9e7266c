import WireStub.FileTree
import WireStub.Options
import WireStub.Yaml.Document

/-!
# Configuration files

Generator options are read from a file.

* `Options.load` reads the file at a path text; `ConfigurationError` says why it failed.
-/

namespace WireStub

/-- Why a configuration file is not read. -/
inductive ConfigurationError where
  /-- The file does not exist, or it is no text. -/
  | inaccessible (path : String)
  /-- The file holds no options. -/
  | invalid (path : String)
  deriving DecidableEq, Repr

/-- The wording of a fault. -/
def ConfigurationError.message : ConfigurationError → String
  | .inaccessible path => "failed to access '" ++ path ++ "':"
  | .invalid path => "invalid generator configuration '" ++ path ++ "':"

namespace Options

/-- The options that a text holds. -/
def parse? (text : String) : Option Options := (Yaml.read? text).bind read?

/-- Reads the configuration file at a path text. -/
def load (t : FileTree) (path : String) : Except ConfigurationError Options :=
  match (t.resolve? .root path).bind t.readText? with
  | none => .error (.inaccessible path)
  | some text =>
    match parse? text with
    | none => .error (.invalid path)
    | some o => .ok o

end Options

end WireStub
