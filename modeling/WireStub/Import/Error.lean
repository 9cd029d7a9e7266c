import WireStub.Linking.Error
import WireStub.FileTree

/-!
# Faults of loading

`LoadError` lists the reasons for which a schema does not load, and `LoadError.message` words them.
-/

namespace WireStub

/-- Why a schema does not load. -/
inductive LoadError where
  /-- The file does not exist, or it is no text. -/
  | unreadable (path : String)
  /-- The file is no schema. -/
  | malformed (path : Path)
  /-- An import leads to no file. -/
  | importNotFound (name : String) (base : Path)
  /-- The file imports itself, directly or through others. -/
  | importCycle (path : Path)
  | link (fault : LinkError)
  deriving DecidableEq, Repr

/-- The wording of a fault. -/
def LoadError.message : LoadError → String
  | .unreadable path => "failed to read '" ++ path ++ "':"
  | .malformed path => "failed to parse '" ++ path.display ++ "':"
  | .importNotFound name base =>
    "import '" ++ name ++ "' not found relative to '" ++ base.display ++
      "' or in include directories"
  | .importCycle path => "circular import of '" ++ path.display ++ "'"
  | .link fault => fault.message

end WireStub
