/-!
# Signatures

The heads of C functions, as data: a prototype and the definition that belongs to it are written
from the same `Signature`.
-/

namespace WireStub

/-- A parameter of a C function. -/
structure CParameter where
  type : String
  isPointer : Bool
  name : String
  deriving DecidableEq, Repr

/-- `T name`, or `T *name` for a pointer. -/
def CParameter.text (p : CParameter) : String :=
  p.type ++ " " ++ (if p.isPointer then "*" else "") ++ p.name

/-- The head of a C function. -/
structure Signature where
  /-- The function is visible in its file only. -/
  isStatic : Bool
  returns : String
  name : String
  parameters : List CParameter
  deriving DecidableEq, Repr

namespace Signature

/-- The list of parameters, or `void`. -/
def parameterText (ps : List CParameter) : String :=
  if ps.isEmpty then "void" else String.intercalate ", " (ps.map (·.text))

/-- The text of a signature. -/
def text (s : Signature) : String :=
  (if s.isStatic then "static " else "") ++ s.returns ++ " " ++ s.name ++ "(" ++
    parameterText s.parameters ++ ")"

end Signature

/-- A prototype: a signature, and the exceptions that its comment lists. -/
structure Prototype where
  isExtern : Bool
  signature : Signature
  raises : List String
  deriving DecidableEq, Repr

/-- The text of a prototype. -/
def Prototype.text (p : Prototype) : String :=
  (if p.isExtern then "extern " else "") ++ p.signature.text ++
    (if p.raises.isEmpty then ""
     else " /* raises (" ++ String.intercalate ", " p.raises ++ ") */") ++
    ";"

end WireStub
