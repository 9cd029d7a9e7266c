/-!
# Faults of generation

`RenderError` lists the reasons for which a module has no C code, and `RenderError.message` words
them.  The context is the name of a declaration, member, operation or parameter.
-/

namespace WireStub

/-- Why a module has no C code. -/
inductive RenderError where
  | unlinkedReference (name context : String)
  /-- A value has the type `void`. -/
  | voidValue (context : String)
  /-- The dimension with this index is 0. -/
  | emptyDimension (context : String) (index : Nat)
  /-- The declaration is not linked. -/
  | unscopedDeclaration (context : String)
  /-- A struct without members, or an enum without enumerators. -/
  | emptyDeclaration (context : String)
  /-- Two operations have the same code or the same handler. -/
  | duplicateDispatchCase (code context : String)
  deriving DecidableEq, Repr

/-- The wording of a fault. -/
def RenderError.message : RenderError → String
  | unlinkedReference name context =>
    "'" ++ context ++ "': reference to '" ++ name ++ "' is not linked to a declaration"
  | voidValue context => "'" ++ context ++ "': void is not a value type"
  | emptyDimension context index =>
    "'" ++ context ++ "': dimension " ++ toString index ++ " has size 0"
  | unscopedDeclaration context => "'" ++ context ++ "': declaration has no scoped name"
  | emptyDeclaration context => "'" ++ context ++ "': constructed type has no members"
  | duplicateDispatchCase code context =>
    "'" ++ context ++ "': dispatch code '" ++ code ++ "' or its handler is generated twice"

end WireStub
