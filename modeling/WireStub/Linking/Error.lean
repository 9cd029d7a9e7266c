import WireStub.ScopedName

/-!
# Faults of linking

`LinkError` lists the reasons for which a module does not link, and `LinkError.message` words them.
-/

namespace WireStub

/-- Why a module does not link. -/
inductive LinkError where
  /-- No visible declaration has the referenced name. -/
  | unknownType (name : String) (context : ScopedName)
  /-- The name is declared already. -/
  | duplicateDeclaration (name : ScopedName)
  /-- A type is declared within an operation. -/
  | inlineNotAllowed (name : String) (context : ScopedName)
  /-- A declaration in the scope has no name. -/
  | emptyName (scope : ScopedName)
  /-- The module has no name. -/
  | unnamedModule
  deriving DecidableEq, Repr

namespace LinkError

/-- The wording of a fault. -/
def message : LinkError → String
  | unknownType name context =>
    "unknown type '" ++ name ++ "' referenced from '" ++ context.display ++ "'"
  | duplicateDeclaration name => "duplicate declaration '" ++ name.display ++ "'"
  | inlineNotAllowed name context =>
    "inline type '" ++ name ++ "' is not allowed in '" ++ context.display ++ "'"
  | emptyName scope => "empty name in declaration within '" ++ scope.display ++ "'"
  | unnamedModule => "empty name in declaration within '<schema>'"

end LinkError

end WireStub
