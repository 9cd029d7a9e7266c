import WireStub.Schema.Basic

/-!
# Roles of operations

An operation of an attribute interface stands for an attribute, which is read, written, or both.

* `Role` is the way in which an operation is generated: as declared, or as a getter or a setter;
* `Interface.rolesOf` lists the roles of an operation, and `Module.endpoints` pairs every operation
  with its roles;
* `Role.inRequest`, `Role.inResponse` and `Role.byPointer` say how a parameter travels.
-/

namespace WireStub

/-- How an operation is generated. -/
inductive Role where
  /-- As declared. -/
  | plain
  /-- Reads an attribute. -/
  | getter
  /-- Writes an attribute. -/
  | setter
  deriving DecidableEq, Repr

namespace Role

/-- What is put before the name of the operation. -/
def affix : Role → String
  | plain => ""
  | getter => "get_"
  | setter => "set_"

/-- The parameter travels to the callee. -/
def inRequest : Role → Direction → Bool
  | setter, _ => true
  | plain, d | getter, d => d.isIn

/-- The parameter travels back to the caller. -/
def inResponse : Role → Direction → Bool
  | _, .input => false
  | setter, .output => false
  | _, _ => true

/-- The parameter is a pointer.  A setter does not change its arguments. -/
def byPointer : Role → Direction → Bool → Bool
  | setter, _, isBase => !isBase
  | plain, d, isBase | getter, d, isBase => !isBase || d.isOut

end Role

namespace Operation

/-- An attribute can be read if some parameter comes back. -/
def hasGetter (o : Operation) : Bool := o.parameters.any (·.direction.isOut)

/-- An attribute can be written if some parameter travels both ways, or none comes back. -/
def hasSetter (o : Operation) : Bool :=
  o.parameters.any (·.direction == .inout) || !o.hasGetter

end Operation

/-- The roles of an operation in an interface, the getter before the setter. -/
def Interface.rolesOf (i : Interface) (o : Operation) : List Role :=
  if !i.isAttributes then [.plain]
  else (if o.hasGetter then [.getter] else []) ++ (if o.hasSetter then [.setter] else [])

/-- An operation under one of its roles: one function of the server and one of the client. -/
structure Endpoint where
  interface : Interface
  operation : Operation
  role : Role

/-- The endpoints of an interface, in the order of the operations. -/
def Interface.endpoints (i : Interface) : List Endpoint :=
  i.operations.flatMap fun o => (i.rolesOf o).map fun r => ⟨i, o, r⟩

/-- The endpoints of a module, interface by interface. -/
def Module.endpoints (m : Module) : List Endpoint := m.interfaces.flatMap (·.endpoints)

namespace Endpoint

/-- The name of the server function. -/
def functionName (e : Endpoint) : String := e.role.affix ++ e.operation.name

/-- The name of the request handler. -/
def handlerName (e : Endpoint) : String := e.functionName ++ "_unmarshal"

/-- The name of the client stub. -/
def stubName (e : Endpoint) : String := e.interface.name ++ "_stub" ++ e.functionName

/-- The name of the operation in messages. -/
def context (e : Endpoint) : String :=
  (if e.interface.path.isRoot then e.interface.name else e.interface.path.display) ++ "::" ++
    e.operation.name

/-- The code of the operation among the services. -/
def serviceCode (e : Endpoint) : String := "k_SC_" ++ e.operation.name

/-- The code of the operation among the attributes. -/
def attributeCode (e : Endpoint) : String := "k_AC_" ++ e.operation.name

/-- The code of the interface. -/
def classCode (e : Endpoint) : String := "k_CC_" ++ e.interface.name

end Endpoint

end WireStub
