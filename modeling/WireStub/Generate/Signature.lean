import WireStub.Code.Codec
import WireStub.Options
import WireStub.Role

/-!
# Signatures of endpoints

An endpoint has three functions: the server function that the user writes, the handler that calls it
for a request, and the stub by which a client makes the request.

* `Endpoint.serverSignature`, `Endpoint.handlerSignature` and `Endpoint.stubSignature`;
* `Endpoint.parameters` are the parameters with their C identifiers and types.
-/

namespace WireStub

/-- A parameter of an endpoint, ready for C. -/
structure WireParameter where
  /-- The C identifier. -/
  name : String
  type : CType
  direction : Direction
  deriving DecidableEq, Repr

namespace WireParameter

/-- Whether the parameter is a pointer under a role. -/
def isPointer (r : Role) (p : WireParameter) : Bool := r.byPointer p.direction p.type.isBase

/-- The C parameter under a role. -/
def toC (r : Role) (p : WireParameter) : CParameter := ⟨p.type.name, p.isPointer r, p.name⟩

end WireParameter

namespace Endpoint

/-- Whether the operation returns nothing. -/
def isVoid (e : Endpoint) : Bool := e.operation.returns.isVoid

/-- The C type that the operation returns. -/
def returnType (e : Endpoint) : Except RenderError CType := e.operation.returns.cType e.context

/-- The parameters with their C types, which are values. -/
def parameters (e : Endpoint) : Except RenderError (List WireParameter) :=
  e.operation.parameters.mapM fun p => do
    let c ← p.type.valueType (e.context ++ "::" ++ p.name)
    .ok ⟨Identifier.escape p.name, c, p.direction⟩

/-- The C parameters of the server function. -/
def cParameters (e : Endpoint) : Except RenderError (List CParameter) := do
  .ok ((← e.parameters).map (·.toC e.role))

/-- The exceptions of the operation, as the comment of a prototype lists them. -/
def raises (e : Endpoint) : List String := e.operation.raises.map Identifier.escapeQualified

/-- The signature of the server function. -/
def serverSignature (e : Endpoint) : Except RenderError Signature := do
  let c ← e.returnType
  .ok ⟨false, c.name, e.functionName, ← e.cParameters⟩

/-- The parameters of a handler: the buffers. -/
def handlerParameters : List CParameter :=
  [⟨"RequestMessageBuffer_t", false, "request"⟩, ⟨"ResponseMessageBuffer_t", false, "response"⟩]

/-- The signature of the handler, which returns a status. -/
def handlerSignature (status : String) (e : Endpoint) : Signature :=
  ⟨true, status, e.handlerName, handlerParameters⟩

/-- The parameter for the number of the instance. -/
def instanceParameter : CParameter := ⟨"uint16_t", false, "instanceNum"⟩

/-- The signature of the stub. -/
def stubSignature (o : Options) (e : Endpoint) : Except RenderError Signature := do
  let c ← e.returnType
  .ok ⟨false, c.name, e.stubName,
    (if o.stubInstanceArgument then [instanceParameter] else []) ++ (← e.cParameters)⟩

/-- The prototype of the server function. -/
def serverPrototype (e : Endpoint) : Except RenderError Prototype := do
  .ok ⟨false, ← e.serverSignature, e.raises⟩

/-- The prototype of the handler. -/
def handlerPrototype (status : String) (e : Endpoint) : Prototype :=
  ⟨false, e.handlerSignature status, []⟩

/-- The prototype of the stub. -/
def stubPrototype (o : Options) (e : Endpoint) : Except RenderError Prototype := do
  .ok ⟨false, ← e.stubSignature o, e.raises⟩

end Endpoint

end WireStub
