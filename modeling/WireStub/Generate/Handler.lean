import WireStub.Generate.Dispatch

/-!
# Request handlers

The handler of an endpoint reads the parameters of the request, calls the server function, and
writes the parameters of the response.

* `Endpoint.handler` is the handler.
-/

namespace WireStub

namespace WireParameter

/-- The codec call that moves a variable between a function and a buffer. -/
def transfer (h : Half) (b : Buffer) (p : WireParameter) : Statement :=
  .advance "offset" ⟨h, p.type, b.variableName, "offset", h.argument p.type p.name⟩

/-- The argument that a handler gives to the server function. -/
def serverArgument (r : Role) (p : WireParameter) : Argument :=
  ⟨if p.isPointer r then .address else .itself, p.name⟩

end WireParameter

namespace Endpoint

/-- The parameters that travel in the request. -/
def requestPart (e : Endpoint) (ps : List WireParameter) : List WireParameter :=
  ps.filter fun p => e.role.inRequest p.direction

/-- The parameters that travel in the response. -/
def responsePart (e : Endpoint) (ps : List WireParameter) : List WireParameter :=
  ps.filter fun p => e.role.inResponse p.direction

/-- The body of the handler.  An operation that returns nothing succeeds; any other returns its
status itself. -/
def handlerBody (o : Options) (status : String) (e : Endpoint) (returns : CType)
    (ps : List WireParameter) : List Statement :=
  [.startOffset true .request] ++
    ps.map (fun p => .declare p.type.name p.name) ++
    (e.requestPart ps).map (·.transfer .unmarshal .request) ++
    [.invoke (if e.isVoid then none else some returns.name) e.functionName
      (ps.map (·.serverArgument e.role))] ++
    [.startOffset false .response] ++
    (e.responsePart ps).map (·.transfer .marshal .response) ++
    [.setLength .response,
     .giveBack (if e.isVoid then o.successStatus else "(" ++ status ++ ")retval")]

/-- The handler of an endpoint. -/
def handler (o : Options) (status : String) (e : Endpoint) : Except RenderError Function := do
  let returns ← e.returnType
  let ps ← e.parameters
  .ok ⟨e.handlerSignature status, e.handlerBody o status returns ps⟩

end Endpoint

end WireStub
