import WireStub.Generate.Handler

/-!
# Client stubs

The stub of an endpoint writes the parameters of the request, sends it, and reads the parameters of
the response into the caller's variables.

* `Endpoint.stub` is the stub.
-/

namespace WireStub

namespace WireParameter

/-- The argument by which a stub writes a parameter: a base type by value, all else by pointer. -/
def requestArgument (r : Role) (p : WireParameter) : Argument :=
  match p.isPointer r, p.type.isBase with
  | true, true => ⟨.contents, p.name⟩
  | false, false => ⟨.address, p.name⟩
  | _, _ => ⟨.itself, p.name⟩

/-- The argument by which a stub reads a parameter. -/
def responseArgument (r : Role) (p : WireParameter) : Argument :=
  ⟨if p.isPointer r then .itself else .address, p.name⟩

end WireParameter

namespace Endpoint

/-- The codes that a stub puts into the request: the service, and the attribute. -/
def requestCodes (e : Endpoint) : String × String :=
  match e.role with
  | .plain => (e.serviceCode, "0")
  | .getter => (getAttributeCode, e.attributeCode)
  | .setter => (setAttributeCode, e.attributeCode)

/-- The part of a stub that reads the response.  Without parameters there it is empty. -/
def readResponse (e : Endpoint) (ps : List WireParameter) : List Statement :=
  if (e.responsePart ps).isEmpty then []
  else
    .startOffset false .response :: (e.responsePart ps).map fun p =>
      .advance "offset"
        ⟨.unmarshal, p.type, Buffer.response.variableName, "offset", p.responseArgument e.role⟩

/-- The body of the stub. -/
def stubBody (o : Options) (e : Endpoint) (returns : CType) (ps : List WireParameter) :
    List Statement :=
  [.declare Buffer.request.typeName Buffer.request.variableName,
   .declare Buffer.response.typeName Buffer.response.variableName,
   .declare "uint32_t" "offset",
   .setField .classCode e.classCode,
   .setField .instanceNumber (if o.stubInstanceArgument then instanceParameter.name else "0"),
   .setField .serviceCode e.requestCodes.1,
   .setField .attributeCode e.requestCodes.2,
   .startOffset false .request] ++
    (e.requestPart ps).map (fun p =>
      .advance "offset"
        ⟨.marshal, p.type, Buffer.request.variableName, "offset", p.requestArgument e.role⟩) ++
    [.setLength .request,
     .invoke none o.transport [⟨.itself, Buffer.request.variableName⟩,
       ⟨.itself, Buffer.response.variableName⟩]] ++
    e.readResponse ps ++
    (if e.isVoid then []
     else [.giveBack ("(" ++ returns.name ++ ")getStatusCode_resp(response)")])

/-- The stub of an endpoint. -/
def stub (o : Options) (e : Endpoint) : Except RenderError Function := do
  let returns ← e.returnType
  let ps ← e.parameters
  .ok ⟨← e.stubSignature o, e.stubBody o returns ps⟩

end Endpoint

end WireStub
