import WireStub.Code.Item
import WireStub.Generate.Signature

/-!
# Dispatch

A request carries a service code.  Two service codes are reserved for attributes: requests with them
carry an attribute code besides, which selects among the getters or the setters.

* `DispatchTable.build` finds the cases of a module; a code or a handler that would be there twice
  is refused;
* `dispatchers` are the three functions that follow the codes of a request.
-/

namespace WireStub

/-- The service code of reading an attribute. -/
def getAttributeCode : String := "k_SC_getAttribute"

/-- The service code of writing an attribute. -/
def setAttributeCode : String := "k_SC_setAttribute"

/-- The function that dispatches the getters. -/
def getDispatcher : String := "get_unmarshal"

/-- The function that dispatches the setters. -/
def setDispatcher : String := "set_unmarshal"

/-- The cases of both levels of dispatch. -/
structure DispatchTable where
  services : List DispatchCase
  getters : List DispatchCase
  setters : List DispatchCase
  deriving DecidableEq, Repr

namespace DispatchTable

/-- The table with the reserved services only. -/
def reserved : DispatchTable :=
  ⟨[⟨getAttributeCode, getDispatcher⟩, ⟨setAttributeCode, setDispatcher⟩], [], []⟩

/-- All cases. -/
def cases (t : DispatchTable) : List DispatchCase := t.services ++ t.getters ++ t.setters

/-- The number of cases. -/
def size (t : DispatchTable) : Nat := t.services.length + t.getters.length + t.setters.length

/-- The handlers of all cases. -/
def handlers (t : DispatchTable) : List String := t.cases.map (·.handler)

/-- The cases among which an endpoint of a role is found. -/
def casesFor (t : DispatchTable) : Role → List DispatchCase
  | .plain => t.services
  | .getter => t.getters
  | .setter => t.setters

/-- Adds a case to those of a role. -/
def push (t : DispatchTable) (c : DispatchCase) : Role → DispatchTable
  | .plain => { t with services := t.services ++ [c] }
  | .getter => { t with getters := t.getters ++ [c] }
  | .setter => { t with setters := t.setters ++ [c] }

end DispatchTable

namespace Endpoint

/-- The code that selects the endpoint among those of its role. -/
def code (e : Endpoint) : String :=
  match e.role with
  | .plain => e.serviceCode
  | .getter | .setter => e.attributeCode

/-- The case of the endpoint. -/
def case (e : Endpoint) : DispatchCase := ⟨e.code, e.handlerName⟩

end Endpoint

namespace DispatchTable

/-- Adds the case of an endpoint, unless its code or its handler is taken. -/
def add (t : DispatchTable) (e : Endpoint) : Except RenderError DispatchTable :=
  if ((t.casesFor e.role).any (·.code == e.code)) || t.handlers.contains e.handlerName then
    .error (.duplicateDispatchCase e.code e.context)
  else .ok (t.push e.case e.role)

/-- The table of a module. -/
def build (m : Module) : Except RenderError DispatchTable := m.endpoints.foldlM add reserved

end DispatchTable

/-- The signature of a function that dispatches requests. -/
def dispatcherSignature (isStatic : Bool) (status name : String) : Signature :=
  ⟨isStatic, status, name, Endpoint.handlerParameters⟩

/-- The functions that follow the codes of a request: first the service code, then for attributes
the attribute code. -/
def dispatchers (o : Options) (status : String) (t : DispatchTable) : List Function :=
  [⟨dispatcherSignature false status "unmarshal",
      [.dispatch "getServiceCode_req(request)" t.services o.invalidServiceCode]⟩,
   ⟨dispatcherSignature true status getDispatcher,
      [.dispatch "getAttributeCode_req(request)" t.getters o.invalidAttributeCode]⟩,
   ⟨dispatcherSignature true status setDispatcher,
      [.dispatch "getAttributeCode_req(request)" t.setters o.invalidAttributeCode]⟩]

end WireStub
