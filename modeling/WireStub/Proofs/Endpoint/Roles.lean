import WireStub.Proofs.Endpoint.Agreement
import WireStub.Proofs.Generate.Faults
import WireStub.Proofs.Generate.Symbols

/-!
# Roles of attributes

An attribute is read through a getter and written through a setter, and which of them there are follows
from the directions of the parameters.  No operation is left without a role and no parameter without a
way to travel.

* `Operation.hasGetter_iff` and `Operation.hasSetter_iff` say which roles there are, in terms of
  directions;
* `Endpoint.Requests` and `Endpoint.Responds` say that a parameter travels between the functions of an
  endpoint;
* `Interface.Serves` says what the roles do for an operation, and `Endpoint.GivesBack` how a value
  reaches the caller;
* `Module.Implements` says that the units of a module hold the functions of its endpoints and no others;
* `attribute_roles_lose_nothing` is the main statement.
-/

namespace WireStub

/-! ### Which roles there are -/

theorem Direction.isOut_iff {d : Direction} : d.isOut = true ↔ d = .output ∨ d = .inout := by
  cases d <;> decide

namespace Operation

variable {op : Operation}

theorem hasGetter_iff :
    op.hasGetter = true ↔ ∃ p ∈ op.parameters, p.direction = .output ∨ p.direction = .inout := by
  simp only [hasGetter, List.any_eq_true, Direction.isOut_iff]

/-- Without a parameter that travels both ways, nothing comes back exactly if no parameter is one of
output. -/
theorem hasSetter_iff :
    op.hasSetter = true ↔
      (∃ p ∈ op.parameters, p.direction = .inout) ∨ ∀ p ∈ op.parameters, p.direction ≠ .output := by
  rw [hasSetter, Bool.or_eq_true, Bool.not_eq_true', ← Bool.not_eq_true, hasGetter_iff]
  simp only [List.any_eq_true, beq_iff_eq]
  constructor
  · rintro (h | h)
    · exact .inl h
    · exact .inr fun p hp hout => h ⟨p, hp, .inl hout⟩
  · rintro (h | h)
    · exact .inl h
    · by_cases hinout : ∃ p ∈ op.parameters, p.direction = .inout
      · exact .inl hinout
      · refine .inr ?_
        rintro ⟨p, hp, hout | hboth⟩
        · exact h p hp hout
        · exact hinout ⟨p, hp, hboth⟩

end Operation

namespace Interface

variable {i : Interface} {op : Operation} {r : Role}

theorem rolesOf_eq (hi : i.isAttributes = true) :
    i.rolesOf op = (if op.hasGetter then [.getter] else []) ++ if op.hasSetter then [.setter] else [] := by
  simp [rolesOf, hi]

theorem mem_endpoints : (⟨i, op, r⟩ : Endpoint) ∈ i.endpoints ↔ op ∈ i.operations ∧ r ∈ i.rolesOf op := by
  simp [endpoints]

theorem getter_mem_rolesOf (hi : i.isAttributes = true) :
    .getter ∈ i.rolesOf op ↔ op.hasGetter = true := by
  rw [rolesOf_eq hi]
  cases op.hasGetter <;> cases op.hasSetter <;> decide

theorem setter_mem_rolesOf (hi : i.isAttributes = true) :
    .setter ∈ i.rolesOf op ↔ op.hasSetter = true := by
  rw [rolesOf_eq hi]
  cases op.hasGetter <;> cases op.hasSetter <;> decide

/-- The getter comes first. -/
theorem rolesOf_sublist (hi : i.isAttributes = true) : (i.rolesOf op).Sublist [.getter, .setter] := by
  rw [rolesOf_eq hi]
  cases op.hasGetter <;> cases op.hasSetter <;> decide

theorem rolesOf_eq_both_iff (hi : i.isAttributes = true) :
    i.rolesOf op = [.getter, .setter] ↔ ∃ p ∈ op.parameters, p.direction = .inout := by
  have hboth : i.rolesOf op = [.getter, .setter] ↔ op.hasGetter = true ∧ op.hasSetter = true := by
    rw [rolesOf_eq hi]
    cases op.hasGetter <;> cases op.hasSetter <;> decide
  rw [hboth, Operation.hasGetter_iff, Operation.hasSetter_iff]
  constructor
  · rintro ⟨⟨p, hp, hout | hinout⟩, hsome | hnone⟩
    · exact hsome
    · exact absurd hout (hnone p hp)
    · exact hsome
    · exact ⟨p, hp, hinout⟩
  · rintro ⟨p, hp, hinout⟩
    exact ⟨⟨p, hp, .inr hinout⟩, .inl ⟨p, hp, hinout⟩⟩

end Interface

/-! ### What travels -/

namespace Role

variable {r : Role} {d : Direction}

theorem inRequest_of_isIn (h : d = .input ∨ d = .inout) : r.inRequest d = true := by
  rcases h with rfl | rfl <;> cases r <;> rfl

theorem getter_inResponse (h : d = .output ∨ d = .inout) : Role.getter.inResponse d = true := by
  rcases h with rfl | rfl <;> rfl

/-- Outside of setters, what comes back is a pointer, whatever its type. -/
theorem byPointer_of_inResponse (hr : r ≠ .setter) (h : r.inResponse d = true) (isBase : Bool) :
    r.byPointer d isBase = true := by
  cases r with
  | setter => exact absurd rfl hr
  | plain | getter => cases d <;> cases isBase <;> first | rfl | cases h

end Role

namespace Endpoint

variable {e : Endpoint}

/-- A parameter with its codec is among what is written to a buffer on one side and read from it on the
other. -/
def Moves (e : Endpoint) (b : Buffer) (p : Parameter) (writer reader : Function) : Prop :=
  ∃ c, p.type.valueType (e.context ++ "::" ++ p.name) = .ok c ∧
    (Identifier.escape p.name, c.codecPrefix) ∈ (transfers .marshal b writer.body).map CodecCall.item ∧
    (Identifier.escape p.name, c.codecPrefix) ∈ (transfers .unmarshal b reader.body).map CodecCall.item

/-- A parameter travels in the request: whenever the functions of the endpoint are generated, the stub
writes it and the handler reads it. -/
def Requests (e : Endpoint) (p : Parameter) : Prop :=
  ∀ o status s h, e.stub o = .ok s → e.handler o status = .ok h → e.Moves .request p s h

/-- A parameter travels in the response: whenever the functions of the endpoint are generated, the
handler writes it and the stub reads it. -/
def Responds (e : Endpoint) (p : Parameter) : Prop :=
  ∀ o status s h, e.stub o = .ok s → e.handler o status = .ok h → e.Moves .response p h s

/-- What is selected is among the items. -/
theorem mem_items_of_selection {items : List (String × String)} {travels : Direction → Bool}
    (h : e.selection travels = .ok items) {p : Parameter} (hp : p ∈ e.operation.parameters)
    (htravels : travels p.direction = true) :
    ∃ c, p.type.valueType (e.context ++ "::" ++ p.name) = .ok c ∧
      (Identifier.escape p.name, c.codecPrefix) ∈ items := by
  obtain ⟨item, hmem, hitem⟩ := exists_mem_of_mapM h (List.mem_filter.2 ⟨hp, htravels⟩)
  obtain ⟨c, hc, hitem⟩ := bind_eq_ok.1 hitem
  exact ⟨c, hc, Except.ok.inj hitem ▸ hmem⟩

theorem requests_of_inRequest {p : Parameter} (hp : p ∈ e.operation.parameters)
    (h : e.role.inRequest p.direction = true) : e.Requests p := by
  intro o status s f hs hf
  obtain ⟨c, ps, hps, hstub, hhandler⟩ := exists_bodies hs hf
  rw [Moves, hstub, hhandler, (stubBody_items o c hps).1, (handlerBody_items o status c hps).1]
  obtain ⟨t, ht, hitem⟩ := mem_items_of_selection (selection_eq_ok hps _) hp h
  exact ⟨t, ht, hitem, hitem⟩

theorem responds_of_inResponse {p : Parameter} (hp : p ∈ e.operation.parameters)
    (h : e.role.inResponse p.direction = true) : e.Responds p := by
  intro o status s f hs hf
  obtain ⟨c, ps, hps, hstub, hhandler⟩ := exists_bodies hs hf
  rw [Moves, hstub, hhandler, (stubBody_items o c hps).2, (handlerBody_items o status c hps).2]
  obtain ⟨t, ht, hitem⟩ := mem_items_of_selection (selection_eq_ok hps _) hp h
  exact ⟨t, ht, hitem, hitem⟩

/-! ### How a value reaches the caller -/

/-- A parameter that comes back is a pointer to its type in C. -/
def PointsBack (e : Endpoint) (p : Parameter) (c : CParameter) : Prop :=
  e.role.inResponse p.direction = true → ∃ t, p.type.valueType (e.context ++ "::" ++ p.name) = .ok t ∧
    c.text = t.name ++ " *" ++ Identifier.escape p.name

/-- What comes back can reach the caller: it is a pointer in the signatures of the server function and
of the stub, and the stub reads it into what the pointer points to. -/
structure GivesBack (e : Endpoint) : Prop where
  server : ∀ s, e.serverSignature = .ok s → List.Forall₂ e.PointsBack e.operation.parameters s.parameters
  /-- In front of the parameters of a stub there may be the number of the instance. -/
  stub : ∀ o s, e.stubSignature o = .ok s → ∃ own,
    s.parameters = (if o.stubInstanceArgument then [instanceParameter] else []) ++ own ∧
      List.Forall₂ e.PointsBack e.operation.parameters own
  reads : ∀ o f, e.stub o = .ok f →
    ∀ x ∈ transfers .unmarshal .response f.body, x.argument.access = .itself

theorem pointsBack_of_resolves (hr : e.role ≠ .setter) {p : Parameter} {w : WireParameter}
    (h : e.Resolves p w) : e.PointsBack p (w.toC e.role) := by
  intro hback
  have hpointer : w.isPointer e.role = true := by
    rw [WireParameter.isPointer, h.2.2]
    exact Role.byPointer_of_inResponse hr hback _
  refine ⟨w.type, h.1, ?_⟩
  simp [CParameter.text, WireParameter.toC, hpointer, h.2.1, String.append_assoc]

theorem pointsBack_of_cParameters (hr : e.role ≠ .setter) {cs : List CParameter}
    (h : e.cParameters = .ok cs) : List.Forall₂ e.PointsBack e.operation.parameters cs := by
  obtain ⟨ps, hps, rfl⟩ := cParameters_eq_ok h
  rw [List.forall₂_map_right_iff]
  exact (parameters_eq_ok_iff.1 hps).imp fun _ _ => pointsBack_of_resolves hr

theorem givesBack (hr : e.role ≠ .setter) : e.GivesBack where
  server := by
    intro s hs
    obtain ⟨c, cs, -, hcs, rfl⟩ := serverSignature_eq_ok hs
    exact pointsBack_of_cParameters hr hcs
  stub := by
    intro o s hs
    obtain ⟨c, cs, -, hcs, rfl⟩ := stubSignature_eq_ok hs
    exact ⟨cs, rfl, pointsBack_of_cParameters hr hcs⟩
  reads := by
    intro o f hf x hx
    obtain ⟨c, ps, -, hps, rfl⟩ := stub_eq_ok hf
    rw [(stubBody_transfers o c hps).2] at hx
    obtain ⟨w, hw, rfl⟩ := List.mem_map.1 hx
    have hback : e.role.inResponse w.direction = true := (List.mem_filter.1 hw).2
    have hpointer : w.isPointer e.role = true := Role.byPointer_of_inResponse hr hback _
    simp [WireParameter.stubRead, WireParameter.responseArgument, hpointer]

end Endpoint

/-! ### The units of a module -/

/-- The units hold one server function, one handler and one stub for each endpoint of the module, in this
order, and besides them only the dispatchers. -/
structure Module.Implements (m : Module) (o : Options) (items : CUnit → List Item) : Prop where
  server : m.endpoints.mapM (·.serverPrototype) = .ok (Item.prototypes (items .declarations))
  handlers : ∃ t hs, m.endpoints.mapM (·.handler o (o.statusType m.name)) = .ok hs ∧
    Item.functions (items .dispatchSource) = dispatchers o (o.statusType m.name) t ++ hs
  stubs : m.endpoints.mapM (·.stub o) = .ok (Item.functions (items .stubSource))

theorem Module.implements {m : Module} {o : Options} {items : CUnit → List Item}
    (h : ∀ u : CUnit, u.items o m = .ok (items u)) : m.Implements o items where
  server := CUnit.prototypes_declarations (h .declarations)
  handlers := by
    obtain ⟨t, hs, -, hhs, hfunctions⟩ := CUnit.functions_dispatchSource (h .dispatchSource)
    exact ⟨t, hs, hhs, hfunctions⟩
  stubs := CUnit.functions_stubSource (h .stubSource)

/-! ### The main statement -/

/-- What the roles of an attribute do for it. -/
structure Interface.Serves (i : Interface) (op : Operation) : Prop where
  /-- There is a getter exactly if something comes back. -/
  getter_iff : (⟨i, op, .getter⟩ : Endpoint) ∈ i.endpoints ↔
    ∃ p ∈ op.parameters, p.direction = .output ∨ p.direction = .inout
  /-- There is a setter exactly if something travels both ways or nothing is of output. -/
  setter_iff : (⟨i, op, .setter⟩ : Endpoint) ∈ i.endpoints ↔
    (∃ p ∈ op.parameters, p.direction = .inout) ∨ ∀ p ∈ op.parameters, p.direction ≠ .output
  some_role : i.rolesOf op ≠ []
  getter_first : (i.rolesOf op).Sublist [.getter, .setter]
  both_iff : i.rolesOf op = [.getter, .setter] ↔ ∃ p ∈ op.parameters, p.direction = .inout
  /-- What goes in travels in the request of every role. -/
  goes_in : ∀ p ∈ op.parameters, p.direction = .input ∨ p.direction = .inout →
    ∀ r ∈ i.rolesOf op, r.inRequest p.direction = true ∧ (⟨i, op, r⟩ : Endpoint).Requests p
  /-- What comes out travels in the response of a getter. -/
  comes_out : ∀ p ∈ op.parameters, p.direction = .output ∨ p.direction = .inout →
    (⟨i, op, .getter⟩ : Endpoint) ∈ i.endpoints ∧ Role.getter.inResponse p.direction = true ∧
      (⟨i, op, .getter⟩ : Endpoint).Responds p

theorem Interface.serves {i : Interface} {op : Operation} (hi : i.isAttributes = true)
    (hop : op ∈ i.operations) : i.Serves op := by
  have getter_iff : (⟨i, op, .getter⟩ : Endpoint) ∈ i.endpoints ↔
      ∃ p ∈ op.parameters, p.direction = .output ∨ p.direction = .inout := by
    rw [mem_endpoints, and_iff_right hop, getter_mem_rolesOf hi, Operation.hasGetter_iff]
  have hrole : i.rolesOf op ≠ [] := (i.exists_role op).elim fun _ => List.ne_nil_of_mem
  refine ⟨getter_iff, ?_, hrole, rolesOf_sublist hi, rolesOf_eq_both_iff hi, ?_, ?_⟩
  · rw [mem_endpoints, and_iff_right hop, setter_mem_rolesOf hi, Operation.hasSetter_iff]
  · intro p hp hin r _
    have hrequest := Role.inRequest_of_isIn (r := r) hin
    exact ⟨hrequest, Endpoint.requests_of_inRequest hp hrequest⟩
  · intro p hp hout
    have hresponse := Role.getter_inResponse hout
    exact ⟨getter_iff.2 ⟨p, hp, hout⟩, hresponse, Endpoint.responds_of_inResponse hp hresponse⟩

/-- **Attribute roles lose no operation and no parameter.**  Every attribute has a getter or a setter or
both, in this order, as its directions ask for; what goes in is in the request of each, and what comes
out is in the response of a getter.  Under any role but the setter, what comes back is a pointer, so that
it reaches the caller.  What is generated for a module are the functions of these endpoints. -/
theorem attribute_roles_lose_nothing :
    (∀ (i : Interface) (op : Operation), i.isAttributes = true → op ∈ i.operations → i.Serves op) ∧
      (∀ e : Endpoint, e.role ≠ .setter → e.GivesBack) ∧
      ∀ (m : Module) (o : Options) (items : CUnit → List Item),
        (∀ u : CUnit, u.items o m = .ok (items u)) → m.Implements o items :=
  ⟨fun _ _ => Interface.serves, fun _ => Endpoint.givesBack, fun _ _ _ => Module.implements⟩

/-- A level is read and written, and the getter hands back its position through a pointer. -/
theorem attribute_roles_lose_nothing_levelGetter :
    Endpoint.levelGetter.interface.isAttributes = true ∧
      Endpoint.levelGetter.operation ∈ Endpoint.levelGetter.interface.operations ∧
      Endpoint.levelGetter.interface.Serves Endpoint.levelGetter.operation ∧
      Endpoint.levelGetter.interface.rolesOf Endpoint.levelGetter.operation = [.getter, .setter] ∧
      Endpoint.levelGetter.role ≠ .setter ∧ Endpoint.levelGetter.GivesBack ∧
      Endpoint.levelGetter.serverSignature.map Signature.text =
        .ok "int32_t get_level(uint8_t channel, long double *offset_, Demo_Point *position)" ∧
      ∃ items, (⟨"Demo", [], [Endpoint.levelGetter.interface]⟩ : Module).Implements {} items ∧
        (Item.functions (items .stubSource)).map (·.signature.name) =
          ["Attributes_stubget_level", "Attributes_stubset_level"] := by
  obtain ⟨serves, givesBack, implements⟩ := attribute_roles_lose_nothing
  have hop : Endpoint.levelGetter.operation ∈ Endpoint.levelGetter.interface.operations :=
    List.mem_singleton.2 rfl
  have hrender : (⟨"Demo", [], [Endpoint.levelGetter.interface]⟩ : Module).render {} = .ok _ := rfl
  obtain ⟨items, hitems⟩ := Classical.skolem.1 (Module.exists_items_of_render hrender)
  have himplements := implements _ _ items fun u => (hitems u).1
  have hstubs := Except.ok.inj (himplements.stubs.symm.trans rfl)
  exact ⟨by decide, hop, serves _ _ (by decide) hop, by decide, by decide, givesBack _ (by decide), rfl,
    items, himplements, by rw [hstubs]; rfl⟩

end WireStub
