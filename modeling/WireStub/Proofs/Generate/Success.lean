import WireStub.Generate.CUnit
import WireStub.Proofs.Except

/-!
# Generated functions

When a function of a module is generated, it is made of parts that all have succeeded.  The lemmas
here name these parts once for every generator, so that later proofs need not open the generators.

* `Endpoint.serverPrototype_eq_ok`, `Endpoint.stubPrototype_eq_ok`, `Endpoint.stub_eq_ok` and
  `Endpoint.handler_eq_ok` for the prototypes and functions of an endpoint, over the parameters that
  `Endpoint.parameters_eq_ok_iff` resolves one by one;
* `Definition.codecs_struct_eq_ok` and `Definition.codecs_typedef_eq_ok` for the codec functions of a
  declaration, over the fields that `StructDecl.fields_eq_ok_iff` resolves one by one.
-/

namespace WireStub

/-! ### Endpoints -/

theorem Module.mem_endpoints {m : Module} {e : Endpoint} :
    e ∈ m.endpoints ↔ e.interface ∈ m.interfaces ∧ e.operation ∈ e.interface.operations ∧
      e.role ∈ e.interface.rolesOf e.operation := by
  obtain ⟨i, op, r⟩ := e
  simp [endpoints, Interface.endpoints]

namespace Endpoint

variable {o : Options} {status : String} {e : Endpoint}

/-- `w` is what the parameter `p` becomes in C. -/
def Resolves (e : Endpoint) (p : Parameter) (w : WireParameter) : Prop :=
  p.type.valueType (e.context ++ "::" ++ p.name) = .ok w.type ∧
    w.name = Identifier.escape p.name ∧ w.direction = p.direction

theorem parameters_eq_ok_iff {ps : List WireParameter} :
    e.parameters = .ok ps ↔ List.Forall₂ e.Resolves e.operation.parameters ps := by
  have step (p : Parameter) (w : WireParameter) :
      (do
        let c ← p.type.valueType (e.context ++ "::" ++ p.name)
        (.ok ⟨Identifier.escape p.name, c, p.direction⟩ : Except RenderError WireParameter)) =
          .ok w ↔ e.Resolves p w := by
    obtain ⟨name, type, direction⟩ := w
    simp only [bind_eq_ok, Except.ok.injEq, WireParameter.mk.injEq, Resolves]
    constructor
    · rintro ⟨c, hc, rfl, rfl, rfl⟩
      exact ⟨hc, rfl, rfl⟩
    · rintro ⟨hc, rfl, rfl⟩
      exact ⟨type, hc, rfl, rfl, rfl⟩
  rw [parameters, mapM_eq_ok_iff]
  simp only [step]

theorem cParameters_eq_ok {cs : List CParameter} (h : e.cParameters = .ok cs) :
    ∃ ps, e.parameters = .ok ps ∧ cs = ps.map (·.toC e.role) := by
  simp only [cParameters, bind_eq_ok, Except.ok.injEq] at h
  obtain ⟨ps, hps, rfl⟩ := h
  exact ⟨ps, hps, rfl⟩

theorem serverSignature_eq_ok {s : Signature} (h : e.serverSignature = .ok s) :
    ∃ c cs, e.returnType = .ok c ∧ e.cParameters = .ok cs ∧ s = ⟨false, c.name, e.functionName, cs⟩ := by
  simp only [serverSignature, bind_eq_ok, Except.ok.injEq] at h
  obtain ⟨c, hc, cs, hcs, rfl⟩ := h
  exact ⟨c, cs, hc, hcs, rfl⟩

theorem stubSignature_eq_ok {s : Signature} (h : e.stubSignature o = .ok s) :
    ∃ c cs, e.returnType = .ok c ∧ e.cParameters = .ok cs ∧ s = ⟨false, c.name, e.stubName,
      (if o.stubInstanceArgument then [instanceParameter] else []) ++ cs⟩ := by
  simp only [stubSignature, bind_eq_ok, Except.ok.injEq] at h
  obtain ⟨c, hc, cs, hcs, rfl⟩ := h
  exact ⟨c, cs, hc, hcs, rfl⟩

theorem serverPrototype_eq_ok {p : Prototype} (h : e.serverPrototype = .ok p) :
    ∃ s, e.serverSignature = .ok s ∧ p = ⟨false, s, e.raises⟩ := by
  simp only [serverPrototype, bind_eq_ok, Except.ok.injEq] at h
  obtain ⟨s, hs, rfl⟩ := h
  exact ⟨s, hs, rfl⟩

theorem stubPrototype_eq_ok {p : Prototype} (h : e.stubPrototype o = .ok p) :
    ∃ s, e.stubSignature o = .ok s ∧ p = ⟨false, s, e.raises⟩ := by
  simp only [stubPrototype, bind_eq_ok, Except.ok.injEq] at h
  obtain ⟨s, hs, rfl⟩ := h
  exact ⟨s, hs, rfl⟩

theorem handler_eq_ok {f : Function} (h : e.handler o status = .ok f) :
    ∃ c ps, e.returnType = .ok c ∧ e.parameters = .ok ps ∧
      f = ⟨e.handlerSignature status, e.handlerBody o status c ps⟩ := by
  simp only [handler, bind_eq_ok, Except.ok.injEq] at h
  obtain ⟨c, hc, ps, hps, rfl⟩ := h
  exact ⟨c, ps, hc, hps, rfl⟩

/-- The C parameters of the stub. -/
def stubParameters (o : Options) (e : Endpoint) (ps : List WireParameter) : List CParameter :=
  (if o.stubInstanceArgument then [instanceParameter] else []) ++ ps.map (·.toC e.role)

theorem stub_eq_ok {f : Function} (h : e.stub o = .ok f) :
    ∃ c ps, e.returnType = .ok c ∧ e.parameters = .ok ps ∧
      f = ⟨⟨false, c.name, e.stubName, e.stubParameters o ps⟩, e.stubBody o c ps⟩ := by
  simp only [stub, bind_eq_ok, Except.ok.injEq] at h
  obtain ⟨c, hc, ps, hps, s, hs, rfl⟩ := h
  obtain ⟨c', cs, hc', hcs, rfl⟩ := stubSignature_eq_ok hs
  obtain ⟨ps', hps', rfl⟩ := cParameters_eq_ok hcs
  obtain rfl : c = c' := Except.ok.inj (hc.symm.trans hc')
  obtain rfl : ps = ps' := Except.ok.inj (hps.symm.trans hps')
  exact ⟨c, ps, hc, hps, rfl⟩

/-- A handler can be generated as soon as the stub can. -/
theorem exists_handler_of_stub (status : String) {g : Function} (h : e.stub o = .ok g) :
    ∃ f, e.handler o status = .ok f := by
  obtain ⟨c, ps, hc, hps, -⟩ := stub_eq_ok h
  refine ⟨⟨e.handlerSignature status, e.handlerBody o status c ps⟩, ?_⟩
  simp only [handler, bind_eq_ok, Except.ok.injEq]
  exact ⟨c, hc, ps, hps, rfl⟩

end Endpoint

/-! ### Declarations -/

theorem TypeExpr.declarator_eq_ok_iff {context : String} {t : TypeExpr} {dims : List UInt32}
    {d : Declarator} :
    t.declarator context dims = .ok d ↔
      t.valueType context = .ok d.type ∧ emptyDim? dims = none ∧ d.dims = dims := by
  rw [declarator, bind_eq_ok]
  constructor
  · rintro ⟨c, hc, h⟩
    split at h
    · cases h
    · rename_i hdims
      cases h
      exact ⟨hc, hdims, rfl⟩
  · rintro ⟨hc, hdims, rfl⟩
    exact ⟨d.type, hc, by rw [hdims]⟩

/-- `f` is the C field of the member `m`. -/
def Member.Resolves (context : String) (m : Member) (f : Field) : Prop :=
  m.type.declarator (context ++ "::" ++ m.name) m.dims = .ok f.declarator ∧
    f.name = Identifier.escape m.name

theorem StructDecl.fields_eq_ok_iff {context : String} {s : StructDecl} {fs : List Field} :
    s.fields context = .ok fs ↔ List.Forall₂ (Member.Resolves context) s.members fs := by
  have step (m : Member) (f : Field) : m.field context = .ok f ↔ m.Resolves context f := by
    obtain ⟨name, d⟩ := f
    simp only [Member.field, bind_eq_ok, Except.ok.injEq, Field.mk.injEq, Member.Resolves]
    constructor
    · rintro ⟨d', hd, rfl, rfl⟩
      exact ⟨hd, rfl⟩
    · rintro ⟨hd, rfl⟩
      exact ⟨d, hd, rfl, rfl⟩
  rw [fields, mapM_eq_ok_iff]
  simp only [step]

namespace Definition

theorem codecs_struct_eq_ok {s : StructDecl} {fs : List Function}
    (h : (struct s).codecs = .ok fs) :
    ∃ c fields, (struct s).cType = .ok c ∧ s.fields (struct s).context = .ok fields ∧
      fs = Half.both.map fun h => ⟨h.signature c, structBody h fields⟩ := by
  simp only [codecs, codecBody, bind_eq_ok, Except.ok.injEq] at h
  obtain ⟨c, hc, body, ⟨fields, hfields, rfl⟩, rfl⟩ := h
  exact ⟨c, fields, hc, hfields, rfl⟩

theorem codecs_typedef_eq_ok {t : TypedefDecl} {fs : List Function}
    (h : (typedef t).codecs = .ok fs) :
    ∃ c d, (typedef t).cType = .ok c ∧ t.type.declarator (typedef t).context t.dims = .ok d ∧
      fs = Half.both.map fun h => ⟨h.signature c, typedefBody h d⟩ := by
  simp only [codecs, codecBody, bind_eq_ok, Except.ok.injEq] at h
  obtain ⟨c, hc, body, ⟨d, hd, rfl⟩, rfl⟩ := h
  exact ⟨c, d, hc, hd, rfl⟩

end Definition

end WireStub
