import WireStub.Proofs.Dispatch.Table
import WireStub.Proofs.Generate.Success
import WireStub.Proofs.Generate.Units

/-!
# The way of a request

A stub puts two codes into the header of its request, and the dispatchers of the server follow them:
the service code first, then for attributes the attribute code.  If the module has a dispatch table,
every request ends in the handler of the stub that sent it, and nowhere else
(`Module.dispatch_routes_to_handler`).

* `Header` is what a request carries, and `sentHeader` finds it in the body of a function that sends;
* `Reaches` follows the codes of a header through the functions of the server;
* `reaches_switch` and `reaches_handler` are the steps: what a switch and a handler do.

The proof: the functions for requests have different names, and the cases of a switch have different
codes.  So a switch that reads a code hands the request on to one function only, and the codes that a
stub sends are those of its own case, behind the reserved case for attributes.
-/

namespace WireStub

/-- The fields of a request header that have a value.  Codes are symbols. -/
abbrev Header := HeaderField → Option String

/-- The header with a field set. -/
def Header.set (h : Header) (f : HeaderField) (v : String) : Header :=
  fun g => if g = f then some v else h g

/-- The header at the moment when a body calls the transport, if it does. -/
def sentHeader (transport : String) (h : Header) : List Statement → Option Header
  | [] => none
  | .setField f v :: ss => sentHeader transport (h.set f v) ss
  | .invoke _ g _ :: ss => if g = transport then some h else sentHeader transport h ss
  | _ :: ss => sentHeader transport h ss

/-- The expression that reads a field of the request header. -/
def HeaderField.reader (f : HeaderField) : String := "get" ++ f.word ++ "_req(request)"

/-- Whether a statement hands the request on by one of its codes. -/
def Statement.isDispatch : Statement → Bool
  | .dispatch _ _ _ => true
  | _ => false

/-- A request with a header that is given to the function of a name ends in a function.  A switch
hands it on by the code that it reads from the header; any other function keeps it. -/
inductive Reaches (fs : List Function) (h : Header) : String → Function → Prop
  | handled {f : Function} (hf : f ∈ fs) (hbody : ∀ s ∈ f.body, s.isDispatch = false) :
      Reaches fs h f.signature.name f
  | switched {f g : Function} {field : HeaderField} {cases : List DispatchCase}
      {otherwise : String} {c : DispatchCase} (hf : f ∈ fs)
      (hbody : f.body = [.dispatch field.reader cases otherwise]) (hc : c ∈ cases)
      (hcode : h field = some c.code) (hnext : Reaches fs h c.handler g) :
      Reaches fs h f.signature.name g

/-- The functions that a module has for requests: the dispatchers of a table, and the handlers that
can be generated. -/
def Module.requestFunctions (o : Options) (status : String) (m : Module) (t : DispatchTable) :
    List Function :=
  dispatchers o status t ++ m.endpoints.filterMap fun e => (e.handler o status).toOption

/-! ### Steps -/

variable {fs : List Function} {h : Header} {f g : Function}

theorem HeaderField.reader_injective {a b : HeaderField} (hab : a.reader = b.reader) : a = b := by
  cases a <;> cases b <;> first | rfl | exact absurd hab (by decide)

/-- A function that is no switch keeps the request. -/
theorem reaches_handler (hnames : (fs.map (·.signature.name)).Nodup) (hf : f ∈ fs)
    (hbody : ∀ s ∈ f.body, s.isDispatch = false) :
    Reaches fs h f.signature.name g ↔ g = f := by
  constructor
  · intro hg
    generalize hn : f.signature.name = n at hg
    cases hg with
    | handled hg _ => exact (List.inj_on_of_nodup_map hnames hf hg hn).symm
    | @switched f' _ _ _ _ _ hf' hbody' _ _ _ =>
      obtain rfl := List.inj_on_of_nodup_map hnames hf hf' hn
      rw [hbody'] at hbody
      exact absurd (hbody _ List.mem_cons_self) (by simp [Statement.isDispatch])
  · rintro rfl
    exact .handled hf hbody

/-- A switch hands the request on to the handler of its code. -/
theorem reaches_switch (field : HeaderField) {cases : List DispatchCase} {otherwise : String}
    {c : DispatchCase} (hnames : (fs.map (·.signature.name)).Nodup) (hf : f ∈ fs)
    (hbody : f.body = [.dispatch field.reader cases otherwise])
    (hcodes : (cases.map (·.code)).Nodup) (hc : c ∈ cases) (hcode : h field = some c.code) :
    Reaches fs h f.signature.name g ↔ Reaches fs h c.handler g := by
  constructor
  · intro hg
    generalize hn : f.signature.name = n at hg
    cases hg with
    | handled hg hkept =>
      obtain rfl := List.inj_on_of_nodup_map hnames hf hg hn
      rw [hbody] at hkept
      exact absurd (hkept _ List.mem_cons_self) (by simp [Statement.isDispatch])
    | @switched f' _ field' cases' _ c' hf' hbody' hc' hcode' hnext =>
      obtain rfl := List.inj_on_of_nodup_map hnames hf hf' hn
      -- names are different, so both are one switch; codes are different, so both take one case
      rw [hbody, List.cons.injEq, Statement.dispatch.injEq] at hbody'
      obtain ⟨⟨hreader, rfl, -⟩, -⟩ := hbody'
      obtain rfl := HeaderField.reader_injective hreader
      have heq : c.code = c'.code := Option.some.inj (hcode.symm.trans hcode')
      obtain rfl := List.inj_on_of_nodup_map hcodes hc hc' heq
      exact hnext
  · exact .switched hf hbody hc hcode

/-! ### The header of a stub -/

namespace Endpoint

variable {o : Options} {status : String} {e : Endpoint} {m : Module}

/-- The header of the request that the stub sends. -/
def header (o : Options) (e : Endpoint) : Header
  | .classCode => some e.classCode
  | .instanceNumber => some (if o.stubInstanceArgument then instanceParameter.name else "0")
  | .serviceCode => some e.requestCodes.1
  | .attributeCode => some e.requestCodes.2

theorem sentHeader_advances {transport counter : String} {h : Header} {ss : List Statement}
    (call : WireParameter → CodecCall) (ps : List WireParameter) :
    sentHeader transport h ((ps.map fun p => .advance counter (call p)) ++ ss) =
      sentHeader transport h ss := by
  induction ps with
  | nil => rfl
  | cons p ps ih => exact ih

/-- What a sent header holds was set by a statement, if it was not there from the beginning. -/
theorem mem_of_sentHeader {transport v : String} {field : HeaderField} {ss : List Statement} :
    ∀ {h h' : Header}, sentHeader transport h ss = some h' → h' field = some v →
      h field = some v ∨ .setField field v ∈ ss := by
  induction ss with
  | nil => intro h h' hs; cases hs
  | cons s ss ih =>
    intro h h' hs hv
    cases s with
    | setField f w =>
      rcases ih hs hv with hset | hmem
      · rw [Header.set] at hset
        split at hset
        case isTrue heq =>
          cases hset
          exact .inr (heq ▸ List.mem_cons_self)
        case isFalse => exact .inl hset
      · exact .inr (List.mem_cons_of_mem _ hmem)
    | invoke result g arguments =>
      rw [sentHeader] at hs
      split at hs
      · cases hs
        exact .inl hv
      · exact (ih hs hv).imp_right (List.mem_cons_of_mem _)
    | _ => exact (ih hs hv).imp_right (List.mem_cons_of_mem _)

/-- So the function that sends it has a line that sets it. -/
theorem line_of_sentHeader {transport v : String} {field : HeaderField} {f : Function} {h : Header}
    (hsent : sentHeader transport (fun _ => none) f.body = some h) (hv : h field = some v) :
    (1, "set" ++ field.word ++ "_req(request, " ++ v ++ ");") ∈ f.lines := by
  have hmem : .setField field v ∈ f.body :=
    (mem_of_sentHeader hsent hv).resolve_left (by simp)
  have hline : (1, "set" ++ field.word ++ "_req(request, " ++ v ++ ");") ∈
      f.body.flatMap fun s => Layout.lines 1 s.layout :=
    List.mem_flatMap.2 ⟨_, hmem, List.mem_cons_self⟩
  rw [Function.lines]
  exact List.mem_cons_of_mem _ (List.mem_cons_of_mem _ (List.mem_append_left _ hline))

theorem sentHeader_stub {s : Function} (hs : e.stub o = .ok s) :
    sentHeader o.transport (fun _ => none) s.body = some (e.header o) := by
  obtain ⟨c, ps, -, -, rfl⟩ := stub_eq_ok hs
  simp only [stubBody, List.append_assoc, List.cons_append, List.nil_append, sentHeader,
    sentHeader_advances, if_pos, Option.some.injEq]
  funext f
  cases f <;> rfl

/-! ### The functions for requests -/

theorem isDispatch_handlerBody {f : Function} (hf : e.handler o status = .ok f) :
    ∀ s ∈ f.body, s.isDispatch = false := by
  obtain ⟨c, ps, -, -, rfl⟩ := handler_eq_ok hf
  simp only [handlerBody, WireParameter.transfer, List.mem_append, List.mem_map, List.mem_cons,
    List.not_mem_nil, or_false]
  rintro s ((((((rfl | ⟨p, -, rfl⟩) | ⟨p, -, rfl⟩) | rfl) | rfl) | ⟨p, -, rfl⟩) | rfl | rfl) <;>
    rfl

theorem name_of_handler_eq_ok {f : Function} (hf : e.handler o status = .ok f) :
    f.signature.name = e.handlerName := by
  obtain ⟨c, ps, -, -, rfl⟩ := handler_eq_ok hf
  rfl

/-- The name of a handler is longer than that of the dispatcher of services. -/
theorem handlerName_ne_unmarshal (e : Endpoint) : e.handlerName ≠ "unmarshal" := by
  intro h
  have hlength := congrArg String.length h
  rw [handlerName, String.length_append] at hlength
  have hending : "_unmarshal".length = 10 := by decide
  have hwhole : "unmarshal".length = 9 := by decide
  omega

end Endpoint

/-- The names of the functions that dispatch requests. -/
def dispatcherNames : List String := ["unmarshal", getDispatcher, setDispatcher]

namespace Module

variable {o : Options} {status : String} {m : Module}

theorem mem_requestFunctions {t : DispatchTable} :
    f ∈ m.requestFunctions o status t ↔
      f ∈ dispatchers o status t ∨ ∃ e ∈ m.endpoints, e.handler o status = .ok f := by
  rw [requestFunctions, List.mem_append, List.mem_filterMap]
  simp only [toOption_eq_some]

/-- The names of the dispatchers and of all handlers are different. -/
theorem nodup_requestNames (h : Separate m.endpoints) :
    (dispatcherNames ++ m.endpoints.map (·.handlerName)).Nodup := by
  refine List.nodup_append.2 ⟨by decide, h.handlers, fun a ha b hb hab => ?_⟩
  obtain ⟨e, he, rfl⟩ := List.mem_map.1 hb
  subst hab
  simp only [dispatcherNames, List.mem_cons, List.not_mem_nil, or_false] at ha
  rcases ha with ha | ha | ha
  · exact e.handlerName_ne_unmarshal ha
  · exact (h.dispatchers e he).1 ha
  · exact (h.dispatchers e he).2 ha

/-- Some endpoints may have no handler. -/
theorem map_name_handlers_sublist (es : List Endpoint) :
    ((es.filterMap fun e => (e.handler o status).toOption).map (·.signature.name)).Sublist
      (es.map (·.handlerName)) := by
  induction es with
  | nil => exact .slnil
  | cons e es ih =>
    cases he : (e.handler o status).toOption with
    | none =>
      simp only [List.filterMap_cons, he]
      exact ih.cons _
    | some f =>
      simp only [List.filterMap_cons, List.map_cons, he,
        Endpoint.name_of_handler_eq_ok (toOption_eq_some.1 he)]
      exact ih.cons_cons _

/-- The functions for requests have different names. -/
theorem nodup_names (h : Separate m.endpoints) (t : DispatchTable) :
    ((m.requestFunctions o status t).map (·.signature.name)).Nodup := by
  rw [requestFunctions, List.map_append]
  exact (nodup_requestNames h).sublist ((List.Sublist.refl _).append (map_name_handlers_sublist _))

/-- What is left of a request's way once it has come to the dispatcher of its own role. -/
theorem reaches_from_case (hsep : Separate m.endpoints) {e : Endpoint} (he : e ∈ m.endpoints)
    {t : DispatchTable} (hf : e.handler o status = .ok f) :
    Reaches (m.requestFunctions o status t) h e.handlerName g ↔ g = f := by
  rw [← Endpoint.name_of_handler_eq_ok hf]
  exact reaches_handler (nodup_names hsep t) (mem_requestFunctions.2 (.inr ⟨e, he, hf⟩))
    (Endpoint.isDispatch_handlerBody hf)

/-- What is left of a request's way once it has come to a dispatcher of attributes. -/
theorem reaches_from_attributes (hsep : Separate m.endpoints) {e : Endpoint}
    (he : e ∈ m.endpoints) (hf : e.handler o status = .ok f) (hrole : e.role ≠ .plain)
    {n otherwise : String}
    (hd : ⟨dispatcherSignature true status n,
        [.dispatch HeaderField.attributeCode.reader
          ((DispatchTable.ofEndpoints m.endpoints).casesFor e.role) otherwise]⟩ ∈
      dispatchers o status (.ofEndpoints m.endpoints)) :
    Reaches (m.requestFunctions o status (.ofEndpoints m.endpoints)) (e.header o) n g ↔ g = f := by
  have hcase : e.case ∈ (DispatchTable.ofEndpoints m.endpoints).casesFor e.role :=
    DispatchTable.mem_casesFor.2 (.inr ⟨e, he, rfl, rfl⟩)
  -- for an attribute the code of the case is the code that the stub sends
  have hcode : e.header o .attributeCode = some e.case.code := by
    cases hr : e.role with
    | plain => exact absurd hr hrole
    | getter => simp [Endpoint.header, Endpoint.requestCodes, Endpoint.case, Endpoint.code, hr]
    | setter => simp [Endpoint.header, Endpoint.requestCodes, Endpoint.case, Endpoint.code, hr]
  have hstep := reaches_switch (g := g) .attributeCode (nodup_names hsep _)
    (mem_requestFunctions.2 (.inl hd)) rfl (DispatchTable.nodup_codes hsep e.role) hcase hcode
  exact hstep.trans (reaches_from_case hsep he hf)

/-- The request of a stub comes to its handler: in one step for a service, in two for an attribute. -/
theorem reaches_iff (hsep : Separate m.endpoints) {e : Endpoint} (he : e ∈ m.endpoints)
    (hf : e.handler o status = .ok f) :
    Reaches (m.requestFunctions o status (.ofEndpoints m.endpoints)) (e.header o) "unmarshal" g ↔
      g = f := by
  let t := DispatchTable.ofEndpoints m.endpoints
  -- the first step is common to all roles: the service code selects among the services
  have first (c : DispatchCase) (hc : c ∈ t.services) (hcode : e.requestCodes.1 = c.code) :
      Reaches (m.requestFunctions o status t) (e.header o) "unmarshal" g ↔
        Reaches (m.requestFunctions o status t) (e.header o) c.handler g :=
    reaches_switch (f := ⟨dispatcherSignature false status "unmarshal", _⟩) .serviceCode
      (nodup_names hsep t) (mem_requestFunctions.2 (.inl List.mem_cons_self)) rfl
      (DispatchTable.nodup_codes hsep .plain) hc (congrArg some hcode)
  -- an attribute takes a second step: its dispatcher follows the attribute code
  have second (c : DispatchCase) (hc : c ∈ DispatchTable.reserved.services)
      (hcode : e.requestCodes.1 = c.code) (hrole : e.role ≠ .plain)
      (hd : ⟨dispatcherSignature true status c.handler,
        [.dispatch HeaderField.attributeCode.reader (t.casesFor e.role) o.invalidAttributeCode]⟩ ∈
          dispatchers o status t) :
      Reaches (m.requestFunctions o status t) (e.header o) "unmarshal" g ↔ g = f :=
    (first c (List.mem_append_left _ hc) hcode).trans
      (reaches_from_attributes hsep he hf hrole hd)
  cases hr : e.role with
  | plain =>
    have hcase : e.case ∈ t.services := DispatchTable.mem_casesFor.2 (.inr ⟨e, he, hr, rfl⟩)
    have hcode : e.requestCodes.1 = e.case.code := by
      simp [Endpoint.requestCodes, Endpoint.case, Endpoint.code, hr]
    exact (first e.case hcase hcode).trans (reaches_from_case hsep he hf)
  | getter =>
    refine second ⟨getAttributeCode, getDispatcher⟩ List.mem_cons_self ?_ (by simp [hr]) ?_
    · simp [Endpoint.requestCodes, hr]
    · rw [hr]
      exact List.mem_cons_of_mem _ List.mem_cons_self
  | setter =>
    refine second ⟨setAttributeCode, setDispatcher⟩ (List.mem_cons_of_mem _ List.mem_cons_self) ?_
      (by simp [hr]) ?_
    · simp [Endpoint.requestCodes, hr]
    · rw [hr]
      exact List.mem_cons_of_mem _ (List.mem_cons_of_mem _ List.mem_cons_self)

/-- The lines of a dispatcher are a switch. -/
theorem lines_of_mem_dispatchers {t : DispatchTable} (hf : f ∈ dispatchers o status t) :
    ∃ selector cases otherwise, f.body = [.dispatch selector cases otherwise] ∧
      f.lines = (0, f.signature.text) :: (0, "\x7b") ::
        (Statement.switchLines 1 selector cases otherwise ++ [(0, "\x7d"), (0, "")]) := by
  have hlines {g : Function} {selector : String} {cases : List DispatchCase} {otherwise : String}
      (hg : g.body = [.dispatch selector cases otherwise]) :
      g.lines = (0, g.signature.text) :: (0, "\x7b") ::
        (Statement.switchLines 1 selector cases otherwise ++ [(0, "\x7d"), (0, "")]) := by
    rw [Function.lines, hg, List.flatMap_singleton, Statement.lines_dispatch]
  simp only [dispatchers, List.mem_cons, List.not_mem_nil, or_false] at hf
  rcases hf with rfl | rfl | rfl <;> exact ⟨_, _, _, rfl, hlines rfl⟩

/-- **Every stub reaches exactly its own handler.**  A module has a dispatch table exactly if its
handlers have different names, apart from those of the dispatchers, and no service is named as a
reserved code.  Then the table holds the endpoints' cases in order, with different codes among the
endpoints of a role and different handlers throughout, and the request that a stub sends ends in the
handler of the same endpoint, and in no other function.  The stub has a line for each field of the
header.  The functions that the request goes through are those of the unit that dispatches requests:
their lines stand in its text, and those of the dispatchers are switches over the cases. -/
theorem dispatch_routes_to_handler (o : Options) (m : Module) :
    ((∃ t, DispatchTable.build m = .ok t) ↔
      (m.endpoints.map (·.handlerName)).Nodup ∧
      (∀ e ∈ m.endpoints, e.handlerName ≠ "get_unmarshal" ∧ e.handlerName ≠ "set_unmarshal") ∧
      ∀ i ∈ m.interfaces, i.isAttributes = false → ∀ op ∈ i.operations,
        op.name ≠ "getAttribute" ∧ op.name ≠ "setAttribute") ∧
    ∀ t, DispatchTable.build m = .ok t →
      t = .ofEndpoints m.endpoints ∧
      (∀ r, ((t.casesFor r).map (·.code)).Nodup) ∧ t.handlers.Nodup ∧
      (∀ status, ∀ e ∈ m.endpoints, ∀ s, e.stub o = .ok s →
        ∃ h f, sentHeader o.transport (fun _ => none) s.body = some h ∧
          e.handler o status = .ok f ∧
          (∀ g, Reaches (m.requestFunctions o status t) h "unmarshal" g ↔ g = f) ∧
          ∀ field v, h field = some v →
            (1, "set" ++ field.word ++ "_req(request, " ++ v ++ ");") ∈ s.lines) ∧
      (∀ items, CUnit.dispatchSource.items o m = .ok items →
        Item.functions items = m.requestFunctions o (o.statusType m.name) t ∧
        CUnit.dispatchSource.render o m = .ok (Layout.page o.indentText (Item.linesAll items)) ∧
        ∀ f ∈ Item.functions items, f.lines <:+: Item.linesAll items) ∧
      ∀ status, ∀ f ∈ dispatchers o status t, ∃ selector cases otherwise,
        f.body = [.dispatch selector cases otherwise] ∧
          f.lines = (0, f.signature.text) :: (0, "\x7b") ::
            (Statement.switchLines 1 selector cases otherwise ++ [(0, "\x7d"), (0, "")]) := by
  refine ⟨?_, fun t ht => ?_⟩
  · rw [← separate_endpoints_iff]
    constructor
    · rintro ⟨t, ht⟩
      exact (DispatchTable.build_eq_ok_iff.1 ht).1
    · intro hsep
      exact ⟨_, DispatchTable.build_eq_ok_iff.2 ⟨hsep, rfl⟩⟩
  · obtain ⟨hsep, rfl⟩ := DispatchTable.build_eq_ok_iff.1 ht
    refine ⟨rfl, DispatchTable.nodup_codes hsep, DispatchTable.nodup_handlers hsep, ?_, ?_,
      fun status f hf => lines_of_mem_dispatchers hf⟩
    · intro status e he s hs
      obtain ⟨f, hf⟩ := Endpoint.exists_handler_of_stub status hs
      have hsent := Endpoint.sentHeader_stub hs
      exact ⟨_, f, hsent, hf, fun g => reaches_iff hsep he hf,
        fun field v => Endpoint.line_of_sentHeader hsent⟩
    · intro items hitems
      obtain ⟨u, hs, hu, hhs, hfunctions⟩ := CUnit.functions_dispatchSource hitems
      obtain rfl := Except.ok.inj (ht.symm.trans hu)
      refine ⟨?_, ?_, fun f hf => Item.infix_lines_of_mem_functions hf⟩
      · rw [hfunctions, requestFunctions, filterMap_toOption_of_mapM hhs]
      · rw [CUnit.render, hitems, ← Item.render_layoutAll]
        rfl

/-- A value that is set: an attribute with a setter and a getter. -/
def levelSetter : Endpoint :=
  let level : Operation := ⟨"level", .primitive .long, [⟨"value", .primitive .long, .inout⟩], []⟩
  ⟨⟨"Attributes", ⟨["Climate", "Attributes"]⟩, [level]⟩, level, .setter⟩

/-- A module with a service and an attribute. -/
def climate : Module :=
  let reset : Operation := ⟨"reset", .void, [⟨"zone", .primitive .octet, .input⟩], []⟩
  ⟨"Climate", [], [⟨"Control", ⟨["Climate", "Control"]⟩, [reset]⟩, levelSetter.interface]⟩

theorem dispatch_routes_to_handler_climate :
    ∃ t s f h, DispatchTable.build climate = .ok t ∧ levelSetter.stub {} = .ok s ∧
      sentHeader "SendMessage" (fun _ => none) s.body = some h ∧
      h .serviceCode = some "k_SC_setAttribute" ∧ h .attributeCode = some "k_AC_level" ∧
      levelSetter.handler {} "Climate_ErrorCode" = .ok f ∧
      f.signature.name = "set_level_unmarshal" ∧
      (∀ g, Reaches (climate.requestFunctions {} "Climate_ErrorCode" t) h "unmarshal" g ↔ g = f) ∧
      (1, "setAttributeCode_req(request, k_AC_level);") ∈ s.lines := by
  have hmem : levelSetter ∈ climate.endpoints := .tail _ (.tail _ (.head _))
  obtain ⟨-, -, -, hroutes, -⟩ := (dispatch_routes_to_handler {} climate).2 _ rfl
  obtain ⟨h, f, hsent, hf, hreaches, hset⟩ := hroutes "Climate_ErrorCode" levelSetter hmem _ rfl
  have hheader : h = levelSetter.header {} :=
    Option.some.inj (hsent.symm.trans (Endpoint.sentHeader_stub (e := levelSetter) rfl))
  cases hf
  have hattribute : h .attributeCode = some "k_AC_level" := by rw [hheader]; rfl
  exact ⟨_, _, _, h, rfl, rfl, hsent, by rw [hheader]; rfl, hattribute, rfl, rfl, hreaches,
    hset .attributeCode _ hattribute⟩

end Module

end WireStub
