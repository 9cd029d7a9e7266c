import Mathlib.Data.List.Nodup
import WireStub.Proofs.Code.Escaping
import WireStub.Proofs.Endpoint.Agreement

/-!
# Names that parameters capture

A handler declares the parameters of its operation as variables, and a stub has them as its own.  There
they meet the other variables of the function, which have fixed names, and hide every function of the
same name that the body calls.  Escaping keeps the parameters apart from the fixed names, but it does not
know the functions, and two parameters can be escaped to one identifier.

* `Function.locals` are the variables of a function, and `Function.callees` the functions that it calls;
* `Endpoint.Uncaptured` lists what has to be true of the identifiers of parameters, and
  `Endpoint.uncaptured_iff_of_endings` is a rule that a schema can follow;
* `Endpoint.locals_handler` and `Endpoint.callees_handler` say what is in a handler, and their kin what
  is in a stub;
* `Endpoint.uncaptured_iff` is the main statement.
-/

namespace WireStub

/-! ### Names in bodies -/

/-- The words in a text that an opening parenthesis follows; `word` has been read so far. -/
def calledFrom (word : List Char) : List Char → List (List Char)
  | [] => []
  | c :: cs =>
    if Identifier.isWordChar c then calledFrom (word ++ [c]) cs
    else if c = '(' ∧ word ≠ [] then word :: calledFrom [] cs
    else calledFrom [] cs

/-- The names that a text calls. -/
def calledIn (text : String) : List String := (calledFrom [] text.toList).map String.ofList

/-- No word goes on behind a closing parenthesis. -/
theorem calledFrom_append_close (word cs ds : List Char) :
    calledFrom word (cs ++ ')' :: ds) = calledFrom word cs ++ calledFrom [] ds := by
  induction cs generalizing word with
  | nil => rfl
  | cons c cs ih =>
    simp only [List.cons_append, calledFrom, ih]
    split_ifs <;> rfl

/-- A value with a type in parentheses before it. -/
theorem calledIn_cast (type value : String) :
    calledIn ("(" ++ type ++ (")" ++ value)) = calledIn type ++ calledIn value := by
  have hopen (cs : List Char) : calledFrom [] ('(' :: cs) = calledFrom [] cs := rfl
  simp [calledIn, hopen, calledFrom_append_close]

theorem calledIn_eq_nil {text : String} (h : '(' ∉ text.toList) : calledIn text = [] := by
  rw [calledIn, List.map_eq_nil_iff]
  generalize text.toList = cs at h
  generalize [] = word
  induction cs generalizing word with
  | nil => rfl
  | cons c cs ih =>
    obtain ⟨hc, hcs⟩ := not_or.1 (mt List.mem_cons.2 h)
    have hne : c ≠ '(' := fun heq => hc heq.symm
    simp [calledFrom, ih hcs, hne]

namespace Statement

/-- The variables that a statement declares. -/
def declared : Statement → List String
  | declare _ name => [name]
  | startCounter counter _ => [counter]
  | startOffset isNew _ => if isNew then ["offset"] else []
  | invoke result _ _ => if result.isSome then ["retval"] else []
  | loop depth _ body => indexName depth :: body.declared
  | advance .. | delegate _ | setField .. | setLength _ | storeLength _ | giveBack _
  | dispatch .. | line _ => []

/-- The functions that a statement calls. -/
def callees : Statement → List String
  | startOffset _ buffer => ["getPayloadOffset" ++ buffer.ending]
  | advance _ call | delegate call => [call.half.functionName call.type]
  | invoke _ function _ => [function]
  | setField field _ => ["set" ++ field.word ++ "_req"]
  | setLength buffer => ["setLength" ++ buffer.ending]
  | storeLength _ => ["uint32_t_marshal"]
  | giveBack value => calledIn value
  | loop _ _ body => body.callees
  | dispatch selector cases otherwise =>
    calledIn selector ++ cases.map (·.handler) ++ calledIn otherwise
  | line text => calledIn text
  | declare .. | startCounter .. => []

end Statement

/-- The variables of a function: its parameters, and what its body declares. -/
def Function.locals (f : Function) : List String :=
  f.signature.parameters.map (·.name) ++ f.body.flatMap (·.declared)

/-- The functions that a function calls. -/
def Function.callees (f : Function) : List String := f.body.flatMap (·.callees)

namespace Endpoint

variable {o : Options} {status : String} {e : Endpoint} {c : CType} {ps : List WireParameter}
  {f g : Function}

/-! ### Identifiers of parameters -/

/-- The C identifiers of the declared parameters. -/
def identifiers (e : Endpoint) : List String :=
  e.operation.parameters.map fun p => Identifier.escape p.name

theorem map_name_of_parameters (h : e.parameters = .ok ps) : ps.map (·.name) = e.identifiers := by
  refine map_eq_map_of_mapM (fun p w hw => ?_) h
  obtain ⟨c, -, hw⟩ := bind_eq_ok.1 hw
  rw [← Except.ok.inj hw]

/-- Every parameter travels in one of the messages. -/
theorem mem_parts {p : WireParameter} (hp : p ∈ ps) :
    p ∈ e.requestPart ps ∨ p ∈ e.responsePart ps := by
  simp only [requestPart, responsePart, List.mem_filter, hp, true_and]
  cases e.role <;> cases p.direction <;> decide

theorem not_mem_reserved_of_mem_identifiers {x : String} (h : x ∈ e.identifiers) :
    x ∉ Identifier.reserved := by
  obtain ⟨p, -, rfl⟩ := List.mem_map.1 h
  exact Identifier.escape_not_mem_reserved p.name

/-- No parameter is a reserved word beside another one that is the word with an underscore. -/
def Twinless (e : Endpoint) : Prop :=
  ∀ p ∈ e.operation.parameters, p.name ∈ Identifier.reserved →
    ∀ q ∈ e.operation.parameters, q.name ≠ p.name.push '_'

instance (e : Endpoint) : Decidable e.Twinless :=
  inferInstanceAs (Decidable (∀ p ∈ _, _ → ∀ q ∈ _, _))

/-- Different parameters have different identifiers exactly if there are no such two. -/
theorem nodup_identifiers_iff (hvalid : ∀ p ∈ e.operation.parameters, Identifier.IsValid p.name)
    (hdistinct : (e.operation.parameters.map (·.name)).Nodup) :
    e.identifiers.Nodup ↔ e.Twinless := by
  rw [identifiers, List.nodup_map_iff_inj_on hdistinct.of_map]
  constructor
  · intro hinj p hp hreserved q hq hname
    have hsame := (Identifier.escape_eq_iff (hvalid p hp) (hvalid q hq)).2
      (.inr (.inl ⟨hreserved, hname⟩))
    have hpush : p.name = p.name.push '_' := (congrArg Parameter.name (hinj p hp q hq hsame)).trans hname
    simpa using congrArg String.length hpush
  · intro htwinless p hp q hq hsame
    rcases (Identifier.escape_eq_iff (hvalid p hp) (hvalid q hq)).1 hsame with
      hname | ⟨hreserved, hname⟩ | ⟨hreserved, hname⟩
    · exact List.inj_on_of_nodup_map hdistinct hp hq hname
    · exact absurd hname (htwinless p hp hreserved q hq)
    · exact absurd hname (htwinless q hq hreserved p hp)

/-! ### Both functions -/

/-- The accessors of the buffers that a handler and a stub call. -/
def accessors (e : Endpoint) : List String :=
  ["getPayloadOffset_req", "getPayloadOffset_resp", "setLength_req", "setLength_resp",
    "setClassCode_req", "setInstanceNumber_req", "setServiceCode_req", "setAttributeCode_req"] ++
    if e.isVoid then [] else ["getStatusCode_resp"]

/-- The texts around the values that a handler and a stub give back: the status of an operation that
returns nothing, or else the types to which the status is converted. -/
def resultTexts (o : Options) (status : String) (e : Endpoint) (c : CType) : List String :=
  if e.isVoid then [o.successStatus] else [status, c.name]

theorem declared_moves (cs : List CodecCall) :
    (cs.map (Statement.advance "offset")).flatMap (·.declared) = [] := by
  simp [List.flatMap_map, Statement.declared]

theorem locals_handler (hf : e.handler o status = .ok f) :
    f.locals = ["request", "response", "offset"] ++ e.identifiers ++
      if e.isVoid then [] else ["retval"] := by
  obtain ⟨c, ps, -, hps, rfl⟩ := handler_eq_ok hf
  have hparameters : (declarations ps).flatMap (·.declared) = e.identifiers := by
    rw [← map_name_of_parameters hps, declarations, List.flatMap_map]
    exact List.flatMap_pure_eq_map _ ps
  rw [Function.locals, handlerBody_eq]
  simp only [List.flatMap_append, List.flatMap_cons, declared_moves, hparameters]
  cases hvoid : e.isVoid <;>
    simp [handlerSignature, handlerParameters, serverCall, handlerReturn, Statement.declared, hvoid]

theorem declared_readResponse : (e.readResponse ps).flatMap (·.declared) = [] := by
  unfold readResponse
  split
  · rfl
  · simp [List.flatMap_map, Statement.declared]

theorem locals_stub (hg : e.stub o = .ok g) :
    g.locals = (if o.stubInstanceArgument then ["instanceNum"] else []) ++ e.identifiers ++
      ["request", "response", "offset"] := by
  obtain ⟨c, ps, -, hps, rfl⟩ := stub_eq_ok hg
  have hparameters : (ps.map (·.toC e.role)).map (·.name) = e.identifiers := by
    rw [← map_name_of_parameters hps, List.map_map]
    rfl
  rw [Function.locals, stubBody_eq]
  simp only [List.flatMap_append, List.flatMap_cons, declared_moves, declared_readResponse,
    stubParameters, List.map_append, hparameters]
  cases o.stubInstanceArgument <;> cases hvoid : e.isVoid <;>
    simp [stubOpening, sending, stubReturn, instanceParameter, Buffer.variableName,
      Statement.declared, hvoid]

theorem callees_moves (cs : List CodecCall) :
    (cs.map (Statement.advance "offset")).flatMap (·.callees) =
      cs.map fun x => x.half.functionName x.type := by
  rw [List.flatMap_map]
  exact List.flatMap_pure_eq_map _ cs

/-- The codec functions of parameters. -/
def codecsOf (h : Half) (ps : List WireParameter) : List String := ps.map fun p => h.functionName p.type

theorem callees_declarations : (declarations ps).flatMap (·.callees) = [] := by
  simp [declarations, List.flatMap_map, Statement.callees]

theorem callees_handler (hf : e.handler o status = .ok f) (hps : e.parameters = .ok ps) :
    f.callees = "getPayloadOffset_req" :: (codecsOf .unmarshal (e.requestPart ps) ++
      e.functionName :: "getPayloadOffset_resp" :: (codecsOf .marshal (e.responsePart ps) ++
        "setLength_resp" :: calledIn (if e.isVoid then o.successStatus else status))) := by
  obtain ⟨c, ps', -, hps', rfl⟩ := handler_eq_ok hf
  obtain rfl : ps = ps' := Except.ok.inj (hps.symm.trans hps')
  have hreads : ((e.handlerReads ps).map fun x => x.half.functionName x.type) =
      codecsOf .unmarshal (e.requestPart ps) := List.map_map
  have hwrites : ((e.handlerWrites ps).map fun x => x.half.functionName x.type) =
      codecsOf .marshal (e.responsePart ps) := List.map_map
  have hresult : calledIn (if e.isVoid then o.successStatus else "(" ++ status ++ ")retval") =
      calledIn (if e.isVoid then o.successStatus else status) := by
    cases e.isVoid
    · exact (calledIn_cast status "retval").trans (List.append_nil (calledIn status))
    · rfl
  rw [Function.callees, handlerBody_eq]
  simp only [List.flatMap_append, List.flatMap_cons, List.flatMap_nil, callees_moves, hreads, hwrites,
    callees_declarations, serverCall, handlerReturn, Statement.callees, hresult, Buffer.ending,
    List.append_nil, List.nil_append, List.cons_append]
  rfl

theorem callees_stub (hg : e.stub o = .ok g) (hc : e.returnType = .ok c)
    (hps : e.parameters = .ok ps) :
    g.callees = ["setClassCode_req", "setInstanceNumber_req", "setServiceCode_req",
        "setAttributeCode_req", "getPayloadOffset_req"] ++ codecsOf .marshal (e.requestPart ps) ++
      ["setLength_req", o.transport] ++
      (if (e.responsePart ps).isEmpty then []
        else "getPayloadOffset_resp" :: codecsOf .unmarshal (e.responsePart ps)) ++
      if e.isVoid then [] else calledIn c.name ++ ["getStatusCode_resp"] := by
  obtain ⟨c', ps', hc', hps', rfl⟩ := stub_eq_ok hg
  obtain rfl : c = c' := Except.ok.inj (hc.symm.trans hc')
  obtain rfl : ps = ps' := Except.ok.inj (hps.symm.trans hps')
  have hwrites : ((e.stubWrites ps).map fun x => x.half.functionName x.type) =
      codecsOf .marshal (e.requestPart ps) := List.map_map
  have hread : (e.readResponse ps).flatMap (·.callees) =
      if (e.responsePart ps).isEmpty then []
        else "getPayloadOffset_resp" :: codecsOf .unmarshal (e.responsePart ps) := by
    unfold readResponse
    split
    · rfl
    · rw [List.flatMap_cons, List.flatMap_map]
      exact congrArg ("getPayloadOffset_resp" :: ·) (List.flatMap_pure_eq_map _ _)
  have hresult : (e.stubReturn c).flatMap (·.callees) =
      if e.isVoid then [] else calledIn c.name ++ ["getStatusCode_resp"] := by
    unfold stubReturn
    split
    · rfl
    · rw [List.flatMap_singleton]
      exact calledIn_cast c.name "getStatusCode_resp(response)"
  rw [Function.callees, stubBody_eq]
  simp only [List.flatMap_append, List.flatMap_cons, callees_moves, hwrites, hread, hresult]
  simp [stubOpening, sending, Statement.callees, HeaderField.word, Buffer.ending]

/-! ### Captured names -/

/-- The identifiers of parameters are none of the functions that the handler and the stub call. -/
structure Uncaptured (o : Options) (status : String) (e : Endpoint) (c : CType)
    (ps : List WireParameter) : Prop where
  /-- The server function, which the handler calls. -/
  server : e.functionName ∉ e.identifiers
  /-- The function by which the stub sends the request. -/
  transport : o.transport ∉ e.identifiers
  accessors : ∀ a ∈ e.accessors, a ∉ e.identifiers
  /-- Both codec functions of every parameter, for one function writes what the other one reads. -/
  codecs : ∀ p ∈ ps, ∀ h : Half, h.functionName p.type ∉ e.identifiers
  results : ∀ t ∈ resultTexts o status e c, ∀ x ∈ calledIn t, x ∉ e.identifiers

/-- Identifiers of parameters between reserved words. -/
theorem nodup_between {front back : List String} (hfixed : (front ++ back).Nodup)
    (hreserved : ∀ x ∈ front ++ back, x ∈ Identifier.reserved) :
    (front ++ e.identifiers ++ back).Nodup ↔ e.identifiers.Nodup := by
  have hperm : (front ++ e.identifiers ++ back).Perm (e.identifiers ++ (front ++ back)) := by
    rw [List.append_assoc]
    exact List.perm_append_comm_assoc front e.identifiers back
  rw [hperm.nodup_iff, List.nodup_append]
  refine ⟨fun h => h.1, fun h => ⟨h, hfixed, fun a ha b hb hab => ?_⟩⟩
  exact not_mem_reserved_of_mem_identifiers ha (hreserved a (hab ▸ hb))

/-- The variables with fixed names are no parameters, so all are different if the parameters are. -/
theorem nodup_locals_handler (hf : e.handler o status = .ok f) :
    f.locals.Nodup ↔ e.identifiers.Nodup := by
  rw [locals_handler hf]
  cases e.isVoid
  · exact nodup_between (by decide) (by decide)
  · exact nodup_between (by decide) (by decide)

theorem nodup_locals_stub (hg : e.stub o = .ok g) : g.locals.Nodup ↔ e.identifiers.Nodup := by
  rw [locals_stub hg]
  cases o.stubInstanceArgument
  · exact nodup_between (by decide) (by decide)
  · exact nodup_between (by decide) (by decide)

/-- What both functions call together. -/
theorem forall_callees_iff {q : String → Prop} (hf : e.handler o status = .ok f)
    (hg : e.stub o = .ok g) (hc : e.returnType = .ok c) (hps : e.parameters = .ok ps) :
    ((∀ x ∈ f.callees, q x) ∧ ∀ x ∈ g.callees, q x) ↔
      q e.functionName ∧ q o.transport ∧ (∀ a ∈ e.accessors, q a) ∧
        (∀ p ∈ ps, ∀ h : Half, q (h.functionName p.type)) ∧
        ∀ t ∈ resultTexts o status e c, ∀ x ∈ calledIn t, q x := by
  have hparts : (∀ p ∈ ps, ∀ h : Half, q (h.functionName p.type)) ↔
      ∀ h : Half, (∀ x ∈ codecsOf h (e.requestPart ps), q x) ∧
        ∀ x ∈ codecsOf h (e.responsePart ps), q x := by
    simp only [codecsOf, List.forall_mem_map]
    constructor
    · exact fun hall h => ⟨fun p hp => hall p (mem_of_mem_requestPart hp) h,
        fun p hp => hall p (mem_of_mem_responsePart hp) h⟩
    · intro hall p hp h
      rcases mem_parts hp with hp | hp
      · exact (hall h).1 p hp
      · exact (hall h).2 p hp
  have hhalves {r : Half → Prop} : (∀ h, r h) ↔ r .marshal ∧ r .unmarshal :=
    ⟨fun h => ⟨h _, h _⟩, fun h half => by cases half; exacts [h.1, h.2]⟩
  rw [callees_handler hf hps, callees_stub hg hc hps, hparts, hhalves, accessors, resultTexts]
  -- the stub asks for the payload of the response only if something is read from it
  by_cases hresponse : e.responsePart ps = []
  · cases e.isVoid <;> simp [hresponse, codecsOf, or_imp, forall_and] <;> grind
  · cases e.isVoid <;> simp [hresponse, or_imp, forall_and] <;> grind

/-- No parameter hides a function that one of the bodies calls exactly if it is free of all of them. -/
theorem forall_not_mem_callees_iff (hf : e.handler o status = .ok f) (hg : e.stub o = .ok g)
    (hc : e.returnType = .ok c) (hps : e.parameters = .ok ps) :
    (∀ x ∈ e.identifiers, x ∉ f.callees ∧ x ∉ g.callees) ↔ e.Uncaptured o status c ps := by
  have hcallees := forall_callees_iff (q := (· ∉ e.identifiers)) hf hg hc hps
  constructor
  · intro h
    obtain ⟨hserver, htransport, haccessors, hcodecs, hresults⟩ :=
      hcallees.1 ⟨fun x hx hmem => (h x hmem).1 hx, fun x hx hmem => (h x hmem).2 hx⟩
    exact ⟨hserver, htransport, haccessors, hcodecs, hresults⟩
  · intro h x hx
    obtain ⟨hhandler, hstub⟩ :=
      hcallees.2 ⟨h.server, h.transport, h.accessors, h.codecs, h.results⟩
    exact ⟨fun hmem => hhandler x hmem hx, fun hmem => hstub x hmem hx⟩

/-- The endings of the names of accessors and codec functions. -/
def calleeEndings : List String := ["_req", "_resp", "_marshal", "_unmarshal"]

/-- Parameters whose names end otherwise can only capture the server function and the one that sends
requests. -/
theorem uncaptured_iff_of_endings
    (hends : ∀ x ∈ e.identifiers, ∀ ending ∈ calleeEndings, ¬ending.toList <:+ x.toList)
    (hresults : ∀ t ∈ resultTexts o status e c, '(' ∉ t.toList) :
    e.Uncaptured o status c ps ↔ e.functionName ∉ e.identifiers ∧ o.transport ∉ e.identifiers := by
  have haccessors : ∀ a ∈ e.accessors, ∃ ending ∈ calleeEndings, ending.toList <:+ a.toList := by
    unfold accessors
    cases e.isVoid <;> decide
  have hcodec (h : Half) (c : CType) :
      ∃ ending ∈ calleeEndings, ending.toList <:+ (h.functionName c).toList := by
    cases h
    · exact ⟨"_marshal", by decide, by simp [Half.functionName]⟩
    · exact ⟨"_unmarshal", by decide, by simp [Half.functionName]⟩
  have hother {x : String} (hx : ∃ ending ∈ calleeEndings, ending.toList <:+ x.toList) :
      x ∉ e.identifiers := by
    obtain ⟨ending, hending, hsuffix⟩ := hx
    exact fun hmem => hends x hmem ending hending hsuffix
  refine ⟨fun h => ⟨h.server, h.transport⟩, fun h => ⟨h.1, h.2, fun a ha => hother (haccessors a ha),
    fun p _ half => hother (hcodec half p.type), fun t ht x hx => ?_⟩⟩
  rw [calledIn_eq_nil (hresults t ht)] at hx
  cases hx

/-- **What parameters capture.**  The identifiers of parameters are never the fixed names of variables in
the handler and the stub.  If the parameters have different names that are identifiers of C, all variables
of both functions are different exactly if no parameter is a reserved word beside another one that is the
word with an underscore.  No parameter hides a function that one of the bodies calls exactly if the server
function, the sending function, the accessors, the codec functions of all parameters, and what the status
texts call have other names.  For parameters whose names do not end like accessors and codec functions,
and texts that call nothing, the server function and the sending function are left. -/
theorem uncaptured_iff (hf : e.handler o status = .ok f) (hg : e.stub o = .ok g)
    (hvalid : ∀ p ∈ e.operation.parameters, Identifier.IsValid p.name)
    (hdistinct : (e.operation.parameters.map (·.name)).Nodup) :
    ∃ c ps, e.returnType = .ok c ∧ e.parameters = .ok ps ∧
      f.locals = ["request", "response", "offset"] ++ e.identifiers ++
        (if e.isVoid then [] else ["retval"]) ∧
      g.locals = (if o.stubInstanceArgument then ["instanceNum"] else []) ++ e.identifiers ++
        ["request", "response", "offset"] ∧
      (∀ x ∈ e.identifiers, x ∉ ["request", "response", "offset", "retval", "instanceNum"]) ∧
      (f.locals.Nodup ↔ e.Twinless) ∧ (g.locals.Nodup ↔ e.Twinless) ∧
      ((∀ x ∈ e.identifiers, x ∉ f.callees ∧ x ∉ g.callees) ↔ e.Uncaptured o status c ps) ∧
      ((∀ x ∈ e.identifiers, ∀ ending ∈ calleeEndings, ¬ending.toList <:+ x.toList) →
        (∀ t ∈ resultTexts o status e c, '(' ∉ t.toList) →
          (e.Uncaptured o status c ps ↔
            e.functionName ∉ e.identifiers ∧ o.transport ∉ e.identifiers)) := by
  obtain ⟨c, ps, hc, hps, -⟩ := handler_eq_ok hf
  have htwins := nodup_identifiers_iff hvalid hdistinct
  have hfixed : ∀ x ∈ ["request", "response", "offset", "retval", "instanceNum"],
      x ∈ Identifier.reserved := by decide
  exact ⟨c, ps, hc, hps, locals_handler hf, locals_stub hg,
    fun x hx hmem => not_mem_reserved_of_mem_identifiers hx (hfixed x hmem),
    (nodup_locals_handler hf).trans htwins, (nodup_locals_stub hg).trans htwins,
    forall_not_mem_callees_iff hf hg hc hps, uncaptured_iff_of_endings⟩

/-- All parameters of the attribute are free. -/
theorem uncaptured_iff_levelGetter :
    ∃ f g, levelGetter.handler {} "Demo_ErrorCode" = .ok f ∧ levelGetter.stub {} = .ok g ∧
      (∀ p ∈ levelGetter.operation.parameters, Identifier.IsValid p.name) ∧
      (levelGetter.operation.parameters.map (·.name)).Nodup ∧
      f.locals = ["request", "response", "offset", "channel", "offset_", "position", "retval"] ∧
      f.locals.Nodup ∧ g.locals.Nodup ∧
      ∀ x ∈ levelGetter.identifiers, x ∉ f.callees ∧ x ∉ g.callees := by
  have hvalid : ∀ p ∈ levelGetter.operation.parameters, Identifier.IsValid p.name := by decide
  have hdistinct : (levelGetter.operation.parameters.map (·.name)).Nodup := by decide
  have htwinless : levelGetter.Twinless := by decide
  have hf : levelGetter.handler {} "Demo_ErrorCode" = .ok _ := rfl
  have hg : levelGetter.stub {} = .ok _ := rfl
  obtain ⟨c, ps, hc, -, hlocals, -, -, hhandler, hstub, huncaptured, hrule⟩ :=
    uncaptured_iff hf hg hvalid hdistinct
  have htype : c = ⟨"int32_t", true⟩ := Except.ok.inj (hc.symm.trans rfl)
  refine ⟨_, _, hf, hg, hvalid, hdistinct, hlocals, hhandler.2 htwinless, hstub.2 htwinless,
    huncaptured.2 ((hrule (by decide) ?_).2 (by decide))⟩
  rw [htype]
  decide

/-- An operation with a parameter that is named like it, and two that differ in an underscore. -/
def levelSetting : Endpoint :=
  let level : Operation :=
    ⟨"level", .primitive .void,
      [⟨"level", .primitive .long, .input⟩, ⟨"default", .primitive .octet, .input⟩,
       ⟨"default_", .primitive .octet, .input⟩], []⟩
  ⟨⟨"Control", ⟨["Demo", "Control"]⟩, [level]⟩, level, .plain⟩

/-- The handler declares a variable named like the server function before it calls it, and two
variables of one name. -/
theorem level_captures_server_function :
    ∃ f, levelSetting.handler {} "Demo_ErrorCode" = .ok f ∧
      (∀ p ∈ levelSetting.operation.parameters, Identifier.IsValid p.name) ∧
      (levelSetting.operation.parameters.map (·.name)).Nodup ∧
      f.locals = ["request", "response", "offset", "level", "default_", "default_"] ∧
      f.callees = ["getPayloadOffset_req", "int32_t_unmarshal", "uint8_t_unmarshal",
        "uint8_t_unmarshal", "level", "getPayloadOffset_resp", "setLength_resp"] :=
  ⟨_, rfl, by decide, by decide, rfl, by decide⟩

end Endpoint

end WireStub
