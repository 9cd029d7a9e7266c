import WireStub.Proofs.Endpoint.Passes

/-!
# Agreement of stub and handler

The stub and the handler of an endpoint are generated one without the other, yet they have to agree
on the layout of both messages (`Endpoint.stub_handler_agree`).

Both bodies are passes over the request and over the response (`Endpoint.stubBody_eq`,
`Endpoint.handlerBody_eq`), which move the same selected parameters (`Endpoint.stubBody_items`,
`Endpoint.handlerBody_items`).
-/

namespace WireStub

namespace Endpoint

open Statement (Quiet Still Frame Pass visits positions lengths partLines partLines_append
  sublist_pass sublist_lines)

variable {o : Options} {status : String} {e : Endpoint} {c : CType} {ps : List WireParameter}

/-! ### The stub -/

/-- The calls by which a stub writes the request. -/
def stubWrites (e : Endpoint) (ps : List WireParameter) : List CodecCall :=
  (e.requestPart ps).map (·.stubWrite e.role)

/-- The calls by which a stub reads the response. -/
def stubReads (e : Endpoint) (ps : List WireParameter) : List CodecCall :=
  (e.responsePart ps).map (·.stubRead e.role)

/-- What a stub does before it writes the request. -/
def stubOpening (o : Options) (e : Endpoint) : List Statement :=
  [.declare Buffer.request.typeName Buffer.request.variableName,
   .declare Buffer.response.typeName Buffer.response.variableName,
   .declare "uint32_t" "offset",
   .setField .classCode e.classCode,
   .setField .instanceNumber (if o.stubInstanceArgument then instanceParameter.name else "0"),
   .setField .serviceCode e.requestCodes.1,
   .setField .attributeCode e.requestCodes.2]

/-- How a stub sends the request. -/
def sending (o : Options) : List Statement :=
  [.setLength .request,
   .invoke none o.transport [⟨.itself, Buffer.request.variableName⟩,
     ⟨.itself, Buffer.response.variableName⟩]]

/-- What a stub returns. -/
def stubReturn (e : Endpoint) (c : CType) : List Statement :=
  if e.isVoid then [] else [.giveBack ("(" ++ c.name ++ ")getStatusCode_resp(response)")]

theorem stubBody_eq (o : Options) (e : Endpoint) (c : CType) (ps : List WireParameter) :
    e.stubBody o c ps =
      stubOpening o e ++ (.startOffset false .request ::
        ([] ++ (e.stubWrites ps).map (.advance "offset")) ++
          (sending o ++ (e.readResponse ps ++ e.stubReturn c))) := by
  simp only [stubBody, stubOpening, sending, stubReturn, stubWrites, List.map_map,
    List.append_assoc, List.cons_append, List.nil_append]
  rfl

theorem frame_stub : Frame (stubOpening o e) (sending o) (e.stubReturn c) where
  opening := by
    simp [stubOpening, Quiet, Statement.calls, Statement.unroll, Statement.cursorAfter,
      Statement.disturbs, Statement.measured]
  middle := by
    simp [sending, Quiet, Still, Statement.calls, Statement.unroll, Statement.cursorAfter,
      Statement.disturbs]
  closing := by
    unfold stubReturn
    split <;> simp [Quiet, Still, Statement.calls, Statement.unroll, Statement.cursorAfter,
      Statement.disturbs]

theorem mem_of_mem_requestPart {p : WireParameter} (hp : p ∈ e.requestPart ps) : p ∈ ps :=
  List.mem_of_mem_filter hp

theorem mem_of_mem_responsePart {p : WireParameter} (hp : p ∈ e.responsePart ps) : p ∈ ps :=
  List.mem_of_mem_filter hp

theorem keeps_stubWrites (h : e.parameters = .ok ps) :
    ∀ x ∈ e.stubWrites ps, Statement.Keeps "offset" "offset" x := by
  intro x hx
  obtain ⟨p, hp, rfl⟩ := List.mem_map.1 hx
  refine keeps_of_place_ne rfl ?_
  have hplace : (p.stubWrite e.role).argument.place = p.name :=
    congrArg Prod.fst (p.item_stubWrite e.role)
  rw [hplace]
  exact name_ne_offset h (mem_of_mem_requestPart hp)

theorem keeps_stubReads (h : e.parameters = .ok ps) :
    ∀ x ∈ e.stubReads ps, Statement.Keeps "offset" "offset" x := by
  intro x hx
  obtain ⟨p, hp, rfl⟩ := List.mem_map.1 hx
  exact keeps_of_place_ne rfl (name_ne_offset h (mem_of_mem_responsePart hp))

theorem pass_writeRequest (h : e.parameters = .ok ps) :
    Pass .request (e.stubWrites ps)
      (.startOffset false .request :: ([] ++ (e.stubWrites ps).map (.advance "offset"))) :=
  .run false (by simp) (keeps_stubWrites h)

/-- Without parameters in the response a stub does not look at it. -/
theorem readResponse_eq (e : Endpoint) (ps : List WireParameter) :
    e.readResponse ps = if e.stubReads ps = [] then []
      else .startOffset false .response :: ([] ++ (e.stubReads ps).map (.advance "offset")) := by
  have hnil : (e.responsePart ps).isEmpty = true ↔ e.stubReads ps = [] := by simp [stubReads]
  rw [readResponse, stubReads, List.map_map]
  simp only [hnil, stubReads]
  rfl

theorem pass_readResponse (h : e.parameters = .ok ps) :
    Pass .response (e.stubReads ps) (e.readResponse ps) := by
  rw [readResponse_eq]
  split
  case isTrue hnil => exact hnil ▸ .skip
  case isFalse => exact .run false (by simp) (keeps_stubReads h)

theorem readResponse_eq_nil_iff : e.readResponse ps = [] ↔ e.stubReads ps = [] := by
  rw [readResponse_eq]
  split
  case isTrue hnil => simp [hnil]
  case isFalse hne => simp [hne]

theorem stubBody_calls (h : e.parameters = .ok ps) :
    (e.stubBody o c ps).flatMap Statement.calls = e.stubWrites ps ++ e.stubReads ps := by
  rw [stubBody_eq]
  exact Statement.flatMap_calls_passes frame_stub (pass_writeRequest h) (pass_readResponse h)

theorem stubBody_visits (h : e.parameters = .ok ps) :
    visits "offset" "offset" (e.stubBody o c ps) =
      (Cursor.start (.payload .request)).run (e.stubWrites ps) ++
        (Cursor.start (.payload .response)).run (e.stubReads ps) := by
  rw [stubBody_eq]
  exact Statement.visits_passes frame_stub (pass_writeRequest h) (pass_readResponse h)

theorem stubBody_positions (h : e.parameters = .ok ps) :
    positions "offset" (e.stubBody o c ps) =
      (Cursor.start (.payload .request)).trail (e.stubWrites ps) ++
        if e.stubReads ps = [] then []
        else (Cursor.start (.payload .response)).trail (e.stubReads ps) := by
  rw [stubBody_eq, Statement.positions_passes frame_stub (pass_writeRequest h)
    (List.cons_ne_nil _ _) (pass_readResponse h)]
  simp only [readResponse_eq_nil_iff]

theorem stubBody_lengths (h : e.parameters = .ok ps) :
    lengths (e.stubBody o c ps) = [(.request, some ⟨.payload .request, e.stubWrites ps⟩)] := by
  have hreturn : (e.stubReturn c).flatMap Statement.measured = [] := by
    unfold stubReturn
    split <;> rfl
  rw [stubBody_eq, Statement.lengths_passes frame_stub (pass_writeRequest h)
    (List.cons_ne_nil _ _) (pass_readResponse h), hreturn]
  rfl

theorem sublist_stubBody (o : Options) (c : CType) (h : e.parameters = .ok ps) :
    ((stubLines (e.stubWrites ps) (e.stubReads ps)).map fun text => (1, text)).Sublist
      (partLines (e.stubBody o c ps)) := by
  have hsending : [(1, Buffer.request.lengthLine)].Sublist (partLines (sending o)) :=
    List.singleton_sublist.2 List.mem_cons_self
  have hread : ((if e.stubReads ps = [] then []
      else Buffer.response.payloadLine :: (e.stubReads ps).map (·.offsetLine)).map
        fun text => (1, text)).Sublist (partLines (e.readResponse ps)) := by
    rw [readResponse_eq]
    split
    case isTrue => exact .slnil
    case isFalse => exact sublist_pass false .response [] (keeps_stubReads h)
  rw [stubLines, List.map_append, List.map_append, stubBody_eq, partLines_append, partLines_append,
    partLines_append, partLines_append, List.append_assoc]
  exact (((sublist_pass false .request [] (keeps_stubWrites h)).append
    (hsending.append (hread.trans (List.sublist_append_left _ _)))).trans
      (List.sublist_append_right _ _))

/-! ### The handler -/

/-- The calls by which a handler reads the request. -/
def handlerReads (e : Endpoint) (ps : List WireParameter) : List CodecCall :=
  (e.requestPart ps).map (·.handlerCall .unmarshal .request)

/-- The calls by which a handler writes the response. -/
def handlerWrites (e : Endpoint) (ps : List WireParameter) : List CodecCall :=
  (e.responsePart ps).map (·.handlerCall .marshal .response)

/-- The variables of a handler. -/
def declarations (ps : List WireParameter) : List Statement :=
  ps.map fun p => .declare p.type.name p.name

/-- The call of the server function. -/
def serverCall (e : Endpoint) (c : CType) (ps : List WireParameter) : Statement :=
  .invoke (if e.isVoid then none else some c.name) e.functionName
    (ps.map (·.serverArgument e.role))

/-- What a handler does behind the response. -/
def handlerReturn (o : Options) (status : String) (e : Endpoint) : List Statement :=
  [.setLength .response,
   .giveBack (if e.isVoid then o.successStatus else "(" ++ status ++ ")retval")]

theorem handlerBody_eq (o : Options) (status : String) (e : Endpoint) (c : CType)
    (ps : List WireParameter) :
    e.handlerBody o status c ps =
      [] ++ (.startOffset true .request ::
        (declarations ps ++ (e.handlerReads ps).map (.advance "offset")) ++
          ([e.serverCall c ps] ++ (.startOffset false .response ::
            ([] ++ (e.handlerWrites ps).map (.advance "offset")) ++
              handlerReturn o status e))) := by
  simp only [handlerBody, declarations, serverCall, handlerReturn, handlerReads, handlerWrites,
    List.map_map, List.append_assoc, List.cons_append, List.nil_append]
  rfl

theorem keeps_handlerReads (h : e.parameters = .ok ps) :
    ∀ x ∈ e.handlerReads ps, Statement.Keeps "offset" "offset" x := by
  intro x hx
  obtain ⟨p, hp, rfl⟩ := List.mem_map.1 hx
  exact keeps_of_place_ne rfl (name_ne_offset h (mem_of_mem_requestPart hp))

theorem keeps_handlerWrites (h : e.parameters = .ok ps) :
    ∀ x ∈ e.handlerWrites ps, Statement.Keeps "offset" "offset" x := by
  intro x hx
  obtain ⟨p, hp, rfl⟩ := List.mem_map.1 hx
  exact keeps_of_place_ne rfl (name_ne_offset h (mem_of_mem_responsePart hp))

/-- No variable of a handler hides the offset. -/
theorem idle_declarations (h : e.parameters = .ok ps) :
    ∀ s ∈ declarations ps, Quiet s ∧ Still s ∧ s.measured = [] := by
  intro s hs
  obtain ⟨p, hp, rfl⟩ := List.mem_map.1 hs
  refine ⟨⟨rfl, rfl⟩, fun c => ?_, rfl⟩
  have hne : (p.name == "offset") = false := beq_eq_false_iff_ne.2 (name_ne_offset h hp)
  simp [Statement.cursorAfter, Statement.disturbs, hne]

/-- The server function gets its arguments from the variables of the parameters, so the offset is not
among them. -/
theorem still_serverCall (h : e.parameters = .ok ps) : Still (e.serverCall c ps) := by
  have hnot : ⟨.address, "offset"⟩ ∉ ps.map (·.serverArgument e.role) := by
    intro hmem
    obtain ⟨p, hp, harg⟩ := List.mem_map.1 hmem
    exact name_ne_offset h hp (congrArg Argument.place harg)
  intro c'
  simp [Statement.cursorAfter, Statement.disturbs, serverCall, hnot]

theorem frame_handler (o : Options) (status : String) (c : CType) (h : e.parameters = .ok ps) :
    Frame [] [e.serverCall c ps] (handlerReturn o status e) where
  opening := by simp
  middle := by
    simp only [List.forall_mem_singleton]
    exact ⟨⟨rfl, rfl⟩, still_serverCall h⟩
  closing := by
    simp [handlerReturn, Quiet, Still, Statement.calls, Statement.unroll, Statement.cursorAfter,
      Statement.disturbs]

theorem pass_readRequest (h : e.parameters = .ok ps) :
    Pass .request (e.handlerReads ps)
      (.startOffset true .request ::
        (declarations ps ++ (e.handlerReads ps).map (.advance "offset"))) :=
  .run true (idle_declarations h) (keeps_handlerReads h)

theorem pass_writeResponse (h : e.parameters = .ok ps) :
    Pass .response (e.handlerWrites ps)
      (.startOffset false .response :: ([] ++ (e.handlerWrites ps).map (.advance "offset"))) :=
  .run false (by simp) (keeps_handlerWrites h)

theorem handlerBody_calls (h : e.parameters = .ok ps) :
    (e.handlerBody o status c ps).flatMap Statement.calls =
      e.handlerReads ps ++ e.handlerWrites ps := by
  rw [handlerBody_eq]
  exact Statement.flatMap_calls_passes (frame_handler o status c h) (pass_readRequest h)
    (pass_writeResponse h)

theorem handlerBody_visits (h : e.parameters = .ok ps) :
    visits "offset" "offset" (e.handlerBody o status c ps) =
      (Cursor.start (.payload .request)).run (e.handlerReads ps) ++
        (Cursor.start (.payload .response)).run (e.handlerWrites ps) := by
  rw [handlerBody_eq]
  exact Statement.visits_passes (frame_handler o status c h) (pass_readRequest h)
    (pass_writeResponse h)

theorem handlerBody_positions (h : e.parameters = .ok ps) :
    positions "offset" (e.handlerBody o status c ps) =
      (Cursor.start (.payload .request)).trail (e.handlerReads ps) ++
        (Cursor.start (.payload .response)).trail (e.handlerWrites ps) := by
  rw [handlerBody_eq]
  exact Statement.positions_passes (frame_handler o status c h) (pass_readRequest h)
    (List.cons_ne_nil _ _) (pass_writeResponse h)

theorem handlerBody_lengths (h : e.parameters = .ok ps) :
    lengths (e.handlerBody o status c ps) =
      [(.response, some ⟨.payload .response, e.handlerWrites ps⟩)] := by
  rw [handlerBody_eq, Statement.lengths_passes (frame_handler o status c h) (pass_readRequest h)
    (List.cons_ne_nil _ _) (pass_writeResponse h),
    (pass_writeResponse h).cursorBehind (List.cons_ne_nil _ _)]
  rfl

theorem sublist_handlerBody (o : Options) (status : String) (c : CType)
    (h : e.parameters = .ok ps) :
    ((handlerLines (e.handlerReads ps) (e.handlerWrites ps)).map fun text => (1, text)).Sublist
      (partLines (e.handlerBody o status c ps)) := by
  have hreturn : [(1, Buffer.response.lengthLine)].Sublist (partLines (handlerReturn o status e)) :=
    List.singleton_sublist.2 List.mem_cons_self
  rw [handlerLines, List.map_append, List.map_append, handlerBody_eq, List.nil_append,
    partLines_append, partLines_append, partLines_append, List.append_assoc]
  exact (sublist_pass true .request (declarations ps) (keeps_handlerReads h)).append
    (((sublist_pass false .response [] (keeps_handlerWrites h)).append hreturn).trans
      (List.sublist_append_right _ _))

/-! ### Both together -/

theorem transfers_of_calls {body : List Statement} {cs ds : List CodecCall} {first second : Half}
    (hbody : body.flatMap Statement.calls = cs ++ ds)
    (hcs : ∀ x ∈ cs, x.half = first ∧ x.buffer = Buffer.request.variableName)
    (hds : ∀ x ∈ ds, x.half = second ∧ x.buffer = Buffer.response.variableName) :
    transfers first .request body = cs ∧ transfers second .response body = ds := by
  have hne : Buffer.request.variableName ≠ Buffer.response.variableName := by decide
  rw [transfers, transfers, hbody, List.filter_append, List.filter_append]
  constructor
  · have hkeep : cs.filter (fun c => c.half == first && c.buffer == Buffer.request.variableName) =
        cs := List.filter_eq_self.2 fun x hx => by simp [hcs x hx]
    have hdrop : ds.filter (fun c => c.half == first && c.buffer == Buffer.request.variableName) =
        [] := List.filter_eq_nil_iff.2 fun x hx => by simp [hds x hx, hne.symm]
    rw [hkeep, hdrop, List.append_nil]
  · have hdrop : cs.filter (fun c => c.half == second && c.buffer == Buffer.response.variableName) =
        [] := List.filter_eq_nil_iff.2 fun x hx => by simp [hcs x hx, hne]
    have hkeep : ds.filter (fun c => c.half == second && c.buffer == Buffer.response.variableName) =
        ds := List.filter_eq_self.2 fun x hx => by simp [hds x hx]
    rw [hdrop, hkeep, List.nil_append]

theorem stubBody_transfers (o : Options) (c : CType) (h : e.parameters = .ok ps) :
    transfers .marshal .request (e.stubBody o c ps) = e.stubWrites ps ∧
      transfers .unmarshal .response (e.stubBody o c ps) = e.stubReads ps := by
  refine transfers_of_calls (stubBody_calls h) ?_ ?_
  · intro x hx
    obtain ⟨p, -, rfl⟩ := List.mem_map.1 hx
    exact ⟨rfl, rfl⟩
  · intro x hx
    obtain ⟨p, -, rfl⟩ := List.mem_map.1 hx
    exact ⟨rfl, rfl⟩

theorem handlerBody_transfers (o : Options) (status : String) (c : CType)
    (h : e.parameters = .ok ps) :
    transfers .unmarshal .request (e.handlerBody o status c ps) = e.handlerReads ps ∧
      transfers .marshal .response (e.handlerBody o status c ps) = e.handlerWrites ps := by
  refine transfers_of_calls (handlerBody_calls h) ?_ ?_
  · intro x hx
    obtain ⟨p, -, rfl⟩ := List.mem_map.1 hx
    exact ⟨rfl, rfl⟩
  · intro x hx
    obtain ⟨p, -, rfl⟩ := List.mem_map.1 hx
    exact ⟨rfl, rfl⟩

theorem inStep_stubBody (h : e.parameters = .ok ps) :
    InStep .marshal .unmarshal (e.stubBody o c ps) := by
  obtain ⟨hwrites, hreads⟩ := stubBody_transfers o c h
  refine ⟨?_, ?_, ?_⟩
  · rw [hwrites, hreads, stubBody_visits h]
  · rw [hwrites, hreads, stubBody_positions h]
    simp only [true_and]
  · rw [Half.outgoing, hwrites, stubBody_lengths h]

theorem inStep_handlerBody (h : e.parameters = .ok ps) :
    InStep .unmarshal .marshal (e.handlerBody o status c ps) := by
  obtain ⟨hreads, hwrites⟩ := handlerBody_transfers o status c h
  refine ⟨?_, ?_, ?_⟩
  · rw [hreads, hwrites, handlerBody_visits h]
  · rw [hreads, hwrites, handlerBody_positions h, if_neg (by simp)]
  · rw [Half.outgoing, hwrites, handlerBody_lengths h]

theorem items_map {f : WireParameter → CodecCall} (hf : ∀ p, (f p).item = p.item)
    (qs : List WireParameter) : (qs.map f).map CodecCall.item = qs.map WireParameter.item := by
  rw [List.map_map]
  exact List.map_congr_left fun p _ => hf p

/-- What a stub moves is what the role selects. -/
theorem stubBody_items (o : Options) (c : CType) (h : e.parameters = .ok ps) :
    (transfers .marshal .request (e.stubBody o c ps)).map CodecCall.item =
        (e.requestPart ps).map WireParameter.item ∧
      (transfers .unmarshal .response (e.stubBody o c ps)).map CodecCall.item =
        (e.responsePart ps).map WireParameter.item := by
  rw [(stubBody_transfers o c h).1, (stubBody_transfers o c h).2]
  exact ⟨items_map (fun p => p.item_stubWrite e.role) _, items_map (fun p => p.item_stubRead e.role) _⟩

/-- What a handler moves is what the role selects. -/
theorem handlerBody_items (o : Options) (status : String) (c : CType) (h : e.parameters = .ok ps) :
    (transfers .unmarshal .request (e.handlerBody o status c ps)).map CodecCall.item =
        (e.requestPart ps).map WireParameter.item ∧
      (transfers .marshal .response (e.handlerBody o status c ps)).map CodecCall.item =
        (e.responsePart ps).map WireParameter.item := by
  rw [(handlerBody_transfers o status c h).1, (handlerBody_transfers o status c h).2]
  exact ⟨items_map (fun p => p.item_handlerCall .unmarshal .request) _,
    items_map (fun p => p.item_handlerCall .marshal .response) _⟩

/-- The bodies of both functions are made of the same parameters. -/
theorem exists_bodies {s h : Function} (hs : e.stub o = .ok s) (hh : e.handler o status = .ok h) :
    ∃ c ps, e.parameters = .ok ps ∧ s.body = e.stubBody o c ps ∧ h.body = e.handlerBody o status c ps := by
  obtain ⟨c, ps, hc, hps, rfl⟩ := stub_eq_ok hs
  obtain ⟨c', ps', hc', hps', rfl⟩ := handler_eq_ok hh
  obtain rfl : c = c' := Except.ok.inj (hc.symm.trans hc')
  obtain rfl : ps = ps' := Except.ok.inj (hps.symm.trans hps')
  exact ⟨c, ps, hps, rfl, rfl⟩

/-- **Stub and handler agree on both messages.**  The stub writes into the request what the handler
reads from it, and the handler writes into the response what the stub reads from it: the declared
parameters that the role selects, in order, each with the codec of its type.  In both functions the
offset starts at the payload of each buffer, only these transfers move it, and the length of the
written buffer is set to where they have led; all this stands in their lines. -/
theorem stub_handler_agree (o : Options) (status : String) (e : Endpoint) {s h : Function}
    (hs : e.stub o = .ok s) (hh : e.handler o status = .ok h) :
    (transfers .marshal .request s.body).map CodecCall.item =
        (transfers .unmarshal .request h.body).map CodecCall.item ∧
      (transfers .marshal .response h.body).map CodecCall.item =
        (transfers .unmarshal .response s.body).map CodecCall.item ∧
      e.selection e.role.inRequest =
        .ok ((transfers .marshal .request s.body).map CodecCall.item) ∧
      e.selection e.role.inResponse =
        .ok ((transfers .marshal .response h.body).map CodecCall.item) ∧
      InStep .marshal .unmarshal s.body ∧ InStep .unmarshal .marshal h.body ∧
      ((stubLines (transfers .marshal .request s.body) (transfers .unmarshal .response s.body)).map
        fun text => (1, text)).Sublist s.lines ∧
      ((handlerLines (transfers .unmarshal .request h.body)
        (transfers .marshal .response h.body)).map fun text => (1, text)).Sublist h.lines := by
  obtain ⟨c, ps, hps, hstub, hhandler⟩ := exists_bodies hs hh
  rw [hstub, hhandler]
  obtain ⟨hwrites, hreads⟩ := stubBody_transfers o c hps
  obtain ⟨hreads', hwrites'⟩ := handlerBody_transfers o status c hps
  obtain ⟨request, response⟩ := stubBody_items o c hps
  obtain ⟨request', response'⟩ := handlerBody_items o status c hps
  -- both functions move the same selected parameters, so each side is compared with them
  refine ⟨request.trans request'.symm, response'.trans response.symm, ?_, ?_, inStep_stubBody hps,
    inStep_handlerBody hps, ?_, ?_⟩
  · rw [request]
    exact selection_eq_ok hps _
  · rw [response']
    exact selection_eq_ok hps _
  · rw [hwrites, hreads]
    exact sublist_lines (hstub ▸ sublist_stubBody o c hps)
  · rw [hreads', hwrites']
    exact sublist_lines (hhandler ▸ sublist_handlerBody o status c hps)

/-- An attribute that is read: a channel goes in, a level goes both ways, a position comes back. -/
def levelGetter : Endpoint :=
  let level : Operation :=
    ⟨"level", .primitive .long,
      [⟨"channel", .primitive .octet, .input⟩, ⟨"offset", .primitive .longDouble, .inout⟩,
       ⟨"position", .declared ⟨"Point", some ⟨["Demo", "Point"]⟩, some .struct⟩, .output⟩], []⟩
  ⟨⟨"Attributes", ⟨["Demo", "Attributes"]⟩, [level]⟩, level, .getter⟩

theorem stub_handler_agree_levelGetter :
    ∃ s h, levelGetter.stub {} = .ok s ∧ levelGetter.handler {} "Demo_ErrorCode" = .ok h ∧
      (transfers .marshal .request s.body).map CodecCall.item =
        [("channel", "uint8_t"), ("offset_", "long_double")] ∧
      (transfers .unmarshal .response s.body).map CodecCall.item =
        [("offset_", "long_double"), ("position", "Demo_Point")] ∧
      (transfers .marshal .request s.body).map CodecCall.item =
        (transfers .unmarshal .request h.body).map CodecCall.item ∧
      (transfers .marshal .response h.body).map CodecCall.item =
        (transfers .unmarshal .response s.body).map CodecCall.item ∧
      levelGetter.selection levelGetter.role.inRequest =
        .ok ((transfers .marshal .request s.body).map CodecCall.item) ∧
      levelGetter.selection levelGetter.role.inResponse =
        .ok ((transfers .marshal .response h.body).map CodecCall.item) ∧
      InStep .marshal .unmarshal s.body ∧ InStep .unmarshal .marshal h.body ∧
      (["offset = getPayloadOffset_req(request);",
        "offset += uint8_t_marshal(request, offset, channel);",
        "offset += long_double_marshal(request, offset, *offset_);", "setLength_req(request, offset);",
        "offset = getPayloadOffset_resp(response);",
        "offset += long_double_unmarshal(response, offset, offset_);",
        "offset += Demo_Point_unmarshal(response, offset, position);"].map
          fun text => (1, text)).Sublist s.lines := by
  obtain ⟨request, response, selected, returned, hstub, hhandler, hlines, -⟩ :=
    stub_handler_agree {} "Demo_ErrorCode" levelGetter rfl rfl
  exact ⟨_, _, rfl, rfl, rfl, rfl, request, response, selected, returned, hstub, hhandler, hlines⟩

end Endpoint

end WireStub
