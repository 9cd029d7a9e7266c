import WireStub.Proofs.Code.Cursor
import WireStub.Proofs.Code.Identifier
import WireStub.Proofs.Code.Lines
import WireStub.Proofs.Generate.Success

/-!
# What travels between a stub and its handler

A stub writes a request and reads the response; the handler reads the request and writes the
response.  Neither message says what it holds, so both functions have to move the same parameters in
the same order with the same codecs.

* `transfers` are the codec calls of a body by one half on one buffer;
* `Endpoint.selection` is what has to travel: the declared parameters that the role selects;
* `InStep` says that the offset of each buffer starts at its payload, that nothing but the transfers
  moves it, and that the length of the written buffer is where they end;
* `stubLines` and `handlerLines` are the lines that do this.
-/

namespace WireStub

/-- What a codec call moves: the variable, and the beginning of the codec's name. -/
def CodecCall.item (c : CodecCall) : String × String := (c.argument.place, c.type.codecPrefix)

/-- The codec calls of a body by one half on one buffer. -/
def transfers (h : Half) (b : Buffer) (body : List Statement) : List CodecCall :=
  (body.flatMap Statement.calls).filter fun c => c.half == h && c.buffer == b.variableName

/-- The buffer that leaves a function which moves the values of the request by this half: a stub
writes the request, and a handler, which reads the request, writes the response. -/
def Half.outgoing : Half → Buffer
  | marshal => .request
  | unmarshal => .response

/-- A body that moves values between the request and its variables by the half `first`, and then
between the response and its variables by the half `second`. -/
structure InStep (first second : Half) (body : List Statement) : Prop where
  /-- These are all codec calls, and each works where the calls before it on the same buffer have
  led, from the payload of the buffer on. -/
  visits : Statement.visits "offset" "offset" body =
    (Cursor.start (.payload .request)).run (transfers first .request body) ++
      (Cursor.start (.payload .response)).run (transfers second .response body)
  /-- The offset takes no other positions: it is set to the payload of each buffer, and then moved by
  the calls.  Only a body that has nothing to read from the response leaves it behind the request. -/
  positions : Statement.positions "offset" body =
    (Cursor.start (.payload .request)).trail (transfers first .request body) ++
      if second = .unmarshal ∧ transfers second .response body = [] then []
      else (Cursor.start (.payload .response)).trail (transfers second .response body)
  /-- One length is set: the written buffer ends where the last of its calls has led. -/
  lengths : Statement.lengths body =
    [(first.outgoing,
      some ⟨.payload first.outgoing, transfers .marshal first.outgoing body⟩)]

/-- The line that sets the offset to the payload of a buffer. -/
def Buffer.payloadLine : Buffer → String
  | .request => "offset = getPayloadOffset_req(request);"
  | .response => "offset = getPayloadOffset_resp(response);"

/-- The line that sets the length of a buffer to the offset. -/
def Buffer.lengthLine : Buffer → String
  | .request => "setLength_req(request, offset);"
  | .response => "setLength_resp(response, offset);"

/-- The line of a codec call that moves the offset. -/
def CodecCall.offsetLine (c : CodecCall) : String :=
  "offset += " ++ c.type.codecPrefix ++
    (match c.half with
      | .marshal => "_marshal("
      | .unmarshal => "_unmarshal(") ++
    c.buffer ++ ", offset, " ++ c.argument.text ++ ");"

/-- The lines of a stub that are about the offset.  Without reads it leaves the response alone. -/
def stubLines (writes reads : List CodecCall) : List String :=
  Buffer.request.payloadLine :: writes.map (·.offsetLine) ++ [Buffer.request.lengthLine] ++
    if reads = [] then [] else Buffer.response.payloadLine :: reads.map (·.offsetLine)

/-- The lines of a handler that are about the offset. -/
def handlerLines (reads writes : List CodecCall) : List String :=
  ("uint32_t " ++ Buffer.request.payloadLine) :: reads.map (·.offsetLine) ++
    Buffer.response.payloadLine :: writes.map (·.offsetLine) ++ [Buffer.response.lengthLine]

/-- The declared parameters that travel under a condition on their direction, in the order of
declaration: the C identifier of each, and the beginning of its codec's name. -/
def Endpoint.selection (e : Endpoint) (travels : Direction → Bool) :
    Except RenderError (List (String × String)) :=
  (e.operation.parameters.filter fun p => travels p.direction).mapM fun p => do
    let c ← p.type.valueType (e.context ++ "::" ++ p.name)
    .ok (Identifier.escape p.name, c.codecPrefix)

/-! ### Selected parameters -/

/-- The variable and the codec of a parameter. -/
def WireParameter.item (p : WireParameter) : String × String := (p.name, p.type.codecPrefix)

namespace Endpoint

variable {e : Endpoint} {ps : List WireParameter}

/-- Resolving parameters keeps their order and their directions. -/
theorem selection_eq_ok (h : e.parameters = .ok ps) (travels : Direction → Bool) :
    e.selection travels =
      .ok ((ps.filter fun p => travels p.direction).map WireParameter.item) := by
  rw [parameters_eq_ok_iff] at h
  rw [selection, mapM_eq_ok_iff, List.forall₂_map_right_iff]
  -- resolving keeps the direction, and so the selection
  have selected : List.Forall₂ e.Resolves
      (e.operation.parameters.filter fun p => travels p.direction)
      (ps.filter fun w => travels w.direction) :=
    List.rel_filter (fun p w (hpw : e.Resolves p w) => by simp only [hpw.2.2]) h
  refine selected.imp fun p w hpw => ?_
  rw [bind_eq_ok]
  exact ⟨w.type, hpw.1, by rw [WireParameter.item, hpw.2.1]⟩

/-- No parameter has the name of the variable that holds the offset. -/
theorem name_ne_offset (h : e.parameters = .ok ps) {p : WireParameter} (hp : p ∈ ps) :
    p.name ≠ "offset" := by
  obtain ⟨q, -, hq⟩ := exists_left_of_forall₂ (parameters_eq_ok_iff.1 h) hp
  rw [hq.2.1]
  exact Identifier.escape_ne (by decide)

end Endpoint

/-! ### The calls of both functions -/

namespace WireParameter

/-- The call by which a stub writes a parameter. -/
def stubWrite (r : Role) (p : WireParameter) : CodecCall :=
  ⟨.marshal, p.type, Buffer.request.variableName, "offset", p.requestArgument r⟩

/-- The call by which a stub reads a parameter. -/
def stubRead (r : Role) (p : WireParameter) : CodecCall :=
  ⟨.unmarshal, p.type, Buffer.response.variableName, "offset", p.responseArgument r⟩

/-- The call by which a handler moves a parameter. -/
def handlerCall (h : Half) (b : Buffer) (p : WireParameter) : CodecCall :=
  ⟨h, p.type, b.variableName, "offset", h.argument p.type p.name⟩

@[simp] theorem item_stubWrite (r : Role) (p : WireParameter) : (p.stubWrite r).item = p.item := by
  unfold CodecCall.item stubWrite requestArgument item
  split <;> rfl

@[simp] theorem item_stubRead (r : Role) (p : WireParameter) : (p.stubRead r).item = p.item := rfl

@[simp] theorem item_handlerCall (h : Half) (b : Buffer) (p : WireParameter) :
    (p.handlerCall h b).item = p.item := rfl

end WireParameter

theorem lines_startOffset (isNew : Bool) (b : Buffer) (level : Nat) :
    Layout.lines level (Statement.startOffset isNew b).layout =
      [(level, (if isNew then "uint32_t " else "") ++ b.payloadLine)] := by
  refine congrArg (fun text => [(level, text)]) ?_
  rw [← String.toList_inj]
  cases b <;> simp [Buffer.ending, Buffer.variableName, Buffer.payloadLine]

theorem lines_advance {call : CodecCall} (h : call.offset = "offset") (level : Nat) :
    Layout.lines level (Statement.advance "offset" call).layout = [(level, call.offsetLine)] := by
  refine congrArg (fun text => [(level, text)]) ?_
  rw [CodecCall.offsetLine, CodecCall.text, h, ← String.toList_inj]
  cases call.half <;> simp [Half.functionName]

theorem keeps_of_place_ne {call : CodecCall} (ho : call.offset = "offset")
    (hp : call.argument.place ≠ "offset") : Statement.Keeps "offset" "offset" call :=
  ⟨ho, fun h => hp (by rw [h])⟩

end WireStub
