import WireStub.Proofs.Code.Lines
import WireStub.Proofs.Codec.Steps
import WireStub.Proofs.Generate.Success

/-!
# Codec functions as mirror images

The two codec functions of a declaration walk the same value, one writing and one reading it.  Their
bodies are the same lines at the same levels, except that opposite codec calls name opposite halves
and pass the value their way (`Definition.codec_halves_mirror`).

* `CodecLine` lists the lines that both bodies are made of, and `CodecLine.text` writes one for a
  half;
* `nestLines` are the lines of the loops around a codec call;
* `Counts` says where the calls of a body work: behind the bytes that a counter has counted.
-/

namespace WireStub

/-- A line of a codec body, without the half that it belongs to. -/
inductive CodecLine where
  | opening
  | closing
  | blank
  /-- Starts the counter. -/
  | start (counter : String) (value : Nat)
  /-- The head of a loop. -/
  | loopHead (depth : Nat) (bound : UInt32)
  /-- Moves the value of a type at a place, and counts the bytes. -/
  | step (counter : String) (type : CType) (place : String)
  /-- Leaves the value to the codec of another type. -/
  | delegate (type : CType)
  /-- Returns the counter. -/
  | giveBack (counter : String)
  deriving DecidableEq, Repr

/-- The end of the names of codec functions. -/
def Half.ending : Half → String
  | .marshal => "_marshal"
  | .unmarshal => "_unmarshal"

/-- How a half passes the value at a place: a writer takes base types by value. -/
def Half.passed (type : CType) (place : String) : Half → String
  | .marshal => if type.isBase then place else "&" ++ place
  | .unmarshal => "&" ++ place

/-- The line of a half. -/
def CodecLine.text (h : Half) : CodecLine → String
  | opening => "\x7b"
  | closing => "\x7d"
  | blank => ""
  | start counter value => "uint32_t " ++ counter ++ " = " ++ toString value ++ ";"
  | loopHead depth bound => Statement.loopHead depth bound
  | step counter type place =>
    counter ++ " += " ++ type.codecPrefix ++ h.ending ++ "(buffer, offset + " ++ counter ++ ", " ++
      h.passed type place ++ ");"
  | delegate type => "return " ++ type.codecPrefix ++ h.ending ++ "(buffer, offset, value);"
  | giveBack counter => "return " ++ counter ++ ";"

/-- The lines of a half, each with its level. -/
def written (h : Half) (ls : List (Nat × CodecLine)) : List (Nat × String) :=
  ls.map fun l => (l.1, l.2.text h)

/-- Loops over dimensions from a depth on, outermost first, around the step for the indexed place. -/
def nestLines (counter : String) (type : CType) :
    Nat → Nat → String → List UInt32 → List (Nat × CodecLine)
  | level, _, place, [] => [(level, .step counter type place)]
  | level, depth, place, n :: ns =>
    (level, .loopHead depth n) :: (level, .opening) ::
      (nestLines counter type (level + 1) (depth + 1)
        (place ++ "[" ++ Statement.indexName depth ++ "]") ns ++ [(level, .closing)])

/-- The lines that start a counter. -/
def countingLines (counter : String) (first : Nat) : List (Nat × CodecLine) :=
  [(0, .opening), (1, .start counter first)]

/-- The lines that return a counter. -/
def returningLines (counter : String) : List (Nat × CodecLine) :=
  [(1, .giveBack counter), (0, .closing), (0, .blank)]

/-- The lines of a struct codec for its fields. -/
def fieldLines (fields : List Field) : List (Nat × CodecLine) :=
  fields.flatMap fun f => nestLines "structOffset" f.declarator.type 1 0 f.place f.declarator.dims

/-- The line by which a struct codec puts the length in front of what it wrote. -/
def lengthLine : String :=
  "(void)uint32_t_marshal(buffer, offset, structOffset); /* struct length */"

/-- The codec calls that a body makes in its run all work at a counter behind the offset: the counter
starts at a number of bytes, and nothing but the calls moves it. -/
def Counts (counter : String) (first : Nat) (body : List Statement) : Prop :=
  Statement.visits counter ("offset + " ++ counter) body =
    (Cursor.start (.bytes first)).run ((body.flatMap Statement.unroll).flatMap Statement.calls)

/-! ### Lines -/

theorem written_append (h : Half) (ls ms : List (Nat × CodecLine)) :
    written h (ls ++ ms) = written h ls ++ written h ms := List.map_append

theorem functionName_eq (h : Half) (c : CType) : h.functionName c = c.codecPrefix ++ h.ending := by
  cases h <;> rfl

theorem argument_text (h : Half) (c : CType) (place : String) :
    (h.argument c place).text = h.passed c place := by
  obtain ⟨name, isBase⟩ := c
  cases h <;> cases isBase <;> rfl

theorem lines_step (h : Half) (counter : String) (c : CType) (place : String) (level : Nat) :
    Layout.lines level (Statement.advance counter (stepCall h counter c place)).layout =
      written h [(level, .step counter c place)] := by
  have hbuffer : "(buffer, offset + " = "(" ++ ("buffer" ++ (", " ++ "offset + ")) := by decide
  have hend : ");" = ")" ++ ";" := by decide
  have htext : (stepCall h counter c place).text ++ ";" =
      c.codecPrefix ++ h.ending ++ "(buffer, offset + " ++ counter ++ ", " ++ h.passed c place ++
        ");" := by
    rw [CodecCall.text, stepCall, functionName_eq, argument_text, hbuffer, hend]
    simp only [String.append_assoc]
  change [(level, counter ++ " += " ++ (stepCall h counter c place).text ++ ";")] = _
  rw [String.append_assoc, htext]
  simp only [written, List.map_cons, List.map_nil, CodecLine.text, String.append_assoc]

theorem lines_nest (h : Half) (counter : String) (c : CType) (dims : List UInt32) :
    ∀ (level depth : Nat) (place : String),
      Layout.lines level
          (Statement.nest (fun p => .advance counter (stepCall h counter c p)) depth place
            dims).layout =
        written h (nestLines counter c level depth place dims) := by
  induction dims with
  | nil =>
    intro level depth place
    exact lines_step h counter c place level
  | cons n ns ih =>
    intro level depth place
    -- the nest of the other dimensions stands one level deeper
    rw [Statement.nest, Statement.lines_loop, ih, nestLines]
    simp [written, CodecLine.text]

theorem lines_codecStep (h : Half) (counter place : String) (d : Declarator) (level : Nat) :
    Layout.lines level (codecStep h counter place d).layout =
      written h (nestLines counter d.type level 0 place d.dims) :=
  lines_nest h counter d.type d.dims level 0 place

theorem lines_fields (h : Half) (fields : List Field) :
    (fields.map fun f => codecStep h "structOffset" f.place f.declarator).flatMap
        (fun s => Layout.lines 1 s.layout) =
      written h (fieldLines fields) := by
  rw [List.flatMap_map, fieldLines, written, List.map_flatMap]
  exact List.flatMap_congr fun f _ => lines_codecStep h "structOffset" f.place f.declarator 1

/-! ### Counting -/

/-- A body counts if it runs as a start of the counter, calls that advance it, and statements without
calls. -/
theorem counts_of_unroll {counter : String} {first : Nat} {body : List Statement}
    (calls : List CodecCall) (rest : List Statement)
    (hbody : body.flatMap Statement.unroll =
      .startCounter counter first :: (calls.map (.advance counter) ++ rest))
    (hcalls : ∀ x ∈ calls, Statement.Keeps counter ("offset + " ++ counter) x)
    (hrest : ∀ s ∈ rest, s.calls = []) : Counts counter first body := by
  have hstart : (Statement.startCounter counter first).cursorAfter counter none =
      some (Cursor.start (.bytes first)) := by
    simp [Statement.cursorAfter, Statement.disturbs]
  rw [Counts, Statement.visits, hbody, Statement.visitsFrom_cons, hstart, Statement.visitsFrom_append,
    Statement.visitsFrom_advances hcalls, Statement.visitsFrom_eq_nil hrest, List.flatMap_cons,
    List.flatMap_append, Statement.flatMap_calls_advances, Statement.flatMap_calls_eq_nil hrest]
  simp [Statement.calls]

theorem keeps_elementCalls {h : Half} {counter place : String} {d : Declarator}
    (hplace : ∀ s, place ++ s ≠ counter) :
    ∀ x ∈ elementCalls h counter place d,
      Statement.Keeps counter ("offset + " ++ counter) x := by
  intro x hx
  obtain rfl := (List.mem_replicate.1 hx).2
  refine ⟨rfl, fun hargument => ?_⟩
  obtain ⟨s, hs⟩ := exists_indexedPlace_eq d.dims 0 place
  have hcounter : indexedPlace 0 place d.dims = counter := congrArg Argument.place hargument
  exact hplace s (hs ▸ hcounter)

theorem place_append_ne (f : Field) (s : String) : f.place ++ s ≠ "structOffset" := by
  intro h
  have := congrArg String.toList h
  simp [Field.place, String.toList_append] at this

theorem contents_append_ne (s : String) : "(*value)" ++ s ≠ "typeOffset" := by
  intro h
  have := congrArg String.toList h
  simp [String.toList_append] at this

theorem counts_structBody (h : Half) (fields : List Field) :
    Counts "structOffset" 4 (structBody h fields) := by
  let calls := fields.flatMap fun f => elementCalls h "structOffset" f.place f.declarator
  let rest : List Statement :=
    (if h = .marshal then [.storeLength "structOffset"] else []) ++ [.giveBack "structOffset"]
  have hsteps : (fields.map fun f => codecStep h "structOffset" f.place f.declarator).flatMap
      Statement.unroll = calls.map (.advance "structOffset") := by
    rw [List.flatMap_map, List.map_flatMap]
    exact List.flatMap_congr fun f _ => unroll_codecStep h "structOffset" f.place f.declarator
  have hrest : rest.flatMap Statement.unroll = rest := by
    cases h <;> rfl
  -- the elements of all fields in a row, then what does not call
  refine counts_of_unroll calls rest ?_ ?_ ?_
  · rw [structBody, List.append_assoc, List.flatMap_append, List.flatMap_append, hsteps, hrest]
    rfl
  · intro x hx
    obtain ⟨f, -, hf⟩ := List.mem_flatMap.1 hx
    exact keeps_elementCalls (place_append_ne f) x hf
  · intro s hs
    cases h <;> simp [rest] at hs <;> rcases hs with rfl | rfl <;> rfl

theorem counts_typedefBody (h : Half) {d : Declarator} (hdims : d.dims ≠ []) :
    Counts "typeOffset" 0 (typedefBody h d) := by
  refine counts_of_unroll (elementCalls h "typeOffset" "(*value)" d) [.giveBack "typeOffset"] ?_
    (keeps_elementCalls contents_append_ne) ?_
  · rw [typedefBody, if_neg (by simpa using hdims), List.flatMap_cons, List.flatMap_cons,
      unroll_codecStep]
    rfl
  · simp [Statement.calls]

/-! ### The mirror -/

theorem lines_structBody (h : Half) (c : CType) (fields : List Field) :
    Layout.lines 0 (Function.layout ⟨h.signature c, structBody h fields⟩) =
      (0, (h.signature c).text) ::
        (written h (countingLines "structOffset" 4 ++ fieldLines fields) ++
          ((if h = .marshal then [(1, lengthLine)] else []) ++
            written h (returningLines "structOffset"))) := by
  rw [Function.lines_layout, Function.lines, structBody, List.append_assoc, List.append_assoc, List.flatMap_append,
    List.flatMap_append, lines_fields, written_append]
  cases h <;> simp [written, countingLines, returningLines, lengthLine, CodecLine.text,
    Statement.layout, Layout.lines, Layout.Step.lines]

theorem lines_typedefBody (h : Half) (c : CType) {d : Declarator} (hdims : d.dims ≠ []) :
    Layout.lines 0 (Function.layout ⟨h.signature c, typedefBody h d⟩) =
      (0, (h.signature c).text) ::
        written h (countingLines "typeOffset" 0 ++
          nestLines "typeOffset" d.type 1 0 "(*value)" d.dims ++ returningLines "typeOffset") := by
  rw [Function.lines_layout, Function.lines, typedefBody, if_neg (by simpa using hdims), written_append,
    written_append, ← lines_codecStep]
  simp [written, countingLines, returningLines, CodecLine.text, Statement.layout, Layout.lines,
    Layout.Step.lines]

theorem lines_typedefBody_nil (h : Half) (c : CType) {d : Declarator} (hdims : d.dims = []) :
    Layout.lines 0 (Function.layout ⟨h.signature c, typedefBody h d⟩) =
      (0, (h.signature c).text) ::
        written h [(0, .opening), (1, .delegate d.type), (0, .closing), (0, .blank)] := by
  have hend : "(buffer, offset, value);" =
      "(" ++ ("buffer" ++ (", " ++ ("offset" ++ (", " ++ ("value" ++ (")" ++ ";")))))) := by
    decide
  have hline : "return " ++ CodecCall.text ⟨h, d.type, "buffer", "offset", ⟨.itself, "value"⟩⟩ ++
      ";" = (CodecLine.delegate d.type).text h := by
    rw [CodecCall.text, CodecLine.text, functionName_eq, hend]
    simp only [String.append_assoc, Argument.text]
  rw [Function.lines_layout, Function.lines, typedefBody, if_pos (by simpa using hdims), List.flatMap_cons,
    Statement.layout, hline]
  rfl

/-- The functions are the writer and the reader of a struct.  Behind the signatures they have the same
lines at the same levels, written for their halves, and the writer has one line more: it stores the
length before it returns.  The counter starts behind the stored length and every codec call works at
the counter, so the reader never looks at that length. -/
def StructDecl.Mirrored (s : StructDecl) (fs : List Function) : Prop :=
  ∃ (c : CType) (fields : List Field) (writer reader : Function),
    (Definition.struct s).cType = .ok c ∧
    s.fields (Definition.struct s).context = .ok fields ∧ fs = [writer, reader] ∧
    Layout.lines 0 writer.layout =
      (0, (Half.marshal.signature c).text) ::
        (written .marshal (countingLines "structOffset" 4 ++ fieldLines fields) ++
          ([(1, lengthLine)] ++ written .marshal (returningLines "structOffset"))) ∧
    Layout.lines 0 reader.layout =
      (0, (Half.unmarshal.signature c).text) ::
        (written .unmarshal (countingLines "structOffset" 4 ++ fieldLines fields) ++
          ([] ++ written .unmarshal (returningLines "structOffset"))) ∧
    Counts "structOffset" 4 writer.body ∧ Counts "structOffset" 4 reader.body

/-- The functions are the writer and the reader of a typedef, with the same lines at the same levels,
written for their halves.  With dimensions they count from 0; without, the value is left as it is to
the codec of the type that the typedef stands for. -/
def TypedefDecl.Mirrored (t : TypedefDecl) (fs : List Function) : Prop :=
  ∃ (c : CType) (d : Declarator) (lines : List (Nat × CodecLine)) (writer reader : Function),
    (Definition.typedef t).cType = .ok c ∧
    t.type.declarator (Definition.typedef t).context t.dims = .ok d ∧ fs = [writer, reader] ∧
    Layout.lines 0 writer.layout =
      (0, (Half.marshal.signature c).text) :: written .marshal lines ∧
    Layout.lines 0 reader.layout =
      (0, (Half.unmarshal.signature c).text) :: written .unmarshal lines ∧
    (t.dims = [] → lines = [(0, .opening), (1, .delegate d.type), (0, .closing), (0, .blank)]) ∧
    (t.dims ≠ [] →
      lines = countingLines "typeOffset" 0 ++
          nestLines "typeOffset" d.type 1 0 "(*value)" t.dims ++ returningLines "typeOffset" ∧
        Counts "typeOffset" 0 writer.body ∧ Counts "typeOffset" 0 reader.body)

namespace Definition

/-- **The two codec functions of a declaration mirror each other.** -/
theorem codec_halves_mirror :
    (∀ (s : StructDecl) (fs : List Function), (struct s).codecs = .ok fs → s.Mirrored fs) ∧
      ∀ (t : TypedefDecl) (fs : List Function), (typedef t).codecs = .ok fs → t.Mirrored fs := by
  refine ⟨fun s fs h => ?_, fun t fs h => ?_⟩
  · obtain ⟨c, fields, hc, hfields, rfl⟩ := codecs_struct_eq_ok h
    exact ⟨c, fields, _, _, hc, hfields, rfl, lines_structBody .marshal c fields,
      lines_structBody .unmarshal c fields, counts_structBody .marshal fields,
      counts_structBody .unmarshal fields⟩
  · obtain ⟨c, d, hc, hd, rfl⟩ := codecs_typedef_eq_ok h
    have hdims : d.dims = t.dims := (TypeExpr.declarator_eq_ok_iff.1 hd).2.2
    by_cases ht : t.dims = []
    · have hnil : d.dims = [] := hdims.trans ht
      exact ⟨c, d, _, _, _, hc, hd, rfl, lines_typedefBody_nil .marshal c hnil,
        lines_typedefBody_nil .unmarshal c hnil, fun _ => rfl, fun hne => absurd ht hne⟩
    · have hne : d.dims ≠ [] := fun h => ht (hdims.symm.trans h)
      exact ⟨c, d, _, _, _, hc, hd, rfl, lines_typedefBody .marshal c hne,
        lines_typedefBody .unmarshal c hne, fun h => absurd h ht, fun _ =>
          ⟨by rw [hdims], counts_typedefBody .marshal hne, counts_typedefBody .unmarshal hne⟩⟩

/-- A table of pairs, and where it ends. -/
def tableStruct : StructDecl :=
  ⟨"Table", ⟨["Demo", "Table"]⟩,
    [⟨"cells", .primitive .longDouble, [3, 2]⟩,
     ⟨"end", .declared ⟨"Point", some ⟨["Demo", "Point"]⟩, some .struct⟩, []⟩]⟩

/-- A row of tables. -/
def rowTypedef : TypedefDecl :=
  ⟨"Row", ⟨["Demo", "Row"]⟩, .declared ⟨"Table", some ⟨["Demo", "Table"]⟩, some .struct⟩, [4]⟩

theorem codec_halves_mirror_table :
    ∃ fs gs, (struct tableStruct).codecs = .ok fs ∧ (typedef rowTypedef).codecs = .ok gs ∧
      tableStruct.Mirrored fs ∧ rowTypedef.Mirrored gs :=
  ⟨_, _, rfl, rfl, codec_halves_mirror.1 tableStruct _ rfl, codec_halves_mirror.2 rowTypedef _ rfl⟩

end Definition

end WireStub
