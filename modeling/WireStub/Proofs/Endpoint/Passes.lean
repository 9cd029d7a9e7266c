import WireStub.Proofs.Endpoint.Transfer

/-!
# Passes over buffers

The bodies of stubs and of handlers have the same shape: a `Statement.Pass` over the request and one over
the response, with statements around them, in a `Statement.Frame`, that make no codec calls and leave
the offset alone.

* `Statement.visits_passes`, `Statement.positions_passes` and `Statement.lengths_passes` run such a body;
* `Statement.sublist_pass` finds the lines of a pass.
-/

namespace WireStub

namespace Statement

/-- A statement without codec calls and without loops. -/
def Quiet (s : Statement) : Prop := s.calls = [] ∧ s.unroll = [s]

/-- A statement that leaves the offset where it is. -/
def Still (s : Statement) : Prop := ∀ c, s.cursorAfter "offset" c = c

/-- Statements that move values between variables and a buffer: they set the offset to the payload,
leave it there for a while, and advance it call by call.  Without calls they may be left out. -/
inductive Pass (b : Buffer) : List CodecCall → List Statement → Prop
  | skip : Pass b [] []
  | run (isNew : Bool) {idle : List Statement} {calls : List CodecCall}
      (hidle : ∀ s ∈ idle, Quiet s ∧ Still s ∧ s.measured = [])
      (hcalls : ∀ x ∈ calls, Keeps "offset" "offset" x) :
      Pass b calls (startOffset isNew b :: (idle ++ calls.map (advance "offset")))

namespace Pass

variable {b : Buffer} {cs : List CodecCall} {ss : List Statement}

theorem flatMap_calls (h : Pass b cs ss) : ss.flatMap calls = cs := by
  cases h with
  | skip => rfl
  | run isNew hidle _ =>
    rw [List.flatMap_cons, List.flatMap_append, flatMap_calls_advances,
      flatMap_calls_eq_nil fun s hs => (hidle s hs).1.1]
    rfl

/-- Statements that are run once, in their order. -/
theorem unroll (h : Pass b cs ss) : ∀ s ∈ ss, s.unroll = [s] := by
  cases h with
  | skip => simp
  | run isNew hidle _ =>
    intro s hs
    rcases List.mem_cons.1 hs with rfl | hs
    · rfl
    · rcases List.mem_append.1 hs with hs | hs
      · exact (hidle s hs).1.2
      · obtain ⟨call, -, rfl⟩ := List.mem_map.1 hs
        rfl

/-- Wherever the offset was, it is set to the payload, and what stands idle leaves it there. -/
theorem cursorAfter_startOffset (isNew : Bool) (b : Buffer) (c : Option Cursor) :
    (startOffset isNew b).cursorAfter "offset" c = some (Cursor.start (.payload b)) := rfl

/-- A pass works from the payload of its buffer on, wherever the offset was before. -/
theorem visitsFrom (h : Pass b cs ss) (c : Option Cursor) :
    visitsFrom "offset" "offset" c ss = (Cursor.start (.payload b)).run cs := by
  cases h with
  | skip => rfl
  | run isNew hidle hcalls =>
    rw [visitsFrom_cons, cursorAfter_startOffset, visitsFrom_append,
      cursorBehind_of_still fun s hs => (hidle s hs).2.1 _, visitsFrom_advances hcalls,
      visitsFrom_eq_nil fun s hs => (hidle s hs).1.1]
    rfl

/-- A pass that is not left out ends behind its calls. -/
theorem cursorBehind (h : Pass b cs ss) (hss : ss ≠ []) (c : Option Cursor) :
    cursorBehind "offset" c ss = some ⟨.payload b, cs⟩ := by
  cases h with
  | skip => exact absurd rfl hss
  | run isNew hidle hcalls =>
    rw [cursorBehind_cons, cursorBehind_append, cursorAfter_startOffset,
      cursorBehind_of_still fun s hs => (hidle s hs).2.1 _, cursorBehind_advances hcalls]
    rfl

/-- A pass that is not left out brings the offset to the payload and from there past each call. -/
theorem positionsFrom (h : Pass b cs ss) (hss : ss ≠ []) {c : Option Cursor}
    (hc : c ≠ some (Cursor.start (.payload b))) :
    positionsFrom "offset" c ss = (Cursor.start (.payload b)).trail cs := by
  cases h with
  | skip => exact absurd rfl hss
  | run isNew hidle hcalls =>
    rw [positionsFrom_cons, cursorAfter_startOffset, if_neg hc.symm, positionsFrom_append,
      positionsFrom_of_still fun s hs => (hidle s hs).2.1 _,
      cursorBehind_of_still fun s hs => (hidle s hs).2.1 _, List.nil_append, List.singleton_append,
      positionsFrom_advances hcalls]

/-- A pass sets no length. -/
theorem lengthsFrom (h : Pass b cs ss) (c : Option Cursor) : lengthsFrom c ss = [] := by
  refine along_eq_nil (fun s hs c => ?_) c
  have hmeasured : s.measured = [] := by
    cases h with
    | skip => simp at hs
    | run isNew hidle _ =>
      rcases List.mem_cons.1 hs with rfl | hs
      · rfl
      · rcases List.mem_append.1 hs with hs | hs
        · exact (hidle s hs).2.2
        · obtain ⟨call, -, rfl⟩ := List.mem_map.1 hs
          rfl
  rw [hmeasured, List.map_nil]

end Pass

/-- Statements that stand before, between and behind two passes.  They make no codec calls.  Before the
first pass they neither set the offset nor a length, and from there on they leave the offset alone. -/
structure Frame (opening middle closing : List Statement) : Prop where
  opening : ∀ s ∈ opening, Quiet s ∧ s.cursorAfter "offset" none = none ∧ s.measured = []
  middle : ∀ s ∈ middle, Quiet s ∧ Still s
  closing : ∀ s ∈ closing, Quiet s ∧ Still s

section Passes

variable {opening first middle second closing : List Statement} {cs ds : List CodecCall}

theorem flatMap_calls_passes (h : Frame opening middle closing) (hfirst : Pass .request cs first)
    (hsecond : Pass .response ds second) :
    (opening ++ (first ++ (middle ++ (second ++ closing)))).flatMap calls = cs ++ ds := by
  simp only [List.flatMap_append, hfirst.flatMap_calls, hsecond.flatMap_calls,
    flatMap_calls_eq_nil fun s hs => (h.opening s hs).1.1,
    flatMap_calls_eq_nil fun s hs => (h.middle s hs).1.1,
    flatMap_calls_eq_nil fun s hs => (h.closing s hs).1.1, List.nil_append, List.append_nil]

/-- No statement of such a body is repeated. -/
theorem flatMap_unroll_passes (h : Frame opening middle closing) (hfirst : Pass .request cs first)
    (hsecond : Pass .response ds second) :
    (opening ++ (first ++ (middle ++ (second ++ closing)))).flatMap unroll =
      opening ++ (first ++ (middle ++ (second ++ closing))) := by
  have hunroll : ∀ s ∈ opening ++ (first ++ (middle ++ (second ++ closing))), s.unroll = [s] := by
    simp only [List.forall_mem_append]
    exact ⟨fun s hs => (h.opening s hs).1.2, hfirst.unroll, fun s hs => (h.middle s hs).1.2,
      hsecond.unroll, fun s hs => (h.closing s hs).1.2⟩
  rw [List.flatMap_congr hunroll, List.flatMap_singleton']

theorem visits_passes (h : Frame opening middle closing) (hfirst : Pass .request cs first)
    (hsecond : Pass .response ds second) :
    visits "offset" "offset" (opening ++ (first ++ (middle ++ (second ++ closing)))) =
      (Cursor.start (.payload .request)).run cs ++ (Cursor.start (.payload .response)).run ds := by
  rw [visits, flatMap_unroll_passes h hfirst hsecond]
  simp only [visitsFrom_append, hfirst.visitsFrom, hsecond.visitsFrom,
    visitsFrom_eq_nil fun s hs => (h.opening s hs).1.1,
    visitsFrom_eq_nil fun s hs => (h.middle s hs).1.1,
    visitsFrom_eq_nil fun s hs => (h.closing s hs).1.1, List.nil_append, List.append_nil]

/-- Only the passes move the offset. -/
theorem positions_passes (h : Frame opening middle closing) (hfirst : Pass .request cs first)
    (hne : first ≠ []) (hsecond : Pass .response ds second) :
    positions "offset" (opening ++ (first ++ (middle ++ (second ++ closing)))) =
      (Cursor.start (.payload .request)).trail cs ++
        if second = [] then [] else (Cursor.start (.payload .response)).trail ds := by
  have hback : positionsFrom "offset" (some ⟨.payload .request, cs⟩) second =
      if second = [] then [] else (Cursor.start (.payload .response)).trail ds := by
    split
    case isTrue hnil => rw [hnil]; rfl
    case isFalse hnil => exact hsecond.positionsFrom hnil (by simp [Cursor.start])
  rw [positions, flatMap_unroll_passes h hfirst hsecond, positionsFrom_append,
    positionsFrom_of_still fun s hs => (h.opening s hs).2.1,
    cursorBehind_of_still fun s hs => (h.opening s hs).2.1, positionsFrom_append,
    hfirst.positionsFrom hne (by simp), hfirst.cursorBehind hne, positionsFrom_append,
    positionsFrom_of_still fun s hs => (h.middle s hs).2 _,
    cursorBehind_of_still fun s hs => (h.middle s hs).2 _, positionsFrom_append, hback,
    positionsFrom_of_still fun s hs => (h.closing s hs).2 _, List.nil_append, List.nil_append,
    List.append_nil]

/-- Lengths are set behind the first pass and behind the second, to where the offset was led. -/
theorem lengths_passes (h : Frame opening middle closing) (hfirst : Pass .request cs first)
    (hne : first ≠ []) (hsecond : Pass .response ds second) :
    lengths (opening ++ (first ++ (middle ++ (second ++ closing)))) =
      (middle.flatMap measured).map (·, some ⟨.payload .request, cs⟩) ++
        (closing.flatMap measured).map
          (·, cursorBehind "offset" (some ⟨.payload .request, cs⟩) second) := by
  have hopening : lengthsFrom none opening = [] :=
    along_eq_nil (fun s hs c => by rw [(h.opening s hs).2.2, List.map_nil]) none
  rw [lengths, flatMap_unroll_passes h hfirst hsecond, lengthsFrom_append, hopening,
    cursorBehind_of_still fun s hs => (h.opening s hs).2.1, lengthsFrom_append, hfirst.lengthsFrom,
    hfirst.cursorBehind hne, lengthsFrom_append,
    lengthsFrom_of_still fun s hs => (h.middle s hs).2 _,
    cursorBehind_of_still fun s hs => (h.middle s hs).2 _, lengthsFrom_append, hsecond.lengthsFrom,
    lengthsFrom_of_still fun s hs => (h.closing s hs).2 _]
  rfl

end Passes

/-! ### Lines -/

/-- The lines of a part of a body, which stands at level 1. -/
def partLines (ss : List Statement) : List (Nat × String) :=
  ss.flatMap fun s => Layout.lines 1 s.layout

theorem partLines_append (ss ts : List Statement) :
    partLines (ss ++ ts) = partLines ss ++ partLines ts := List.flatMap_append

/-- Among the lines of a pass are the one that sets the offset and those of the calls. -/
theorem sublist_pass (isNew : Bool) (b : Buffer) (idle : List Statement) {calls : List CodecCall}
    (h : ∀ x ∈ calls, Keeps "offset" "offset" x) :
    ((((if isNew then "uint32_t " else "") ++ b.payloadLine) :: calls.map (·.offsetLine)).map
        fun text => (1, text)).Sublist
      (partLines (.startOffset isNew b :: (idle ++ calls.map (.advance "offset")))) := by
  have hcalls : partLines (calls.map (.advance "offset")) =
      (calls.map (·.offsetLine)).map fun text => (1, text) := by
    rw [partLines, List.flatMap_map, List.map_map, List.map_eq_flatMap]
    exact List.flatMap_congr fun x hx => lines_advance (h x hx).1 1
  rw [List.map_cons, partLines, List.flatMap_cons, lines_startOffset, ← partLines, partLines_append,
    hcalls]
  exact (List.sublist_append_right _ _).cons_cons _

/-- What stands among the lines of the body stands among those of the function. -/
theorem sublist_lines {f : Function} {ls : List (Nat × String)}
    (h : ls.Sublist (partLines f.body)) : ls.Sublist f.lines :=
  ((h.trans (List.sublist_append_left _ _)).cons _).cons _

end Statement

end WireStub
