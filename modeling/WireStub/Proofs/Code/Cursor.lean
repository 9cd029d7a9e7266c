import WireStub.Code.Statement

/-!
# Running positions

A generated function keeps a running position in a counter: it is set once, and from then on only
codec calls move it, each by the bytes that it wrote or read.

A `Cursor` is such a position without numbers: where the counter was set, and the calls that moved it
since.  A position that is not known that way is `none`.  Three views of a run go along its
statements with the cursor before each of them:

* `Statement.visits` lists the codec calls, each with the cursor at which it works;
* `Statement.positions` lists every cursor that the counter takes;
* `Statement.lengths` lists the buffers whose length is set, each with the cursor that it is set to.

`Statement.along_append` cuts a run in two.  Calls that do nothing but advance the counter form one
`Cursor.run` of visits and one `Cursor.trail` of positions.
-/

namespace WireStub

/-- Where a running position is set. -/
inductive Origin where
  /-- The beginning of the payload of a buffer. -/
  | payload (b : Buffer)
  /-- A number of bytes. -/
  | bytes (n : Nat)
  deriving DecidableEq, Repr

/-- A running position: where it was set, and the codec calls that moved it since. -/
structure Cursor where
  origin : Origin
  behind : List CodecCall
  deriving DecidableEq, Repr

namespace Cursor

/-- The position where a counter is set. -/
def start (o : Origin) : Cursor := ⟨o, []⟩

/-- The position behind a call. -/
def past (c : Cursor) (call : CodecCall) : Cursor := ⟨c.origin, c.behind ++ [call]⟩

theorem past_ne (c : Cursor) (call : CodecCall) : c.past call ≠ c := fun h => by
  simpa [past] using congrArg (·.behind.length) h

/-- Calls that follow each other from a position on, each with the position at which it works. -/
def run (c : Cursor) : List CodecCall → List (CodecCall × Option Cursor)
  | [] => []
  | call :: calls => (call, some c) :: (c.past call).run calls

/-- The positions from a position on at which calls that follow each other begin, and the one behind
all of them. -/
def trail (c : Cursor) : List CodecCall → List (Option Cursor)
  | [] => [some c]
  | call :: calls => some c :: (c.past call).trail calls

end Cursor

namespace Statement

/-- A statement in the order of its execution: a loop is its body, once for each index. -/
def unroll : Statement → List Statement
  | loop _ bound body => (List.replicate bound.toNat body.unroll).flatten
  | s => [s]

/-- The statement may give a counter a value by other means than by counting: it declares it anew,
passes its address, or is a line of which nothing is known. -/
def disturbs (counter : String) : Statement → Bool
  | declare _ name => name == counter
  | advance _ call | delegate call => call.argument == ⟨.address, counter⟩
  | invoke _ _ arguments => arguments.contains ⟨.address, counter⟩ || counter == "retval"
  | line _ => true
  | _ => false

/-- The position that a counter holds behind a statement. -/
def cursorAfter (counter : String) (c : Option Cursor) (s : Statement) : Option Cursor :=
  if s.disturbs counter then none
  else match s with
    | startCounter name value => if name = counter then some (.start (.bytes value)) else c
    | startOffset _ b => if counter = "offset" then some (.start (.payload b)) else c
    | advance name call => if name = counter then c.map (·.past call) else c
    | _ => c

/-- The position that a counter holds behind statements. -/
def cursorBehind (counter : String) (c : Option Cursor) (ss : List Statement) : Option Cursor :=
  ss.foldl (cursorAfter counter) c

/-- What a look at each of the statements finds as they run, given the position that the counter holds
before the statement. -/
def along {α : Type} (counter : String) (look : Option Cursor → Statement → List α) :
    Option Cursor → List Statement → List α
  | _, [] => []
  | c, s :: ss => look c s ++ along counter look (s.cursorAfter counter c) ss

/-- The codec calls of statements in the order of execution, each with the position that the counter
holds at the call if it works at the given offset. -/
def visitsFrom (counter offset : String) :
    Option Cursor → List Statement → List (CodecCall × Option Cursor) :=
  along counter fun c s => s.calls.map fun call => (call, if call.offset = offset then c else none)

/-- The codec calls that a body makes, each with the position that a counter holds at the call if it
works at the given offset. -/
def visits (counter offset : String) (body : List Statement) : List (CodecCall × Option Cursor) :=
  visitsFrom counter offset none (body.flatMap unroll)

/-- The positions to which statements bring the counter, in the order of execution. -/
def positionsFrom (counter : String) : Option Cursor → List Statement → List (Option Cursor) :=
  along counter fun c s =>
    if s.cursorAfter counter c = c then [] else [s.cursorAfter counter c]

/-- The positions that a counter takes in a body, in the order of execution. -/
def positions (counter : String) (body : List Statement) : List (Option Cursor) :=
  positionsFrom counter none (body.flatMap unroll)

/-- The buffer whose length a statement sets. -/
def measured : Statement → List Buffer
  | setLength b => [b]
  | _ => []

/-- The buffers whose length statements set, in the order of execution, each with the position of the
offset, which is the length that it gets. -/
def lengthsFrom : Option Cursor → List Statement → List (Buffer × Option Cursor) :=
  along "offset" fun c s => s.measured.map fun b => (b, c)

/-- The buffers whose length a body sets, in the order of execution, each with the position of the
offset, which is the length that it gets. -/
def lengths (body : List Statement) : List (Buffer × Option Cursor) :=
  lengthsFrom none (body.flatMap unroll)

theorem cursorBehind_cons (counter : String) (c : Option Cursor) (s : Statement)
    (ss : List Statement) :
    cursorBehind counter c (s :: ss) = cursorBehind counter (s.cursorAfter counter c) ss := rfl

theorem cursorBehind_append (counter : String) (c : Option Cursor) (ss ts : List Statement) :
    cursorBehind counter c (ss ++ ts) = cursorBehind counter (cursorBehind counter c ss) ts :=
  List.foldl_append

section Runs

variable {α : Type} {look : Option Cursor → Statement → List α} {counter : String}

theorem along_append (c : Option Cursor) (ss ts : List Statement) :
    along counter look c (ss ++ ts) =
      along counter look c ss ++ along counter look (cursorBehind counter c ss) ts := by
  induction ss generalizing c with
  | nil => rfl
  | cons s ss ih =>
    rw [List.cons_append, along, along, ih, List.append_assoc]
    rfl

theorem along_eq_nil {ss : List Statement} (h : ∀ s ∈ ss, ∀ c, look c s = []) (c : Option Cursor) :
    along counter look c ss = [] := by
  induction ss generalizing c with
  | nil => rfl
  | cons s ss ih =>
    rw [along, h s List.mem_cons_self, ih fun t ht => h t (List.mem_cons_of_mem _ ht)]
    rfl

/-- Statements that leave the counter where it is are all seen from there. -/
theorem along_of_still {c : Option Cursor} {ss : List Statement}
    (h : ∀ s ∈ ss, s.cursorAfter counter c = c) : along counter look c ss = ss.flatMap (look c) := by
  induction ss with
  | nil => rfl
  | cons s ss ih =>
    rw [along, h s List.mem_cons_self, ih fun t ht => h t (List.mem_cons_of_mem _ ht)]
    rfl

theorem cursorBehind_of_still {c : Option Cursor} {ss : List Statement}
    (h : ∀ s ∈ ss, s.cursorAfter counter c = c) : cursorBehind counter c ss = c := by
  induction ss with
  | nil => rfl
  | cons s ss ih =>
    rw [cursorBehind_cons, h s List.mem_cons_self, ih fun t ht => h t (List.mem_cons_of_mem _ ht)]

end Runs

variable {counter offset : String}

theorem visitsFrom_cons (c : Option Cursor) (s : Statement) (ss : List Statement) :
    visitsFrom counter offset c (s :: ss) =
      s.calls.map (fun call => (call, if call.offset = offset then c else none)) ++
        visitsFrom counter offset (s.cursorAfter counter c) ss := rfl

theorem visitsFrom_append (c : Option Cursor) (ss ts : List Statement) :
    visitsFrom counter offset c (ss ++ ts) =
      visitsFrom counter offset c ss ++
        visitsFrom counter offset (cursorBehind counter c ss) ts :=
  along_append c ss ts

theorem positionsFrom_cons (c : Option Cursor) (s : Statement) (ss : List Statement) :
    positionsFrom counter c (s :: ss) =
      (if s.cursorAfter counter c = c then [] else [s.cursorAfter counter c]) ++
        positionsFrom counter (s.cursorAfter counter c) ss := rfl

theorem positionsFrom_append (c : Option Cursor) (ss ts : List Statement) :
    positionsFrom counter c (ss ++ ts) =
      positionsFrom counter c ss ++ positionsFrom counter (cursorBehind counter c ss) ts :=
  along_append c ss ts

theorem positionsFrom_of_still {c : Option Cursor} {ss : List Statement}
    (h : ∀ s ∈ ss, s.cursorAfter counter c = c) : positionsFrom counter c ss = [] := by
  rw [positionsFrom, along_of_still h, List.flatMap_eq_nil_iff]
  intro s hs
  rw [if_pos (h s hs)]

theorem lengthsFrom_append (c : Option Cursor) (ss ts : List Statement) :
    lengthsFrom c (ss ++ ts) = lengthsFrom c ss ++ lengthsFrom (cursorBehind "offset" c ss) ts :=
  along_append c ss ts

theorem lengthsFrom_of_still {c : Option Cursor} {ss : List Statement}
    (h : ∀ s ∈ ss, s.cursorAfter "offset" c = c) :
    lengthsFrom c ss = (ss.flatMap measured).map fun b => (b, c) := by
  rw [lengthsFrom, along_of_still h, List.map_flatMap]

/-! ### Statements that advance a counter -/

variable (counter offset) in
/-- The call works at the given offset and leaves the counter alone. -/
def Keeps (call : CodecCall) : Prop :=
  call.offset = offset ∧ call.argument ≠ ⟨.address, counter⟩

theorem cursorAfter_advance {call : CodecCall} (c : Option Cursor)
    (h : call.argument ≠ ⟨.address, counter⟩) :
    (advance counter call).cursorAfter counter c = c.map (·.past call) := by
  simp [cursorAfter, disturbs, h]

/-- Calls that advance the counter follow each other from its position on. -/
theorem visitsFrom_advances {calls : List CodecCall} (h : ∀ x ∈ calls, Keeps counter offset x)
    (c : Cursor) : visitsFrom counter offset (some c) (calls.map (advance counter)) = c.run calls := by
  induction calls generalizing c with
  | nil => rfl
  | cons call calls ih =>
    have hc := h call List.mem_cons_self
    rw [List.map_cons, visitsFrom_cons, cursorAfter_advance _ hc.2, Option.map_some,
      ih fun x hx => h x (List.mem_cons_of_mem _ hx)]
    simp [Statement.calls, hc.1, Cursor.run]

theorem cursorBehind_advances {calls : List CodecCall} (h : ∀ x ∈ calls, Keeps counter offset x)
    (c : Cursor) :
    cursorBehind counter (some c) (calls.map (advance counter)) =
      some ⟨c.origin, c.behind ++ calls⟩ := by
  induction calls generalizing c with
  | nil => simp [cursorBehind]
  | cons call calls ih =>
    have hc := h call List.mem_cons_self
    rw [List.map_cons, cursorBehind_cons, cursorAfter_advance _ hc.2, Option.map_some,
      ih fun x hx => h x (List.mem_cons_of_mem _ hx)]
    simp [Cursor.past]

/-- Each call that advances the counter brings it to a new position. -/
theorem positionsFrom_advances {calls : List CodecCall} (h : ∀ x ∈ calls, Keeps counter offset x)
    (c : Cursor) :
    some c :: positionsFrom counter (some c) (calls.map (advance counter)) = c.trail calls := by
  induction calls generalizing c with
  | nil => rfl
  | cons call calls ih =>
    have hc := h call List.mem_cons_self
    rw [List.map_cons, positionsFrom_cons, cursorAfter_advance _ hc.2, Option.map_some,
      if_neg (by simpa using c.past_ne call), List.singleton_append,
      ih fun x hx => h x (List.mem_cons_of_mem _ hx), Cursor.trail]

theorem flatMap_calls_advances (counter : String) (cs : List CodecCall) :
    (cs.map (advance counter)).flatMap calls = cs := by
  rw [List.flatMap_map]
  exact List.flatMap_singleton' cs

/-! ### Statements without codec calls -/

theorem visitsFrom_eq_nil {ss : List Statement} (h : ∀ s ∈ ss, s.calls = []) (c : Option Cursor) :
    visitsFrom counter offset c ss = [] :=
  along_eq_nil (fun s hs _ => by rw [h s hs, List.map_nil]) c

theorem flatMap_calls_eq_nil {ss : List Statement} (h : ∀ s ∈ ss, s.calls = []) :
    ss.flatMap calls = [] :=
  List.flatMap_eq_nil_iff.2 h

end Statement

end WireStub
