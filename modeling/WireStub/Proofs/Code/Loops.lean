import Mathlib.Data.List.Forall2
import Mathlib.Data.List.Nodup
import Mathlib.Data.List.Range
import WireStub.Proofs.Code.Cursor
import WireStub.Proofs.Code.Typing

/-!
# Loops

A statement of a generated function may be a nest of loops.  Each loop counts from 0 to below its bound,
so the innermost statement is executed once for every choice of counter values below the bounds.

* `Statement.loops` are the loops of a nest, and `Statement.innermost` is what stands in them;
* `Statement.indices` are the values of the counters, each time that the innermost statement is
  executed: `Statement.unroll_eq_replicate` compares them with the order of execution;
* `Statement.mem_indices` and `Statement.nodup_indices`: if the counters are different, their values are
  below the bounds, and all such values come up once.
-/

namespace WireStub

/-! ### Tuples of indices -/

/-- The tuples of numbers below bounds, in the order in which nested loops count. -/
def indexTuples : List UInt32 → List (List Nat)
  | [] => [[]]
  | n :: ns => (List.range n.toNat).flatMap fun i => (indexTuples ns).map (i :: ·)

theorem mem_indexTuples {bounds : List UInt32} :
    ∀ {is : List Nat}, is ∈ indexTuples bounds ↔
      List.Forall₂ (fun i n => i < n.toNat) is bounds := by
  induction bounds with
  | nil => simp [indexTuples]
  | cons n ns ih =>
    intro is
    simp only [indexTuples, List.mem_flatMap, List.mem_range, List.mem_map, ih,
      List.forall₂_cons_right_iff]
    constructor
    · rintro ⟨i, hi, js, hjs, rfl⟩
      exact ⟨i, js, hi, hjs, rfl⟩
    · rintro ⟨i, js, hi, hjs, rfl⟩
      exact ⟨i, hi, js, hjs, rfl⟩

theorem nodup_indexTuples (bounds : List UInt32) : (indexTuples bounds).Nodup := by
  induction bounds with
  | nil => exact List.nodup_singleton _
  | cons n ns ih =>
    refine List.nodup_flatMap.2 ⟨fun i _ => ih.map fun _ _ h => (List.cons.inj h).2, ?_⟩
    -- tuples with different first numbers are different
    refine List.nodup_range.imp fun {i j} hij is hi hj => hij ?_
    obtain ⟨is', -, rfl⟩ := List.mem_map.1 hi
    obtain ⟨js', -, h⟩ := List.mem_map.1 hj
    exact (List.cons.inj h).1.symm

/-! ### Values of counters -/

/-- What is entered under different names is found. -/
theorem lookup_append_of_mem {l values : List (String × Nat)} (h : (l.map (·.1)).Nodup) {c : String}
    {i : Nat} (hmem : (c, i) ∈ l) : (l ++ values).lookup c = some i := by
  induction l with
  | nil => cases hmem
  | cons x l ih =>
    obtain ⟨d, j⟩ := x
    rw [List.map_cons, List.nodup_cons] at h
    rw [List.cons_append, List.lookup_cons]
    rcases List.mem_cons.1 hmem with heq | hmem
    · cases heq
      simp
    · have hne : c ≠ d := fun heq => h.1 (List.mem_map.2 ⟨_, hmem, heq⟩)
      rw [beq_eq_false_iff_ne.2 hne]
      exact ih h.2 hmem

theorem mapM_lookup_eq_some {values : List (String × Nat)} {cs : List String} {is : List Nat}
    (h : List.Forall₂ (fun c i => values.lookup c = some i) cs is) :
    cs.mapM (values.lookup ·) = some is := by
  induction h with
  | nil => rfl
  | cons hc _ ih => simp [List.mapM_cons, hc, ih]

namespace Statement

/-- The loops around the innermost statement, outermost first: the counter and the bound of each. -/
def loops : Statement → List (String × UInt32)
  | loop depth bound body => (indexName depth, bound) :: body.loops
  | _ => []

/-- The counters of the loops. -/
def counters (s : Statement) : List String := s.loops.map (·.1)

/-- The bounds of the loops. -/
def bounds (s : Statement) : List UInt32 := s.loops.map (·.2)

/-- What stands in the loops. -/
def innermost : Statement → Statement
  | loop _ _ body => body.innermost
  | s => s

/-- The values of variables each time that the innermost statement is executed: those of the counters
behind those that were there before.  A counter hides a variable of the same name around it. -/
def passes : Statement → List (String × Nat) → List (List (String × Nat))
  | loop depth bound body, values =>
    (List.range bound.toNat).flatMap fun i => body.passes ((indexName depth, i) :: values)
  | _, values => [values]

/-- The values of the counters, outermost first, each time that the innermost statement is executed. -/
def indices (s : Statement) : List (Option (List Nat)) :=
  (s.passes []).map fun values => s.counters.mapM (values.lookup ·)

@[simp] theorem counters_loop (depth : Nat) (bound : UInt32) (body : Statement) :
    (loop depth bound body).counters = indexName depth :: body.counters := rfl

@[simp] theorem bounds_loop (depth : Nat) (bound : UInt32) (body : Statement) :
    (loop depth bound body).bounds = bound :: body.bounds := rfl

theorem length_counters (s : Statement) : s.counters.length = s.bounds.length := by
  rw [counters, bounds, List.length_map, List.length_map]

/-- The counters run through all tuples of indices. -/
theorem passes_eq (s : Statement) : ∀ values : List (String × Nat),
    s.passes values = (indexTuples s.bounds).map fun is => (s.counters.zip is).reverse ++ values := by
  induction s with
  | loop depth bound body ih =>
    intro values
    simp only [passes, ih, bounds_loop, counters_loop, indexTuples, List.map_flatMap, List.map_map]
    refine List.flatMap_congr fun i _ => List.map_congr_left fun is _ => ?_
    simp
  | _ => exact fun values => rfl

/-- In the order of execution, the innermost statement stands there once for all values of the counters. -/
theorem unroll_eq_replicate (s : Statement) :
    s.unroll = List.replicate s.indices.length s.innermost := by
  have hpasses : ∀ values : List (String × Nat),
      s.unroll = List.replicate (s.passes values).length s.innermost := by
    induction s with
    | loop depth bound body ih =>
      intro values
      rw [unroll, ih values, List.flatten_replicate_replicate]
      simp [passes, innermost, passes_eq, List.length_flatMap]
    | _ => exact fun values => rfl
  rw [indices, List.length_map]
  exact hpasses []

section Distinct

variable {s : Statement}

/-- Different counters are all read as they were set. -/
theorem indices_eq (h : s.counters.Nodup) : s.indices = (indexTuples s.bounds).map some := by
  rw [indices, passes_eq, List.map_map]
  refine List.map_congr_left fun is his => mapM_lookup_eq_some ?_
  have hlength : s.counters.length = is.length :=
    s.length_counters.trans (mem_indexTuples.1 his).length_eq.symm
  have hnodup : ((s.counters.zip is).reverse.map (·.1)).Nodup := by
    rw [List.map_reverse, List.nodup_reverse, List.map_fst_zip hlength.le]
    exact h
  refine List.forall₂_iff_zip.2 ⟨hlength, fun {c i} hmem => ?_⟩
  exact lookup_append_of_mem hnodup (List.mem_reverse.2 hmem)

/-- The values of the counters are the tuples of numbers below the bounds. -/
theorem mem_indices (h : s.counters.Nodup) {v : Option (List Nat)} :
    v ∈ s.indices ↔ ∃ is, v = some is ∧ List.Forall₂ (fun i n => i < n.toNat) is s.bounds := by
  simp only [indices_eq h, List.mem_map, mem_indexTuples, and_comm, eq_comm]

/-- No values of the counters come up twice. -/
theorem nodup_indices (h : s.counters.Nodup) : s.indices.Nodup := by
  rw [indices_eq h]
  exact (nodup_indexTuples s.bounds).map fun _ _ => Option.some.inj

end Distinct

/-! ### Nests over dimensions -/

theorem indexName_injective : Function.Injective indexName := by
  intro m n h
  have hdigits : Nat.toDigits 10 m = Nat.toDigits 10 n := by
    simpa [indexName] using congrArg String.toList h
  rw [← Nat.ofDigitChars_ten_toDigits (n := m), hdigits, Nat.ofDigitChars_ten_toDigits]

/-- The counters of nested loops from a depth on. -/
def counterNames (depth count : Nat) : List String := (List.range' depth count).map indexName

theorem nodup_counterNames (depth count : Nat) : (counterNames depth count).Nodup :=
  (List.nodup_range' 1).map indexName_injective

theorem loops_nest {f : String → Statement} (hf : ∀ p, (f p).loops = []) (dims : List UInt32) :
    ∀ (depth : Nat) (place : String),
      (nest f depth place dims).loops = (counterNames depth dims.length).zip dims := by
  induction dims with
  | nil => exact fun depth place => hf place
  | cons n ns ih =>
    intro depth place
    rw [nest, loops, ih, List.length_cons]
    rfl

end Statement

end WireStub
