import WireStub.Generate.Declaration
import WireStub.Proofs.Code.Cursor

/-!
# The steps of a codec

A codec function moves a value step by step: one step per field of a struct, or one for an array.  A
step is a codec call within a loop for each dimension.

* `stepCall` is the call, and `indexedPlace` the place that it is about;
* `unroll_codecStep` runs a step: it makes the same call for each element.
-/

namespace WireStub

/-- The codec call for an indexed place. -/
def stepCall (h : Half) (counter : String) (c : CType) (place : String) : CodecCall :=
  ⟨h, c, "buffer", "offset + " ++ counter, h.argument c place⟩

/-- A place with an index for each dimension. -/
def indexedPlace : Nat → String → List UInt32 → String
  | _, place, [] => place
  | depth, place, _ :: ns =>
    indexedPlace (depth + 1) (place ++ "[" ++ Statement.indexName depth ++ "]") ns

theorem exists_indexedPlace_eq (dims : List UInt32) :
    ∀ (depth : Nat) (place : String), ∃ s, indexedPlace depth place dims = place ++ s := by
  induction dims with
  | nil => exact fun _ place => ⟨"", by simp [indexedPlace]⟩
  | cons n ns ih =>
    intro depth place
    obtain ⟨s, hs⟩ := ih (depth + 1) (place ++ "[" ++ Statement.indexName depth ++ "]")
    exact ⟨"[" ++ Statement.indexName depth ++ "]" ++ s, by
      rw [indexedPlace, hs]
      simp only [String.append_assoc]⟩

/-- The number of elements of an array. -/
def elementCount : List UInt32 → Nat
  | [] => 1
  | n :: ns => n.toNat * elementCount ns

/-- A nest of loops repeats its statement once for each element. -/
theorem unroll_nest {f : String → Statement} (hf : ∀ p, (f p).unroll = [f p])
    (dims : List UInt32) : ∀ (depth : Nat) (place : String),
      (Statement.nest f depth place dims).unroll =
        List.replicate (elementCount dims) (f (indexedPlace depth place dims)) := by
  induction dims with
  | nil =>
    intro depth place
    exact hf place
  | cons n ns ih =>
    intro depth place
    -- the inner nest is repeated for each index of the outer loop
    rw [Statement.nest, Statement.unroll, ih, List.flatten_replicate_replicate]
    rfl

/-- The codec calls for the elements of an array, in the order of execution. -/
def elementCalls (h : Half) (counter place : String) (d : Declarator) : List CodecCall :=
  List.replicate (elementCount d.dims)
    (stepCall h counter d.type (indexedPlace 0 place d.dims))

theorem unroll_codecStep (h : Half) (counter place : String) (d : Declarator) :
    (codecStep h counter place d).unroll =
      (elementCalls h counter place d).map (.advance counter) := by
  rw [elementCalls, List.map_replicate]
  exact unroll_nest (fun _ => rfl) d.dims 0 place

end WireStub
