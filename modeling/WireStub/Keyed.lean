/-!
# Keyed lists

Pairs of a key and a value, in the order in which the keys were first put.  `List.lookup` reads a
value.

* `Keyed.put` gives a key a value; a key that is there already keeps its place;
* `Keyed.ofList` puts the pairs of a list, one after the other;
* `Keyed.lookup_put` says what is read behind a `put`.
-/

namespace WireStub

namespace Keyed

variable {α β : Type} [DecidableEq α]

/-- The entries with a value put at a key: in the place of the old value, or else behind all
entries. -/
def put (key : α) (value : β) : List (α × β) → List (α × β)
  | [] => [(key, value)]
  | e :: es => if e.1 = key then (key, value) :: es else e :: put key value es

/-- The entries of a list, put one after the other. -/
def ofList (es : List (α × β)) : List (α × β) := es.foldl (fun acc e => put e.1 e.2 acc) []

theorem lookup_put (key k : α) (value : β) (es : List (α × β)) :
    (put key value es).lookup k = if k = key then some value else es.lookup k := by
  have cons (e : α × β) (es : List (α × β)) :
      (e :: es).lookup k = if k = e.1 then some e.2 else es.lookup k := by
    obtain ⟨a, b⟩ := e
    rw [List.lookup_cons]
    by_cases h : k = a
    · simp [h]
    · rw [beq_eq_false_iff_ne.2 h, if_neg h]
  induction es with
  | nil => rw [put, cons, List.lookup_nil]
  | cons e es ih =>
    rw [put]
    by_cases he : e.1 = key
    · rw [if_pos he, cons, cons, he]
      split <;> rfl
    · rw [if_neg he, cons, ih, cons]
      by_cases h : k = e.1
      · have hk : k ≠ key := fun hk => he (h ▸ hk)
        rw [if_pos h, if_neg hk, if_pos h]
      · rw [if_neg h, if_neg h]

end Keyed

end WireStub
