import Mathlib.Data.List.Induction
import WireStub.Keyed

/-!
# Entries of a list

Putting the entries of a list one after the other leaves one entry for each key: in the place of its
first, with the value of its last.

* `Keyed.ofList_eq_self`: without repetitions of keys a list stays as it is;
* `Keyed.lookup_ofList_last`: of several values of a key the last is read.
-/

namespace WireStub

namespace Keyed

variable {α β : Type} [DecidableEq α]

/-- A new key goes behind all entries. -/
theorem put_of_not_mem {key : α} {value : β} {es : List (α × β)} (h : key ∉ es.map (·.1)) :
    put key value es = es ++ [(key, value)] := by
  induction es with
  | nil => rfl
  | cons e es ih =>
    obtain ⟨he, hes⟩ := not_or.1 (mt List.mem_cons.2 h)
    rw [put, if_neg (Ne.symm he), ih hes, List.cons_append]

theorem ofList_append_singleton (es : List (α × β)) (e : α × β) :
    ofList (es ++ [e]) = put e.1 e.2 (ofList es) := by
  rw [ofList, ofList, List.foldl_append]
  rfl

/-- Keys without repetitions keep their entries, in their order. -/
theorem ofList_eq_self {es : List (α × β)} (h : (es.map (·.1)).Nodup) : ofList es = es := by
  induction es using List.reverseRecOn with
  | nil => rfl
  | append_singleton es e ih =>
    rw [List.map_append, List.nodup_append] at h
    have hnew : e.1 ∉ es.map (·.1) := fun hmem => h.2.2 _ hmem _ List.mem_cons_self rfl
    rw [ofList_append_singleton, ih h.1, put_of_not_mem hnew]

/-- The last value of a key is the one that is read. -/
theorem lookup_ofList_last {key : α} (value : β) (before : List (α × β)) {after : List (α × β)}
    (h : key ∉ after.map (·.1)) : (ofList (before ++ (key, value) :: after)).lookup key = some value := by
  induction after using List.reverseRecOn with
  | nil => rw [ofList_append_singleton, lookup_put, if_pos rfl]
  | append_singleton after e ih =>
    rw [List.map_append, List.mem_append, not_or] at h
    have hne : key ≠ e.1 := fun heq => h.2 (heq ▸ List.mem_cons_self)
    rw [← List.cons_append, ← List.append_assoc, ofList_append_singleton, lookup_put, if_neg hne,
      ih h.1]

end Keyed

end WireStub
