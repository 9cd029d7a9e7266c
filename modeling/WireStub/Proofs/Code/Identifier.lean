import WireStub.Code.Identifier

/-!
# Escaped identifiers

Escaping keeps clear of the reserved words, so a name of a schema never meets a name that a
generated function declares itself (`Identifier.escape_not_mem_reserved`).
-/

namespace WireStub

namespace Identifier

theorem push_not_mem_reserved : ∀ s ∈ reserved, s.push '_' ∉ reserved := by decide

theorem guardReserved_not_mem_reserved (s : String) : guardReserved s ∉ reserved := by
  unfold guardReserved
  split
  · rename_i h
    exact push_not_mem_reserved s h
  · rename_i h
    exact h

theorem escape_not_mem_reserved (s : String) : escape s ∉ reserved :=
  guardReserved_not_mem_reserved _

theorem escape_ne {s t : String} (h : t ∈ reserved) : escape s ≠ t := by
  rintro rfl
  exact escape_not_mem_reserved s h

end Identifier

end WireStub
