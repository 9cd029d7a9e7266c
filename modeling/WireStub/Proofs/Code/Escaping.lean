import WireStub.Proofs.Code.CNames
import WireStub.Proofs.ScopedName

/-!
# What escaping makes of a name

Escaping turns any text into an identifier that is free to use.  An identifier that is free already
stays as it is, and a reserved word gets an underscore.  That is the only way in which two identifiers
can become one.

* `Identifier.IsUsable` says that a text is an identifier of C and not reserved, and
  `Identifier.isUsable_escape` that an escaped text is;
* `Identifier.MakesUsable` says that a function makes usable identifiers and changes none, and
  `Identifier.makesUsable_escape` and `Identifier.makesUsable_escapeQualified` that escaping does so;
* `Identifier.isUsable_append_iff`: an underscore behind its beginning keeps a text from being reserved;
* `Identifier.escape_eq_iff` says which identifiers are escaped to the same one.
-/

namespace WireStub

namespace Identifier

/-- An identifier of C that is not reserved. -/
structure IsUsable (s : String) : Prop where
  valid : IsValid s
  free : s ∉ reserved

instance (s : String) : Decidable (IsUsable s) :=
  decidable_of_iff (IsValid s ∧ s ∉ reserved) ⟨fun ⟨h, h'⟩ => ⟨h, h'⟩, fun h => ⟨h.valid, h.free⟩⟩

variable {s t : String}

/-- A longer text is an identifier if its beginning is one and no foreign character follows. -/
theorem isValid_append_iff (hs : s ≠ "") :
    IsValid (s ++ t) ↔ IsValid s ∧ t.toList.all isWordChar = true := by
  have hne : s.toList ≠ [] := fun hnil => hs (String.toList_eq_nil_iff.1 hnil)
  have hhead : (s ++ t).toList.head? = s.toList.head? := by
    rw [String.toList_append, List.head?_append_of_ne_nil _ hne]
  have hwords : (s ++ t).toList.all isWordChar = true ↔
      s.toList.all isWordChar = true ∧ t.toList.all isWordChar = true := by
    rw [String.toList_append, List.all_append, Bool.and_eq_true]
  constructor
  · intro h
    exact ⟨⟨hs, (hwords.1 h.wordChars).1, hhead ▸ h.noDigit⟩, (hwords.1 h.wordChars).2⟩
  · rintro ⟨h, ht⟩
    refine ⟨fun hempty => ?_, hwords.2 ⟨h.wordChars, ht⟩, hhead.symm ▸ h.noDigit⟩
    exact hs (String.append_eq_empty_iff.1 hempty).1

/-- No reserved word has an underscore behind its first letter, so such a text is free. -/
theorem isUsable_append_iff (hs : s ≠ "") (ht : t.toList.head? = some '_') :
    IsUsable (s ++ t) ↔ IsValid s ∧ t.toList.all isWordChar = true := by
  have hnone : ∀ w ∈ reserved, '_' ∉ w.toList.tail := by decide
  have hne : s.toList ≠ [] := fun hnil => hs (String.toList_eq_nil_iff.1 hnil)
  have htail : '_' ∈ (s ++ t).toList.tail := by
    rw [String.toList_append, List.tail_append_of_ne_nil hne]
    exact List.mem_append_right _ (List.mem_of_head? ht)
  rw [← isValid_append_iff hs]
  exact ⟨fun h => h.valid, fun h => ⟨h, fun hmem => hnone _ hmem htail⟩⟩

theorem isUsable_underscore_iff (hs : s ≠ "") :
    IsUsable (s ++ ("_" ++ t)) ↔ IsValid s ∧ t.toList.all isWordChar = true := by
  have hwords : ("_" ++ t).toList.all isWordChar = t.toList.all isWordChar := by
    rw [String.toList_append, List.all_append]
    rfl
  rw [isUsable_append_iff hs (by simp), hwords]

/-- An underscore at the end keeps an identifier one. -/
theorem IsValid.push_underscore (h : IsValid s) : IsValid (s.push '_') :=
  (isValid_append_iff (t := "_") h.nonempty).2 ⟨h, rfl⟩

theorem isValid_guardReserved (h : IsValid s) : IsValid (guardReserved s) := by
  unfold guardReserved
  split
  · exact h.push_underscore
  · exact h

/-- Replacing and guarding the beginning make an identifier of any text. -/
theorem isValid_guardStart (cs : List Char) :
    IsValid (String.ofList (guardStart (replaceForeign cs))) := by
  have hwords : (replaceForeign cs).all isWordChar = true := by
    rw [List.all_eq_true]
    intro c hc
    obtain ⟨d, -, rfl⟩ := List.mem_map.1 hc
    split
    · assumption
    · rfl
  cases hreplaced : replaceForeign cs with
  | nil => decide
  | cons c r =>
    rw [hreplaced] at hwords
    rw [guardStart]
    split
    · exact ⟨by simp, by simpa [isWordChar] using hwords, by simp⟩
    · rename_i hdigit
      exact ⟨by simp, by simpa using hwords, by simpa using hdigit⟩

/-- Whatever is escaped can be used. -/
theorem isUsable_escape (s : String) : IsUsable (escape s) :=
  ⟨isValid_guardReserved (isValid_guardStart s.toList), escape_not_mem_reserved s⟩

/-- Of an identifier, escaping looks at nothing but whether it is reserved. -/
theorem IsValid.escape_eq (h : IsValid s) : escape s = guardReserved s := by
  have hreplaced : replaceForeign s.toList = s.toList := by
    have hkeep : ∀ c ∈ s.toList, (if isWordChar c then c else '_') = c := fun c hc =>
      if_pos (List.all_eq_true.1 h.wordChars c hc)
    rw [replaceForeign, List.map_congr_left hkeep, List.map_id']
  have hguarded : guardStart s.toList = s.toList := by
    cases hs : s.toList with
    | nil => exact absurd (String.toList_eq_nil_iff.1 hs) h.nonempty
    | cons c r =>
      have hdigit := h.noDigit
      rw [hs] at hdigit
      rw [guardStart, if_neg (by simpa using hdigit)]
  rw [escape, hreplaced, hguarded, String.ofList_toList]

/-- What can be used already stays as it is. -/
theorem IsUsable.escape_eq (h : IsUsable s) : escape s = s := by
  rw [h.valid.escape_eq, guardReserved, if_neg h.free]

/-- Without colons there are no separators to be replaced. -/
theorem joinPieces_eq_self (h : ':' ∉ s.toList) : joinPieces s = s := by
  rw [joinPieces, ScopedName.pieces_eq_singleton h, List.map_singleton, String.ofList_toList,
    String.intercalate_singleton]

theorem IsUsable.escapeQualified_eq (h : IsUsable s) : escapeQualified s = s := by
  rw [escapeQualified, joinPieces_eq_self (h.valid.not_mem rfl), h.escape_eq]

/-- A function that makes a usable identifier of any text, and changes none. -/
structure MakesUsable (f : String → String) : Prop where
  usable : ∀ s, IsUsable (f s)
  /-- The texts that stay as they are are the usable identifiers. -/
  eq_self_iff : ∀ s, f s = s ↔ IsUsable s
  idempotent : ∀ s, f (f s) = f s

theorem MakesUsable.of_eq_self {f : String → String} (husable : ∀ s, IsUsable (f s))
    (hkeep : ∀ s, IsUsable s → f s = s) : MakesUsable f where
  usable := husable
  eq_self_iff s := ⟨fun h => h ▸ husable s, hkeep s⟩
  idempotent s := hkeep (f s) (husable s)

theorem makesUsable_escape : MakesUsable escape :=
  .of_eq_self isUsable_escape fun _ h => h.escape_eq

theorem makesUsable_escapeQualified : MakesUsable escapeQualified :=
  .of_eq_self (fun s => isUsable_escape (joinPieces s)) fun _ h => h.escapeQualified_eq

/-- Two identifiers are escaped to one if they are the same, or if one of them is a reserved word and
the other one is that word with an underscore. -/
theorem escape_eq_iff (hs : IsValid s) (ht : IsValid t) :
    escape s = escape t ↔
      s = t ∨ s ∈ reserved ∧ t = s.push '_' ∨ t ∈ reserved ∧ s = t.push '_' := by
  rw [hs.escape_eq, ht.escape_eq]
  constructor
  · intro h
    unfold guardReserved at h
    split at h <;> split at h
    · exact .inl (by simpa [← String.toList_inj] using h)
    · exact .inr (.inl ⟨‹_›, h.symm⟩)
    · exact .inr (.inr ⟨‹_›, h⟩)
    · exact .inl h
  · rintro (rfl | ⟨hmem, rfl⟩ | ⟨hmem, rfl⟩)
    · rfl
    · rw [guardReserved, guardReserved, if_pos hmem, if_neg (push_not_mem_reserved s hmem)]
    · rw [guardReserved, guardReserved, if_pos hmem, if_neg (push_not_mem_reserved t hmem)]

end Identifier

end WireStub
