import Mathlib.Data.List.Nodup
import WireStub.Generate.CUnit

/-!
# File names of units

The units of a module have seven different file names.  The file names of two modules meet exactly if
the name of one is the name of the other with the ending of a unit behind it: no two endings of units
end in the same letter.

* `CUnit.fileName_eq_iff` compares two file names, and `CUnit.exists_fileName_eq_iff` those of two
  modules;
* `CUnit.nodup_fileNames_iff`: all file names are distinct if and only if the names of the modules are
  `CUnit.Apart`.
-/

namespace WireStub

namespace CUnit

/-- Neither name is the other one with the ending of a unit behind it. -/
def Apart (a b : String) : Prop := ∀ u : CUnit, a ≠ b ++ u.ending ∧ b ≠ a ++ u.ending

theorem mem_all (u : CUnit) : u ∈ all := by cases u <;> decide

theorem nodup_all : all.Nodup := by decide

@[simp] theorem ending_declarations : declarations.ending = "" := rfl

/-- Every ending of units is that of a header. -/
theorem exists_header (u : CUnit) : ∃ v : CUnit, v.isHeader = true ∧ v.ending = u.ending := by
  cases u with
  | declarations => exact ⟨declarations, rfl, rfl⟩
  | dispatchHeader | dispatchSource => exact ⟨dispatchHeader, rfl, rfl⟩
  | stubHeader | stubSource => exact ⟨stubHeader, rfl, rfl⟩
  | codecHeader | codecSource => exact ⟨codecHeader, rfl, rfl⟩

theorem eq_of_ending_eq {u v : CUnit} (hending : u.ending = v.ending)
    (hheader : u.isHeader = v.isHeader) : u = v := by
  revert hending hheader
  cases u <;> cases v <;> decide

/-- The last letter of an ending tells which one it is. -/
theorem ending_eq_of_getLast?_eq {u v : CUnit} (hu : u.ending.toList ≠ [])
    (hv : v.ending.toList ≠ []) (h : u.ending.toList.getLast? = v.ending.toList.getLast?) :
    u.ending = v.ending := by
  revert hu hv h
  cases u <;> cases v <;> decide

theorem getLast?_append {a s : String} (hs : s.toList ≠ []) :
    (a ++ s).toList.getLast? = s.toList.getLast? := by
  rw [String.toList_append, List.getLast?_append_of_ne_nil _ hs]

theorem fileName_eq_iff {u v : CUnit} {a b : String} :
    u.fileName a = v.fileName b ↔
      a ++ u.ending = b ++ v.ending ∧ u.isHeader = v.isHeader := by
  have hkind (s t : String) : s ++ ".h" ≠ t ++ ".c" := fun h => by
    have h := congrArg (·.toList.getLast?) h
    simp at h
  unfold fileName
  cases u.isHeader <;> cases v.isHeader <;> simp [hkind, Ne.symm (hkind _ _)]

/-- No file name of a unit is special in a path. -/
theorem fileName_not_special (u : CUnit) (a : String) : u.fileName a ∉ ["", ".", ".."] := by
  have hext {s e : String} (he : e = ".h" ∨ e = ".c") : s ++ e ∉ ["", ".", ".."] := by
    intro h
    have hlast : (s ++ e).toList.getLast? = some 'h' ∨ (s ++ e).toList.getLast? = some 'c' := by
      rcases he with rfl | rfl <;> simp
    simp only [List.mem_cons, List.not_mem_nil, or_false] at h
    rcases h with h | h | h <;> rw [h] at hlast <;> simp at hlast
  unfold fileName
  split
  · exact hext (.inl rfl)
  · exact hext (.inr rfl)

/-- A file name has no slash if the name of the module has none. -/
theorem slash_not_mem_fileName (u : CUnit) {a : String} (ha : '/' ∉ a.toList) :
    '/' ∉ (u.fileName a).toList := by
  cases u <;> simp [fileName, ending, isHeader, ha]

/-- The file names of two modules meet exactly if one module is named like a unit of the other. -/
theorem exists_fileName_eq_iff {a b : String} :
    (∃ u v : CUnit, u.fileName a = v.fileName b) ↔ ¬Apart a b := by
  have hnot : ¬Apart a b ↔ ∃ u : CUnit, a = b ++ u.ending ∨ b = a ++ u.ending := by
    simp only [Apart, not_forall, not_and_or, ne_eq, not_not]
  rw [hnot]
  constructor
  · rintro ⟨u, v, h⟩
    obtain ⟨h, -⟩ := fileName_eq_iff.1 h
    by_cases hu : u.ending.toList = []
    · rw [String.toList_eq_nil_iff.1 hu, String.append_empty] at h
      exact ⟨v, .inl h⟩
    by_cases hv : v.ending.toList = []
    · rw [String.toList_eq_nil_iff.1 hv, String.append_empty] at h
      exact ⟨u, .inr h.symm⟩
    -- both endings have a last letter, and it is the same
    have hending : u.ending = v.ending := ending_eq_of_getLast?_eq hu hv (by
      rw [← getLast?_append hu, h, getLast?_append hv])
    refine ⟨declarations, .inl ?_⟩
    rw [hending] at h
    simpa using h
  · rintro ⟨u, h⟩
    obtain ⟨v, hv, hvu⟩ := u.exists_header
    rcases h with rfl | rfl
    · exact ⟨declarations, v, fileName_eq_iff.2 ⟨by simp [hvu], hv.symm⟩⟩
    · exact ⟨v, declarations, fileName_eq_iff.2 ⟨by simp [hvu], hv⟩⟩

theorem fileName_injective (a : String) : Function.Injective (·.fileName a : CUnit → String) := by
  intro u v h
  obtain ⟨hending, hheader⟩ := fileName_eq_iff.1 h
  exact eq_of_ending_eq (by simpa using hending) hheader

/-- All units of modules have distinct file names exactly if the names of the modules are apart. -/
theorem nodup_fileNames_iff {names : List String} :
    (names.flatMap fun a => all.map (·.fileName a)).Nodup ↔ names.Pairwise Apart := by
  have hdisjoint {a b : String} :
      List.Disjoint (all.map (·.fileName a)) (all.map (·.fileName b)) ↔ Apart a b := by
    rw [← not_iff_not, ← exists_fileName_eq_iff, List.disjoint_iff_ne]
    simp [mem_all]
  rw [List.nodup_flatMap, and_iff_right fun a _ => nodup_all.map (fileName_injective a)]
  exact List.Pairwise.iff fun _ _ => hdisjoint

end CUnit

end WireStub
