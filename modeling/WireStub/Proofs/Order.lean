import Mathlib.Data.List.Basic
import Mathlib.Logic.Relation

/-!
# Places in a list

Declarations and files are taken up one after the other, and what one needs stands before it.  Then
needing has no cycles.

* `idxOf_lt_idxOf` turns a place in a list into a number, and `pairwise_idxOf_eraseDups` says that the
  first places of what is left of a list without its repetitions ascend;
* `rank_lt_of_transGen`: a number that descends along every step descends along any steps, so by
  `acyclic_of_rank` the steps have no cycles.
-/

namespace WireStub

variable {α : Type}

/-- What stands before `b` has a smaller index, unless `b` stands there too. -/
theorem idxOf_lt_idxOf [DecidableEq α] {l l' : List α} {a b : α} (ha : a ∈ l) (hb : b ∉ l) :
    (l ++ b :: l').idxOf a < (l ++ b :: l').idxOf b := by
  have hlt : l.idxOf a < l.length := List.idxOf_lt_length_of_mem ha
  rw [List.idxOf_append, List.idxOf_append, if_pos ha, if_neg hb]
  omega

/-- The elements of a list that meet a condition, without repetitions, stand in the order in which they
come up first. -/
theorem pairwise_idxOf_eraseDups [DecidableEq α] (l : List α) : ∀ p : α → Bool,
    (l.filter p).eraseDups.Pairwise fun a b => l.idxOf a < l.idxOf b := by
  induction l with
  | nil => exact fun p => .nil
  | cons c l ih =>
    intro p
    -- behind the first element, all places are one further on
    have hrest (q : α → Bool) (hq : ∀ a ∈ (l.filter q).eraseDups, a ≠ c) :
        (l.filter q).eraseDups.Pairwise fun a b => (c :: l).idxOf a < (c :: l).idxOf b :=
      (ih q).imp_of_mem fun {a b} ha hb hab => by
        rw [List.idxOf_cons_ne _ (hq a ha).symm, List.idxOf_cons_ne _ (hq b hb).symm]
        omega
    by_cases hc : p c
    · rw [List.filter_cons_of_pos hc, List.eraseDups_cons, List.filter_filter]
      have hne (a : α) (ha : a ∈ (l.filter fun b => !b == c && p b).eraseDups) : a ≠ c := by
        rw [List.mem_eraseDups, List.mem_filter] at ha
        simpa using (Bool.and_eq_true_iff.1 ha.2).1
      refine .cons (fun a ha => ?_) (hrest _ hne)
      rw [List.idxOf_cons_self, List.idxOf_cons_ne _ (hne a ha).symm]
      omega
    · rw [List.filter_cons_of_neg hc]
      refine hrest p fun a ha => ?_
      rintro rfl
      rw [List.mem_eraseDups, List.mem_filter] at ha
      exact hc ha.2

/-- Where a number descends along every step from a place in a set, and the set is not left, it
descends along any steps. -/
theorem rank_lt_of_transGen {R : α → α → Prop} {S : α → Prop} (rank : α → ℕ)
    (h : ∀ a b, S a → R a b → S b ∧ rank b < rank a) {a b : α} (ha : S a)
    (hab : Relation.TransGen R a b) : S b ∧ rank b < rank a := by
  induction hab with
  | single hab => exact h _ _ ha hab
  | tail _ hbc ih =>
    obtain ⟨hc, hlt⟩ := h _ _ ih.1 hbc
    exact ⟨hc, Nat.lt_trans hlt ih.2⟩

/-- A relation along which a number descends has no cycles. -/
theorem acyclic_of_rank {R : α → α → Prop} (rank : α → ℕ) (h : ∀ a b, R a b → rank b < rank a)
    (a : α) : ¬Relation.TransGen R a a := by
  intro hcycle
  have hstep : ∀ a b, True → R a b → True ∧ rank b < rank a := fun a b _ hab => ⟨trivial, h a b hab⟩
  exact Nat.lt_irrefl _ (rank_lt_of_transGen rank hstep trivial hcycle).2

end WireStub
