import WireStub.Tree

/-!
# Reading back what is written

Numbers, texts and lists are read back from the trees that they are written to.

* `Scalar.unsignedText?_toString` is for the digits of a number, and `Tree.unsigned?_ofNat` for its
  tree;
* `Tree.list?_ofList` reduces a list to its items;
* `Tree.exists_of_required`, `Tree.eq_or_exists_of_optional` and `Tree.exists_of_list?` say where a
  value that is read comes from.
-/

namespace WireStub

namespace Scalar

theorem digit?_of_isDigit {c : Char} (h : c.isDigit = true) : digit? 10 c = some (c.toNat - 48) := by
  obtain ⟨hlow, hhigh⟩ : 48 ≤ c.toNat ∧ c.toNat ≤ 57 := by
    simpa [Char.isDigit, UInt32.le_iff_toNat_le] using h
  have hdigit : c.toNat - 48 < 10 := by omega
  simp [digit?, hlow, hhigh, hdigit]

/-- Decimal digits are read to the number that they stand for. -/
theorem foldlM_digit? {cs : List Char} (h : ∀ c ∈ cs, c.isDigit = true) (n : Nat) :
    cs.foldlM (fun n c => (digit? 10 c).map (10 * n + ·)) n = some (Nat.ofDigitChars 10 cs n) := by
  induction cs generalizing n with
  | nil => rfl
  | cons c cs ih =>
    obtain ⟨hc, hcs⟩ := List.forall_mem_cons.1 h
    simp only [List.foldlM_cons, digit?_of_isDigit hc, Option.map_some, Nat.ofDigitChars_cons]
    exact ih hcs _

theorem number?_toDigits (n : Nat) : number? 10 (Nat.toDigits 10 n) = some n := by
  have hdigits : ∀ c ∈ Nat.toDigits 10 n, c.isDigit = true :=
    fun c hc => Nat.isDigit_of_mem_toDigits (by decide) (by decide) hc
  have hvalue := foldlM_digit? hdigits 0
  rw [Nat.ofDigitChars_ten_toDigits] at hvalue
  unfold number?
  split
  · exact absurd ‹_› Nat.toDigits_ne_nil
  · exact hvalue

/-- A positive number is not written with a leading zero. -/
theorem head?_toDigits {n : Nat} (h : 0 < n) : (Nat.toDigits 10 n).head? ≠ some '0' := by
  induction n using Nat.strongRecOn with
  | _ n ih =>
    by_cases hlt : n < 10
    · have hdigit : ∀ n < 10, 0 < n → [n.digitChar].head? ≠ some '0' := by decide
      rw [Nat.toDigits_of_lt_base hlt]
      exact hdigit n hlt h
    · have hpos : 0 < n / 10 := by omega
      obtain ⟨c, cs, hcs⟩ := List.exists_cons_of_ne_nil (Nat.toDigits_ne_nil (n := n / 10) (b := 10))
      have hhead := ih (n / 10) (by omega) hpos
      rw [Nat.toDigits_of_base_le (by decide) (by omega)]
      rw [hcs] at hhead ⊢
      exact hhead

/-- A number is read back from its digits. -/
theorem unsignedText?_toString (n : Nat) : unsignedText? (toString n) = some n := by
  rcases Nat.eq_zero_or_pos n with rfl | hn
  · rfl
  have hhead := head?_toDigits hn
  have hdigits : ∀ c ∈ Nat.toDigits 10 n, c.isDigit = true :=
    fun c hc => Nat.isDigit_of_mem_toDigits (by decide) (by decide) hc
  have hnumber := number?_toDigits n
  unfold unsignedText?
  rw [Nat.toString_eq_ofList_toDigits, String.toList_ofList]
  -- the digits start with neither a sign nor a zero, so no other form of a number is tried
  cases hcs : Nat.toDigits 10 n with
  | nil => exact absurd hcs Nat.toDigits_ne_nil
  | cons c cs =>
    rw [hcs] at hhead hdigits hnumber
    have hplus : c ≠ '+' := by
      rintro rfl
      exact absurd (hdigits _ List.mem_cons_self) (by decide)
    have hzero : c ≠ '0' := fun hc => hhead (congrArg some hc)
    simp [hplus, hzero, hnumber]

end Scalar

/-- When steps all succeed, each result is that of a step. -/
theorem exists_of_mapM_eq_some {α β : Type} {r : α → Option β} {as : List α} {bs : List β}
    (h : as.mapM r = some bs) {b : β} (hb : b ∈ bs) : ∃ a ∈ as, r a = some b := by
  induction as generalizing bs with
  | nil =>
    rw [List.mapM_nil] at h
    cases h
    cases hb
  | cons a as ih =>
    simp only [List.mapM_cons, bind, Option.bind_eq_some_iff] at h
    obtain ⟨c, hc, cs, hcs, hcons⟩ := h
    cases hcons
    rcases List.mem_cons.1 hb with rfl | hb
    · exact ⟨a, List.mem_cons_self, hc⟩
    · obtain ⟨a', ha', hb'⟩ := ih hcs hb
      exact ⟨a', List.mem_cons_of_mem _ ha', hb'⟩

/-- Steps that all succeed. -/
theorem mapM_eq_some_map {α β : Type} {r : α → Option β} {f : α → β} (as : List α)
    (h : ∀ a ∈ as, r a = some (f a)) : as.mapM r = some (as.map f) := by
  induction as with
  | nil => rfl
  | cons a as ih =>
    obtain ⟨ha, has⟩ := List.forall_mem_cons.1 h
    simp [ha, ih has]

namespace Tree

theorem unsigned?_ofNat {n bound : Nat} (h : n ≤ bound) : (ofNat n).unsigned? bound = some n := by
  have hread := Scalar.unsignedText?_toString n
  rw [Nat.toString_eq_repr] at hread
  simp [ofNat, unsigned?, Scalar.reads, hread, h]

@[simp] theorem text?_ofText (s : String) : (ofText s).text? = some s := rfl

@[simp] theorem unitCase?_ofText (s : String) : (ofText s).unitCase? = some s := rfl

@[simp] theorem payloadCase?_ofCase (word : String) (t : Tree) :
    (ofCase word t).payloadCase? = some (word, t) := rfl

/-- A list is read back if its items are. -/
theorem list?_ofList {α β : Type} {r : Tree → Option β} {w : α → Tree} {f : α → β} (as : List α)
    (h : ∀ a ∈ as, r (w a) = some (f a)) : (ofList (as.map w)).list? r = some (as.map f) := by
  have hitems := mapM_eq_some_map as h
  simpa [list?, ofList, items?, List.mapM_map, Function.comp_def] using hitems

theorem list?_text?_ofList (ss : List String) :
    (ofList (ss.map ofText)).list? text? = some ss := by
  simpa using list?_ofList (f := id) ss fun _ _ => rfl

/-! ### Where values come from -/

section Fields

variable {α : Type} {fields : List (String × Tree)} {key : String} {f : Tree → Option α} {a : α}

theorem exists_of_required (h : required fields key f = some a) : ∃ t, f t = some a := by
  obtain ⟨t, -, ht⟩ := Option.bind_eq_some_iff.1 h
  exact ⟨t, ht⟩

theorem eq_or_exists_of_optional {dflt : α} (h : optional fields key dflt f = some a) :
    a = dflt ∨ ∃ t, f t = some a := by
  unfold optional at h
  split at h
  · exact .inl (Option.some.inj h).symm
  · exact .inr ⟨_, h⟩

theorem exists_of_list? {t : Tree} {as : List α} (h : t.list? f = some as) (ha : a ∈ as) :
    ∃ t', f t' = some a := by
  obtain ⟨items, -, hitems⟩ := Option.bind_eq_some_iff.1 h
  obtain ⟨t', -, ht'⟩ := exists_of_mapM_eq_some hitems ha
  exact ⟨t', ht'⟩

/-- The items of a list in a field that may be left out. -/
theorem exists_of_optional_list? {as : List α} (h : optional fields key [] (list? f) = some as)
    (ha : a ∈ as) : ∃ t, f t = some a := by
  rcases eq_or_exists_of_optional h with rfl | ⟨t, ht⟩
  · cases ha
  · exact exists_of_list? ht ha

end Fields

end Tree

end WireStub
