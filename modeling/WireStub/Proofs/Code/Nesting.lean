import WireStub.Proofs.Code.Lines

/-!
# Nested layouts

The level of a layout changes in pairs: a step deeper and, further on, the step that takes it back.

* `Layout.Nested` is the grammar of layouts whose pairs nest, and `Statement.nested_layout` and
  `Item.nested_layoutAll` say that generated text has such layouts;
* `Nested.exists_last` finds the step that takes a step deeper back, and `Nested.exists_first` the one
  that a step back belongs to;
* `Nested.wellNested`: so no step back is taken at level 0, every opening brace is closed at its own
  level, and the last level is the first.
-/

namespace WireStub

namespace Layout

/-- A step deeper, and the step that takes it back. -/
inductive Step.Matches : Step → Step → Prop
  | plain : Matches .indent .dedent
  | brace (trailer : String) : Matches .opening (.closing trailer)

/-- Whether a step goes one level deeper. -/
def Step.isDeeper : Step → Bool
  | .indent | .opening => true
  | _ => false

/-- Whether a step goes one level back. -/
def Step.isBack : Step → Bool
  | .dedent | .closing _ => true
  | _ => false

/-- Layouts in which every step deeper is taken back, and the steps in between nest too. -/
inductive Nested : List Step → Prop
  | nil : Nested []
  | line (text : String) : Nested [.line text]
  | blank : Nested [.blank]
  | append {ss ts : List Step} : Nested ss → Nested ts → Nested (ss ++ ts)
  | block {first last : Step} {body : List Step} :
      first.Matches last → Nested body → Nested (first :: body ++ [last])

namespace Step.Matches

variable {first last : Step}

theorem isDeeper (h : first.Matches last) : first.isDeeper = true ∧ last.isDeeper = false := by
  cases h <;> exact ⟨rfl, rfl⟩

theorem isBack (h : first.Matches last) : first.isBack = false ∧ last.isBack = true := by
  cases h <;> exact ⟨rfl, rfl⟩

theorem level (h : first.Matches last) (n : Nat) : first.level n = n + 1 ∧ last.level (n + 1) = n := by
  cases h <;> exact ⟨rfl, rfl⟩

end Step.Matches

/-! ### Splitting at a step -/

section Splitting

variable {α : Type} {a : α} {before after : List α}

/-- An item of two lists stands in the first or in the second. -/
theorem split_append {as bs : List α} (h : as ++ bs = before ++ a :: after) :
    (∃ rest, as = before ++ a :: rest ∧ after = rest ++ bs) ∨
      ∃ front, before = as ++ front ∧ bs = front ++ a :: after := by
  rcases List.append_eq_append_iff.1 h with ⟨front, hbefore, hbs⟩ | ⟨_ | ⟨b, rest⟩, has, hrest⟩
  · exact .inr ⟨front, hbefore, hbs⟩
  · exact .inr ⟨[], by simpa using has.symm, hrest.symm⟩
  · obtain ⟨rfl, rfl⟩ := List.cons.inj hrest
    exact .inl ⟨rest, has, rfl⟩

/-- An item of a block is the first, one of the body, or the last. -/
theorem split_block {first last : α} {body : List α} (h : first :: body ++ [last] = before ++ a :: after) :
    (before = [] ∧ a = first ∧ after = body ++ [last]) ∨
      (∃ front rest, before = first :: front ∧ body = front ++ a :: rest ∧ after = rest ++ [last]) ∨
      (before = first :: body ∧ a = last ∧ after = []) := by
  rcases split_append h with ⟨rest, hfirst, rfl⟩ | ⟨front, rfl, hlast⟩
  · rcases List.cons_eq_append_iff.1 hfirst with ⟨rfl, hrest⟩ | ⟨front, rfl, hbody⟩
    · obtain ⟨rfl, rfl⟩ := List.cons.inj hrest
      exact .inl ⟨rfl, rfl, rfl⟩
    · exact .inr (.inl ⟨front, rest, rfl, hbody, rfl⟩)
  · rcases List.cons_eq_append_iff.1 hlast with ⟨rfl, hrest⟩ | ⟨_, -, hrest⟩
    · obtain ⟨rfl, rfl⟩ := List.cons.inj hrest
      exact .inr (.inr ⟨List.append_nil _, rfl, rfl⟩)
    · simp at hrest

end Splitting

/-! ### What nesting means -/

namespace Nested

variable {ss : List Step}

theorem balanced (h : Nested ss) : Balanced ss := by
  induction h with
  | nil => exact .nil
  | line text => exact .line text
  | blank => exact fun _ => rfl
  | append _ _ hs ht => exact hs.append ht
  | block hmatch _ hbody =>
    intro level
    rw [List.cons_append, levelAfter_cons, levelAfter_append, hbody, (hmatch.level level).1]
    exact (hmatch.level level).2

/-- Every step deeper is taken back. -/
theorem exists_last (h : Nested ss) : ∀ {before s after}, ss = before ++ s :: after →
    s.isDeeper = true → ∃ body last rest, after = body ++ last :: rest ∧ s.Matches last ∧
      Nested body := by
  induction h with
  | nil =>
    intro before s after heq
    simp at heq
  | line | blank =>
    intro before s after heq hs
    obtain ⟨-, h⟩ | ⟨_, -, h⟩ := List.cons_eq_append_iff.1 heq
    · obtain ⟨rfl, -⟩ := List.cons.inj h
      cases hs
    · simp at h
  | @append ss ts _ _ ihs iht =>
    intro before s after heq hs
    rcases split_append heq with ⟨rest, has, rfl⟩ | ⟨front, -, hts⟩
    · obtain ⟨body, last, rest, rfl, hlast, hbody⟩ := ihs has hs
      exact ⟨body, last, rest ++ ts, by simp, hlast, hbody⟩
    · exact iht hts hs
  | @block first last body hmatch hbody ih =>
    intro before s after heq hs
    rcases split_block heq with ⟨-, rfl, rfl⟩ | ⟨front, rest, -, hsplit, rfl⟩ | ⟨-, rfl, -⟩
    · exact ⟨body, last, [], rfl, hmatch, hbody⟩
    · obtain ⟨inner, last', rest, rfl, hlast, hinner⟩ := ih hsplit hs
      exact ⟨inner, last', rest ++ [last], by simp, hlast, hinner⟩
    · exact absurd hs (by simp [hmatch.isDeeper.2])

/-- Every step back takes a step deeper back. -/
theorem exists_first (h : Nested ss) : ∀ {before s after}, ss = before ++ s :: after →
    s.isBack = true → ∃ front first body, before = front ++ first :: body ∧ first.Matches s ∧
      Nested body := by
  induction h with
  | nil =>
    intro before s after heq
    simp at heq
  | line | blank =>
    intro before s after heq hs
    obtain ⟨-, h⟩ | ⟨_, -, h⟩ := List.cons_eq_append_iff.1 heq
    · obtain ⟨rfl, -⟩ := List.cons.inj h
      cases hs
    · simp at h
  | @append ss ts _ _ ihs iht =>
    intro before s after heq hs
    rcases split_append heq with ⟨rest, has, -⟩ | ⟨front, rfl, hts⟩
    · exact ihs has hs
    · obtain ⟨front, first, body, rfl, hfirst, hbody⟩ := iht hts hs
      exact ⟨ss ++ front, first, body, by simp, hfirst, hbody⟩
  | @block first last body hmatch hbody ih =>
    intro before s after heq hs
    rcases split_block heq with ⟨-, rfl, -⟩ | ⟨front, rest, rfl, hsplit, -⟩ | ⟨rfl, rfl, -⟩
    · exact absurd hs (by simp [hmatch.isBack.1])
    · obtain ⟨outer, first', inner, rfl, hfirst, hinner⟩ := ih hsplit hs
      exact ⟨first :: outer, first', inner, rfl, hfirst, hinner⟩
    · exact ⟨[], first, body, rfl, hmatch, hbody⟩

theorem flatMap {α : Type} {f : α → List Step} {as : List α} (h : ∀ a ∈ as, Nested (f a)) :
    Nested (as.flatMap f) := by
  induction as with
  | nil => exact nil
  | cons a as ih =>
    rw [List.flatMap_cons]
    exact (h a List.mem_cons_self).append (ih fun b hb => h b (List.mem_cons_of_mem _ hb))

/-- Steps that stay at their level nest. -/
theorem of_forall_level (h : ∀ s ∈ ss, s.isDeeper = false ∧ s.isBack = false) : Nested ss := by
  induction ss with
  | nil => exact nil
  | cons s ss ih =>
    have hs : Nested [s] := by
      cases s with
      | line text => exact line text
      | blank => exact blank
      | indent | opening => cases (h _ List.mem_cons_self).1
      | dedent | closing => cases (h _ List.mem_cons_self).2
    exact hs.append (ih fun t ht => h t (List.mem_cons_of_mem _ ht))

theorem braced (h : Nested ss) (trailer : String) : Nested (Layout.braced ss trailer) :=
  block (.brace trailer) h

end Nested

/-- What a reader of a layout relies on, from level 0 on. -/
structure WellNested (steps : List Step) : Prop where
  /-- A step back is taken above level 0 only. -/
  above : ∀ before s after, steps = before ++ s :: after → s.isBack = true → 0 < levelAfter 0 before
  /-- An opening brace is closed further on at its own level, and what stands between the braces
  nests. -/
  closed : ∀ before after, steps = before ++ .opening :: after → ∃ body trailer rest,
    after = body ++ .closing trailer :: rest ∧ Nested body ∧
      levelAfter 0 (before ++ .opening :: (body ++ [.closing trailer])) = levelAfter 0 before
  /-- The last level is 0. -/
  ends : levelAfter 0 steps = 0

theorem Nested.wellNested {steps : List Step} (h : Nested steps) : WellNested steps where
  above before s after heq hs := by
    obtain ⟨front, first, body, rfl, hmatch, hbody⟩ := h.exists_first heq hs
    rw [levelAfter_append, levelAfter_cons, hbody.balanced, (hmatch.level _).1]
    exact Nat.succ_pos _
  closed before after heq := by
    obtain ⟨body, last, rest, rfl, hmatch, hbody⟩ := h.exists_last heq rfl
    obtain ⟨trailer, rfl⟩ : ∃ trailer, last = .closing trailer := by
      cases hmatch with
      | brace trailer => exact ⟨trailer, rfl⟩
    have hblock : Balanced (.opening :: (body ++ [.closing trailer])) :=
      (hbody.braced trailer).balanced
    exact ⟨body, trailer, rest, rfl, hbody, by rw [levelAfter_append, hblock]⟩
  ends := h.balanced 0

end Layout

/-! ### Generated layouts -/

open Layout (Nested)

namespace Statement

theorem nested_caseSteps (c : DispatchCase) : Nested (caseSteps c) :=
  (Nested.line _).append (.block .plain (.line _))

theorem nested_layout (s : Statement) : Nested s.layout := by
  induction s with
  | loop depth bound body ih => exact (Nested.line _).append (ih.braced "")
  | dispatch selector cases otherwise =>
    have hcases : Nested (cases.flatMap caseSteps) := .flatMap fun c _ => nested_caseSteps c
    have hotherwise : Nested [.line "default:", .indent, .line ("return " ++ otherwise ++ ";"),
        .dedent] := (Nested.line _).append (.block .plain (.line _))
    exact (Nested.line _).append ((hcases.append hotherwise).braced "")
  | _ => exact .line _

end Statement

/-- A block under its head, and the blank line behind it. -/
theorem Layout.Nested.headed {body : List Layout.Step} (h : Nested body) (head trailer : String) :
    Nested (.line head :: Layout.braced body trailer ++ [.blank]) :=
  ((Nested.line head).append (h.braced trailer)).append .blank

namespace Item

theorem nested_layout (i : Item) : Nested i.layout := by
  cases i with
  | function f => exact (Nested.flatMap fun s _ => s.nested_layout).headed _ _
  | structType name fields =>
    refine Nested.headed (.of_forall_level fun s hs => ?_) _ _
    obtain ⟨f, -, rfl⟩ := List.mem_map.1 hs
    exact ⟨rfl, rfl⟩
  | enumType | clientStruct => exact (Nested.line _).headed _ _
  | aliasType => exact (Nested.line _).append .blank
  | blank => exact .blank
  | _ => exact .line _

theorem nested_layoutAll (items : List Item) : Nested (layoutAll items) :=
  .flatMap fun i _ => i.nested_layout

end Item

end WireStub
