import WireStub.Options
import WireStub.Proofs.Code.Lines

/-!
# Margins

The indentation of a layout is a margin of spaces in front of each line.  What is left of the lines
without their leading spaces does not depend on how wide a level is.

* `Layout.bareLines` are the lines of a text without the spaces that they begin with, and
  `Layout.bareLines_append` goes over a text line by line;
* `Layout.bareLines_lineAt`: a margin adds nothing to them;
* `Layout.bareLines_render`: a layout has the same bare lines under all options.
-/

namespace WireStub

namespace Layout

/-- The lines of a text without the spaces that they begin with. -/
def bareLines (cs : List Char) : List (List Char) :=
  (cs.splitOn '\n').map (·.dropWhile (· == ' '))

/-- A line break ends a line. -/
theorem bareLines_append (xs ys : List Char) :
    bareLines (xs ++ '\n' :: ys) = bareLines xs ++ bareLines ys := by
  simp only [bareLines, List.splitOn_eq_splitOnP]
  rw [List.splitOnP_append_cons _ _ (by decide), List.map_append]

/-- Spaces in front of a text are spaces in front of its first line. -/
theorem bareLines_space_append {xs : List Char} (h : ∀ c ∈ xs, c = ' ') (ys : List Char) :
    bareLines (xs ++ ys) = bareLines ys := by
  induction xs with
  | nil => rfl
  | cons c xs ih =>
    obtain ⟨rfl, hxs⟩ := List.forall_mem_cons.1 h
    rw [← ih hxs]
    simp only [bareLines, List.splitOn_eq_splitOnP, List.cons_append]
    rw [List.splitOnP_cons_eq_if_modifyHead, if_neg (by decide)]
    cases List.splitOnP (· == '\n') (xs ++ ys) with
    | nil => rfl
    | cons line lines => simp

/-- A margin of levels that are spaces is made of spaces. -/
theorem eq_space_of_mem_margin {unit : String} (h : ∀ c ∈ unit.toList, c = ' ') (level : Nat) :
    ∀ c ∈ (margin unit level).toList, c = ' ' := by
  intro c hc
  rw [margin, String.toList_join, List.mem_flatMap] at hc
  obtain ⟨s, hs, hc⟩ := hc
  obtain rfl := (List.mem_replicate.1 hs).2
  exact h c hc

theorem bareLines_lineAt {unit : String} (h : ∀ c ∈ unit.toList, c = ' ') (level : Nat)
    (text : String) (ys : List Char) :
    bareLines ((lineAt unit level text).toList ++ ys) = bareLines text.toList ++ bareLines ys := by
  rw [← bareLines_append]
  unfold lineAt
  split
  · rename_i hempty
    simp [String.isEmpty_iff.1 hempty]
  · have hline : (margin unit level ++ text ++ "\n").toList ++ ys =
        (margin unit level).toList ++ (text.toList ++ '\n' :: ys) := by simp
    rw [hline, bareLines_space_append (eq_space_of_mem_margin h level)]

/-- The bare lines of a layout are those of its lines, and nothing behind the last line break. -/
theorem bareLines_renderFrom {unit : String} (h : ∀ c ∈ unit.toList, c = ' ') (level : Nat)
    (steps : List Step) :
    bareLines (renderFrom unit level steps).toList =
      (lines level steps).flatMap (fun l => bareLines l.2.toList) ++ bareLines [] := by
  rw [renderFrom_eq_lines]
  generalize lines level steps = ls
  induction ls with
  | nil => rfl
  | cons l ls ih =>
    rw [List.map_cons, String.join_cons, String.toList_append, bareLines_lineAt h, ih,
      List.flatMap_cons, List.append_assoc]

theorem eq_space_of_mem_indentText (o : Options) : ∀ c ∈ o.indentText.toList, c = ' ' := by
  intro c hc
  rw [Options.indentText, String.toList_ofList] at hc
  exact (List.mem_replicate.1 hc).2

/-- Under all options a layout has the same bare lines. -/
theorem bareLines_render (o o' : Options) (steps : List Step) :
    bareLines (render o.indentText steps).toList = bareLines (render o'.indentText steps).toList := by
  rw [render, render, bareLines_renderFrom (eq_space_of_mem_indentText o),
    bareLines_renderFrom (eq_space_of_mem_indentText o')]

end Layout

end WireStub
