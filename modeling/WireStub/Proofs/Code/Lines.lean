import WireStub.Code.Item

/-!
# Lines of a layout

`Layout.lines` is what a layout writes, line by line, each with its indentation level.

* `Layout.page` is the text of lines, and `Layout.render_eq_page`: the rendered text is that of the lines
  of the layout;
* `Statement.balanced_layout`: a statement ends at the level at which it starts, and
  `Statement.le_level` that none of its lines stands further out;
* `Function.lines` are the lines of a function.
-/

namespace WireStub

namespace Layout

/-- The lines that a step writes at a level, each with its own level. -/
def Step.lines (level : Nat) : Step → List (Nat × String)
  | .line text => [(level, text)]
  | .blank => [(level, "")]
  | .indent | .dedent => []
  | .opening => [(level, "\x7b")]
  | .closing trailer => [(level - 1, "\x7d" ++ trailer)]

/-- The lines that steps write from a level on, each with its level. -/
def lines : Nat → List Step → List (Nat × String)
  | _, [] => []
  | level, s :: ss => s.lines level ++ lines (s.level level) ss

theorem lines_append (level : Nat) (ss ts : List Step) :
    lines level (ss ++ ts) = lines level ss ++ lines (levelAfter level ss) ts := by
  induction ss generalizing level with
  | nil => rfl
  | cons s ss ih =>
    rw [List.cons_append, lines, lines, ih, List.append_assoc]
    rfl

theorem Step.text_eq_lines (unit : String) (level : Nat) (s : Step) :
    s.text unit level = String.join ((s.lines level).map fun l => lineAt unit l.1 l.2) := by
  cases s <;> simp [Step.text, Step.lines, lineAt]

/-- The text of a layout is its lines, each indented by its level. -/
theorem renderFrom_eq_lines (unit : String) (level : Nat) (ss : List Step) :
    renderFrom unit level ss =
      String.join ((lines level ss).map fun l => lineAt unit l.1 l.2) := by
  induction ss generalizing level with
  | nil => rfl
  | cons s ss ih =>
    have hrest : String.join (texts unit (s.level level) ss) =
        String.join ((lines (s.level level) ss).map fun l => lineAt unit l.1 l.2) := ih _
    rw [renderFrom, texts, lines, List.map_append, String.join_append, String.join_cons,
      Step.text_eq_lines, hrest]

/-- The text of lines: each of them behind the indentation of its level, and ended by a line break.  An
empty line is not indented. -/
def page (unit : String) (ls : List (Nat × String)) : String :=
  String.join (ls.map fun (level, text) =>
    (if text = "" then "" else String.join (List.replicate level unit) ++ text) ++ "\n")

theorem render_eq_page (unit : String) (ss : List Step) :
    render unit ss = page unit (lines 0 ss) := by
  rw [render, renderFrom_eq_lines, page]
  refine congrArg String.join (List.map_congr_left fun l _ => ?_)
  by_cases h : l.2 = "" <;> simp [lineAt, margin, h]

theorem levelAfter_cons (level : Nat) (s : Step) (ss : List Step) :
    levelAfter level (s :: ss) = levelAfter (s.level level) ss := rfl

/-- Steps that end at the level at which they start. -/
def Balanced (ss : List Step) : Prop := ∀ level, levelAfter level ss = level

namespace Balanced

theorem nil : Balanced [] := fun _ => rfl

theorem line (text : String) : Balanced [.line text] := fun _ => rfl

theorem append {ss ts : List Step} (hs : Balanced ss) (ht : Balanced ts) : Balanced (ss ++ ts) := by
  intro level
  rw [levelAfter_append, hs, ht]

theorem flatMap {α : Type} {f : α → List Step} {as : List α} (h : ∀ a ∈ as, Balanced (f a)) :
    Balanced (as.flatMap f) := by
  induction as with
  | nil => exact nil
  | cons a as ih =>
    rw [List.flatMap_cons]
    exact (h a List.mem_cons_self).append (ih fun b hb => h b (List.mem_cons_of_mem _ hb))

theorem braced {body : List Step} (h : Balanced body) (trailer : String) :
    Balanced (Layout.braced body trailer) := by
  intro level
  rw [Layout.braced, List.cons_append, levelAfter_cons, levelAfter_append, h]
  rfl

end Balanced

theorem lines_braced {body : List Step} (h : Balanced body) (trailer : String) (level : Nat) :
    lines level (braced body trailer) =
      (level, "\x7b") :: (lines (level + 1) body ++ [(level, "\x7d" ++ trailer)]) := by
  rw [braced, List.cons_append, lines, lines_append]
  change (level, "\x7b") :: (lines (level + 1) body ++
    lines (levelAfter (level + 1) body) [.closing trailer]) = _
  rw [h]
  rfl

theorem lines_flatMap {α : Type} {f : α → List Step} {as : List α} (h : ∀ a ∈ as, Balanced (f a))
    (level : Nat) : lines level (as.flatMap f) = as.flatMap fun a => lines level (f a) := by
  induction as with
  | nil => rfl
  | cons a as ih =>
    rw [List.flatMap_cons, List.flatMap_cons, lines_append, h a List.mem_cons_self,
      ih fun b hb => h b (List.mem_cons_of_mem _ hb)]

/-- The lines of a block: its head, and its body in braces. -/
theorem lines_block {body : List Step} (h : Balanced body) (head trailer : String) :
    lines 0 (.line head :: braced body trailer ++ [.blank]) =
      (0, head) :: (0, "\x7b") :: (lines 1 body ++ [(0, "\x7d" ++ trailer), (0, "")]) := by
  rw [List.cons_append, lines, lines_append, show (Step.line head).level 0 = 0 from rfl,
    lines_braced h, h.braced]
  simp [lines, Step.lines]

end Layout

open Layout (Balanced)

namespace Statement

theorem balanced_caseSteps (c : DispatchCase) : Balanced (caseSteps c) := fun _ => rfl

theorem balanced_layout (s : Statement) : Balanced s.layout := by
  induction s with
  | loop depth bound body ih => exact (Balanced.line _).append (ih.braced "")
  | dispatch selector cases otherwise =>
    refine (Balanced.line _).append (Balanced.braced ?_ "")
    exact (Balanced.flatMap fun c _ => balanced_caseSteps c).append fun _ => rfl
  | _ => exact Balanced.line _

theorem lines_loop (depth : Nat) (bound : UInt32) (body : Statement) (level : Nat) :
    Layout.lines level (loop depth bound body).layout =
      (level, loopHead depth bound) :: (level, "\x7b") ::
        (Layout.lines (level + 1) body.layout ++ [(level, "\x7d")]) := by
  change (level, loopHead depth bound) ::
    Layout.lines level (Layout.braced body.layout "") = _
  rw [Layout.lines_braced body.balanced_layout]
  rfl

/-- The lines of a case. -/
def caseLines (level : Nat) (c : DispatchCase) : List (Nat × String) :=
  [(level, "case " ++ c.code ++ ":"), (level + 1, "return " ++ c.handler ++ "(request, response);")]

/-- The lines of a switch. -/
def switchLines (level : Nat) (selector : String) (cases : List DispatchCase) (otherwise : String) :
    List (Nat × String) :=
  (level, "switch (" ++ selector ++ ")") :: (level, "\x7b") ::
    (cases.flatMap (caseLines (level + 1)) ++
      [(level + 1, "default:"), (level + 2, "return " ++ otherwise ++ ";"), (level, "\x7d")])

theorem lines_dispatch (selector : String) (cases : List DispatchCase) (otherwise : String)
    (level : Nat) :
    Layout.lines level (dispatch selector cases otherwise).layout =
      switchLines level selector cases otherwise := by
  have hcases : Balanced (cases.flatMap caseSteps) :=
    Balanced.flatMap fun c _ => balanced_caseSteps c
  have hend : Balanced [.line "default:", .indent, .line ("return " ++ otherwise ++ ";"), .dedent] :=
    fun _ => rfl
  rw [layout, Layout.lines, Layout.lines_braced (hcases.append hend), Layout.lines_append,
    Layout.lines_flatMap fun c _ => balanced_caseSteps c, hcases, switchLines]
  simp only [Layout.Step.level, Layout.lines, Layout.Step.lines, List.nil_append, List.append_nil,
    List.append_assoc, List.cons_append]
  rfl

/-- A statement without a block is one line. -/
def IsLine (s : Statement) : Prop := ∃ text, ∀ level, Layout.lines level s.layout = [(level, text)]

/-- No line of a statement stands further out than the statement. -/
theorem le_level (s : Statement) {level : Nat} : ∀ l ∈ Layout.lines level s.layout, level ≤ l.1 := by
  induction s generalizing level with
  | loop depth bound body ih =>
    intro l hl
    rw [lines_loop] at hl
    simp only [List.mem_cons, List.mem_append, List.not_mem_nil, or_false] at hl
    rcases hl with rfl | rfl | hl | rfl
    · exact Nat.le_refl _
    · exact Nat.le_refl _
    · exact Nat.le_of_succ_le (ih l hl)
    · exact Nat.le_refl _
  | dispatch selector cases otherwise =>
    intro l hl
    rw [lines_dispatch, switchLines] at hl
    simp only [caseLines, List.mem_cons, List.mem_append, List.mem_flatMap, List.not_mem_nil,
      or_false] at hl
    rcases hl with rfl | rfl | ⟨c, -, rfl | rfl⟩ | rfl | rfl | rfl <;> simp <;> omega
  | _ => simp [layout, Layout.lines, Layout.Step.lines]

end Statement

/-- The lines of a function, each with its level: its signature, its statements in braces, and an empty
line. -/
def Function.lines (f : Function) : List (Nat × String) :=
  (0, f.signature.text) :: (0, "\x7b") ::
    (f.body.flatMap (fun s => Layout.lines 1 s.layout) ++ [(0, "\x7d"), (0, "")])

theorem Function.lines_layout (f : Function) : Layout.lines 0 f.layout = f.lines := by
  have hbody : Balanced (f.body.flatMap Statement.layout) :=
    Balanced.flatMap fun s _ => s.balanced_layout
  rw [Function.layout, Layout.lines_block hbody, Layout.lines_flatMap fun s _ => s.balanced_layout]
  rfl

end WireStub
