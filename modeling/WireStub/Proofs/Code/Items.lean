import Mathlib.Data.List.Basic
import Mathlib.Data.List.Count
import WireStub.Proofs.Code.Lines

/-!
# Lines of items

`Item.lines` is what an item writes, and `Item.linesAll` what items write that follow each other.

* `Item.render_layoutAll`: the text of a file is that of the lines of its items;
* `Item.sublist_functions` and `Item.sublist_prototypes`: every function begins with the line of its
  signature, and every prototype is a line, in the order of the items;
* `Item.count_includeLine`: among the lines of a file, another file is included as often as by its items,
  if no line of free text looks like an include (`Item.Plain`).
-/

namespace WireStub

/-- The line that includes a file in quotes. -/
def includeLine (file : String) : Nat × String := (0, "#include \"" ++ file ++ "\"")

namespace Item

/-- The lines of an item, each with its level. -/
def lines : Item → List (Nat × String)
  | line text => [(0, text)]
  | blank => [(0, "")]
  | includeLocal file => [includeLine file]
  | includeSystem file => [(0, "#include <" ++ file ++ ">")]
  | prototype p => [(0, p.text)]
  | function f => f.lines
  | structType name fields =>
    [(0, "typedef struct"), (0, "\x7b")] ++
      fields.map (fun f => (1, f.declarator.text f.name ++ ";")) ++
        [(0, "\x7d " ++ name ++ ";"), (0, "")]
  | enumType name enumerators =>
    [(0, "typedef enum"), (0, "\x7b"), (1, String.intercalate ", " enumerators),
      (0, "\x7d " ++ name ++ ";"), (0, "")]
  | aliasType name declarator => [(0, "typedef " ++ declarator.text name ++ ";"), (0, "")]
  | clientStruct interface =>
    [(0, "struct " ++ interface ++ "_stub"), (0, "\x7b"), (1, "uint16_t instanceNum;"),
      (0, "\x7d;"), (0, "")]

/-- The lines of items that follow each other. -/
def linesAll (items : List Item) : List (Nat × String) := items.flatMap lines

theorem lines_structType (name : String) (fields : List Field) :
    Layout.lines 0 (structType name fields).layout = (structType name fields).lines := by
  have hline (f : Field) : Layout.Balanced [.line (f.declarator.text f.name ++ ";")] := .line _
  rw [layout, List.map_eq_flatMap, Layout.lines_block (.flatMap fun f _ => hline f),
    Layout.lines_flatMap fun f _ => hline f, lines, List.map_eq_flatMap]
  rfl

theorem lines_layout (i : Item) : Layout.lines 0 i.layout = i.lines := by
  cases i with
  | function f => exact f.lines_layout
  | structType name fields => exact lines_structType name fields
  | _ => rfl

theorem balanced_layout (i : Item) : Layout.Balanced i.layout := by
  have hblock {body : List Layout.Step} (h : Layout.Balanced body) (head trailer : String) :
      Layout.Balanced (.line head :: Layout.braced body trailer ++ [.blank]) :=
    ((Layout.Balanced.line head).append (h.braced trailer)).append fun _ => rfl
  cases i with
  | function f => exact hblock (.flatMap fun s _ => s.balanced_layout) _ _
  | structType name fields =>
    rw [layout, List.map_eq_flatMap]
    exact hblock (.flatMap fun f _ => .line _) _ _
  | enumType name enumerators => exact hblock (.line _) _ _
  | clientStruct interface => exact hblock (.line _) _ _
  | _ => exact fun _ => rfl

theorem lines_layoutAll (items : List Item) :
    Layout.lines 0 (layoutAll items) = linesAll items := by
  rw [layoutAll, linesAll, Layout.lines_flatMap fun i _ => i.balanced_layout]
  exact List.flatMap_congr fun i _ => i.lines_layout

/-- The text of a file is that of the lines of its items. -/
theorem render_layoutAll (unit : String) (items : List Item) :
    Layout.render unit (layoutAll items) = Layout.page unit (linesAll items) := by
  rw [Layout.render_eq_page, lines_layoutAll]

/-! ### Functions and prototypes -/

/-- What is taken of some items and stands among the lines of each of them stands among the lines of all,
in the same order. -/
theorem sublist_lines {α : Type} {g : Item → Option α} {written : α → Nat × String}
    (h : ∀ i a, g i = some a → written a ∈ i.lines) (items : List Item) :
    ((items.filterMap g).map written).Sublist (linesAll items) := by
  induction items with
  | nil => exact .slnil
  | cons i items ih =>
    rw [linesAll, List.flatMap_cons]
    cases hi : g i with
    | none =>
      rw [List.filterMap_cons_none hi]
      exact ih.trans (List.sublist_append_right _ _)
    | some a =>
      rw [List.filterMap_cons_some hi]
      exact (List.singleton_sublist.2 (h i a hi)).append ih

/-- Every function begins with the line of its signature. -/
theorem sublist_functions (items : List Item) :
    ((functions items).map fun f => (0, f.signature.text)).Sublist (linesAll items) := by
  refine sublist_lines (fun i f hf => ?_) items
  cases i with
  | function g =>
    cases hf
    exact List.mem_cons_self
  | _ => cases hf

/-- The lines of a function stand together. -/
theorem infix_lines_of_mem_functions {items : List Item} {f : Function} (h : f ∈ functions items) :
    f.lines <:+: linesAll items := by
  obtain ⟨i, hi, hf⟩ := List.mem_filterMap.1 h
  cases i with
  | function g =>
    cases hf
    exact List.infix_of_mem_flatten (List.mem_map_of_mem (f := lines) hi)
  | _ => cases hf

theorem sublist_prototypes (items : List Item) :
    ((prototypes items).map fun p => (0, p.text)).Sublist (linesAll items) := by
  refine sublist_lines (fun i p hp => ?_) items
  cases i with
  | prototype q =>
    cases hp
    exact List.mem_cons_self
  | _ => cases hp

/-! ### Includes -/

theorem includeLine_injective : Function.Injective includeLine := by
  intro a b h
  simpa [includeLine, String.append_assoc] using h

/-- The line of an include ends with a quote. -/
theorem ne_includeLine {l : Nat × String} (h : l.2.toList.getLast? ≠ some '"') (file : String) :
    includeLine file ≠ l := by
  rintro rfl
  rw [includeLine, String.toList_append] at h
  exact h List.getLast?_concat

theorem ne_includeLine_append (level : Nat) (text : String) {ending : String}
    (hne : ending.toList ≠ []) (h : ending.toList.getLast? ≠ some '"') (file : String) :
    includeLine file ≠ (level, text ++ ending) :=
  ne_includeLine (by rwa [String.toList_append, List.getLast?_append_of_ne_nil _ hne]) file

/-- It begins with `#in`. -/
theorem ne_includeLine_of_take {l : Nat × String} (h : l.2.toList.take 3 ≠ ['#', 'i', 'n'])
    (file : String) : includeLine file ≠ l := by
  rintro rfl
  rw [includeLine, String.toList_append, String.toList_append] at h
  exact h rfl

/-- It stands at level 0, so none of the lines in braces is one. -/
theorem includeLine_ne_of_pos {l : Nat × String} (h : 0 < l.1) (file : String) :
    includeLine file ≠ l := by
  rintro rfl
  exact Nat.lt_irrefl 0 h

/-- Only includes in quotes and lines of free text write the line of an include. -/
theorem includeLine_not_mem {i : Item} (hline : ∀ text, i ≠ line text)
    (hinclude : ∀ file, i ≠ includeLocal file) (file : String) : includeLine file ∉ i.lines := by
  cases i with
  | line text => exact absurd rfl (hline text)
  | includeLocal f => exact absurd rfl (hinclude f)
  | blank => exact fun h => ne_includeLine (by decide) file (List.mem_singleton.1 h)
  | includeSystem f =>
    exact fun h =>
      ne_includeLine_append 0 _ (by decide) (by decide) file (List.mem_singleton.1 h)
  | prototype p =>
    exact fun h =>
      ne_includeLine_append 0 _ (by decide) (by decide) file (List.mem_singleton.1 h)
  | function f =>
    simp only [lines, Function.lines, List.mem_cons, List.mem_append, List.mem_flatMap,
      List.not_mem_nil, or_false, not_or, not_exists, not_and]
    exact ⟨ne_includeLine_append 0 _ (by decide) (by decide) file,
      ne_includeLine (by decide) file,
      fun s _ hs => includeLine_ne_of_pos (s.le_level _ hs) file rfl,
      ne_includeLine (by decide) file, ne_includeLine (by decide) file⟩
  | structType name fields =>
    simp only [lines, List.mem_cons, List.mem_append, List.mem_map, List.not_mem_nil, or_false,
      not_or, not_exists, not_and]
    exact ⟨⟨⟨ne_includeLine (by decide) file, ne_includeLine (by decide) file⟩,
      fun f _ => (includeLine_ne_of_pos Nat.one_pos file).symm⟩,
      ne_includeLine_append 0 _ (by decide) (by decide) file, ne_includeLine (by decide) file⟩
  | enumType name enumerators =>
    simp only [lines, List.mem_cons, List.not_mem_nil, or_false, not_or]
    exact ⟨ne_includeLine (by decide) file, ne_includeLine (by decide) file,
      includeLine_ne_of_pos Nat.one_pos file,
      ne_includeLine_append 0 _ (by decide) (by decide) file, ne_includeLine (by decide) file⟩
  | aliasType name d =>
    simp only [lines, List.mem_cons, List.not_mem_nil, or_false, not_or]
    exact ⟨ne_includeLine_append 0 _ (by decide) (by decide) file,
      ne_includeLine (by decide) file⟩
  | clientStruct interface =>
    simp only [lines, List.mem_cons, List.not_mem_nil, or_false, not_or]
    exact ⟨ne_includeLine_append 0 _ (by decide) (by decide) file,
      ne_includeLine (by decide) file, includeLine_ne_of_pos Nat.one_pos file,
      ne_includeLine (by decide) file, ne_includeLine (by decide) file⟩

/-- No line of free text among the items looks like an include in quotes. -/
def Plain (items : List Item) : Prop :=
  ∀ text, line text ∈ items → ∀ file, includeLine file ≠ (0, text)

namespace Plain

variable {is js : List Item}

theorem append (hi : Plain is) (hj : Plain js) : Plain (is ++ js) := fun text h =>
  (List.mem_append.1 h).elim (hi text) (hj text)

theorem singleton {text : String} (h : ∀ file, includeLine file ≠ (0, text)) :
    Plain [line text] := by
  intro other hmem
  obtain rfl := Item.line.inj (List.mem_singleton.1 hmem)
  exact h

/-- Items of other kinds are no lines of free text. -/
theorem of_forall_ne (h : ∀ i ∈ is, ∀ text, i ≠ line text) : Plain is := fun text hmem =>
  absurd rfl (h _ hmem text)

theorem map {α : Type} {f : α → Item} (h : ∀ a text, f a ≠ line text) (as : List α) :
    Plain (as.map f) := by
  refine of_forall_ne fun i hi => ?_
  obtain ⟨a, -, rfl⟩ := List.mem_map.1 hi
  exact h a

theorem blank : Plain [Item.blank] := of_forall_ne (by simp)

end Plain

/-- A file is included by as many lines as items. -/
theorem count_includeLine {items : List Item} (h : Plain items) (file : String) :
    (linesAll items).count (includeLine file) = (includes items).count file := by
  induction items with
  | nil => rfl
  | cons i items ih =>
    have hrest := ih fun text htext => h text (List.mem_cons_of_mem i htext)
    have hone : i.lines.count (includeLine file) = (includes [i]).count file := by
      cases i with
      | line text =>
        exact List.count_eq_zero.2 fun hmem =>
          h text List.mem_cons_self file (List.mem_singleton.1 hmem)
      | includeLocal f => exact List.count_map_of_injective [f] _ includeLine_injective file
      | _ => exact List.count_eq_zero.2 (includeLine_not_mem (by simp) (by simp) file)
    have hcons : includes (i :: items) = includes [i] ++ includes items :=
      List.filterMap_append (l := [i])
    rw [linesAll, List.flatMap_cons, List.count_append, ← linesAll, hrest, hone, hcons,
      List.count_append]

end Item

end WireStub
