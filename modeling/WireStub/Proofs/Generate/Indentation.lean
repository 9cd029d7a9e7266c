import WireStub.Generate.CUnit
import WireStub.Proofs.Code.Margins
import WireStub.Proofs.Code.Nesting
import WireStub.Proofs.Except

/-!
# Indentation of units

How wide a level of indentation is, is an option of its own.  The items of a unit do not depend on it,
and their layout nests, so it decides on leading spaces and on nothing else.

* `CUnit.items_indent`: the items of a unit under any width;
* `GeneratedFile.bare` is what a file says without its margins;
* `Module.indentation_is_margin` is the main statement.
-/

namespace WireStub

/-- The items of a unit are the same under any width of indentation. -/
theorem CUnit.items_indent (u : CUnit) (o : Options) (m : Module) (n : Nat) :
    u.items { o with indent := n } m = u.items o m := rfl

/-- The name of a file, and its lines without the spaces that they begin with. -/
def GeneratedFile.bare (f : GeneratedFile) : String × List (List Char) :=
  (f.name, Layout.bareLines f.contents.toList)

theorem CUnit.bare_render (u : CUnit) (o : Options) (m : Module) (n : Nat) :
    (do .ok ⟨u.fileName m.name, ← u.render { o with indent := n } m⟩ :
        Except RenderError GeneratedFile).map (·.bare) =
      (do .ok ⟨u.fileName m.name, ← u.render o m⟩ :
        Except RenderError GeneratedFile).map (·.bare) := by
  rw [render, render, items_indent]
  cases u.items o m with
  | error e => rfl
  | ok items =>
    exact congrArg (fun ls => Except.ok (u.fileName m.name, ls))
      (Layout.bareLines_render { o with indent := n } o (Item.layoutAll items))

/-- **Indentation is balanced and carries no content.**  Options that differ in the width of a level only
give the same fault, or files with the same names and, line by line, the same text behind the leading
spaces.  The layout of every unit that is rendered nests: no step back is taken at level 0, every opening
brace is closed further on at the level at which it was opened, and the unit ends at level 0. -/
theorem Module.indentation_is_margin (o : Options) (m : Module) :
    (∀ n, (m.render { o with indent := n }).map (·.map (·.bare)) =
        (m.render o).map (·.map (·.bare))) ∧
      ∀ (u : CUnit) (text : String), u.render o m = .ok text → ∃ items,
        u.items o m = .ok items ∧ text = Layout.render o.indentText (Item.layoutAll items) ∧
          Layout.WellNested (Item.layoutAll items) := by
  constructor
  · intro n
    rw [Module.render, Module.render, map_mapM, map_mapM]
    exact congrArg CUnit.all.mapM (funext fun u => u.bare_render o m n)
  · intro u text h
    obtain ⟨items, hitems, htext⟩ := bind_eq_ok.1 h
    exact ⟨items, hitems, (Except.ok.inj htext).symm, (Item.nested_layoutAll items).wellNested⟩

/-- A table of two rows of three shades. -/
def mosaic : Module :=
  ⟨"Mosaic", [.struct ⟨"Tile", ⟨["Mosaic", "Tile"]⟩, [⟨"shade", .primitive .octet, [2, 3]⟩]⟩], []⟩

/-- Each codec of the table opens three braces: its own and one for each loop. -/
theorem Module.indentation_is_margin_mosaic :
    ∃ text items, CUnit.codecSource.render {} mosaic = .ok text ∧
      CUnit.codecSource.items {} mosaic = .ok items ∧ (Item.layoutAll items).count .opening = 6 ∧
      Layout.WellNested (Item.layoutAll items) ∧
      (mosaic.render { indent := 4 }).map (·.map (·.bare)) =
        (mosaic.render {}).map (·.map (·.bare)) := by
  have htext : CUnit.codecSource.render {} mosaic = .ok _ := rfl
  obtain ⟨hmargin, hnested⟩ := indentation_is_margin {} mosaic
  obtain ⟨items, hitems, -, hwell⟩ := hnested .codecSource _ htext
  obtain rfl := Except.ok.inj ((rfl : CUnit.codecSource.items {} mosaic = .ok _).symm.trans hitems)
  exact ⟨_, _, htext, hitems, by decide, hwell, hmargin 4⟩

end WireStub
