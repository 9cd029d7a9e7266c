import WireStub.Proofs.Generate.CNames
import WireStub.Proofs.Generate.FileNames
import WireStub.Proofs.Generate.Units
import WireStub.Proofs.Linking.Imports

/-!
# Includes

A unit includes the configured files if it is a header, then units of its own module, then units of the
imported modules.  Its content includes nothing.

* `CUnit.isContent_content`: the content of a unit includes nothing, and its lines of free text are comments;
* `CUnit.includes_items` lists the files that a unit includes;
* `CUnit.plain_items`: no other line of a unit looks like an include, so these files are included by as
  many lines (`Item.count_includeLine`);
* `CUnit.type_header_not_mem_siblings`: no source includes a unit of its own module under the name of an
  imported one;
* `imported_units_are_included` is the main statement.
-/

namespace WireStub

namespace Item

@[simp] theorem includes_append (is js : List Item) :
    includes (is ++ js) = includes is ++ includes js := List.filterMap_append

@[simp] theorem includes_map_includeLocal (files : List String) :
    includes (files.map .includeLocal) = files := by
  rw [includes, List.filterMap_map]
  exact List.filterMap_some

/-- Items of another kind include nothing. -/
theorem includes_eq_nil {items : List Item} (h : ∀ i ∈ items, ∀ file, i ≠ .includeLocal file) :
    includes items = [] := by
  refine List.filterMap_eq_nil_iff.2 fun i hi => ?_
  cases hfile : i with
  | includeLocal file => exact absurd hfile (h i hi file)
  | _ => rfl

/-- An item of the content of a unit includes nothing, and if it is a line of free text, this is a
comment. -/
structure IsContent (i : Item) : Prop where
  not_include : ∀ file, i ≠ .includeLocal file
  comment : ∀ text, i = .line text → ∃ name, text = "/* " ++ name ++ " */"

theorem Plain.of_isContent {items : List Item} (h : ∀ i ∈ items, IsContent i) : Plain items := by
  intro text htext
  obtain ⟨name, rfl⟩ := (h _ htext).comment text rfl
  exact ne_includeLine_append 0 _ (by decide) (by decide)

end Item

namespace CUnit

open Item (IsContent)

variable {o : Options} {m : Module} {u : CUnit}

/-- The prototypes of endpoints stand under comments. -/
theorem isContent_prototypes {f : Endpoint → Except RenderError Prototype} {items : List Item}
    (h : prototypes m f = .ok items) : ∀ i ∈ items, IsContent i := by
  obtain ⟨groups, hgroups, h⟩ := bind_eq_ok.1 h
  rw [← Except.ok.inj h]
  intro i hi
  obtain ⟨group, hgroup, hi⟩ := List.mem_flatten.1 hi
  obtain ⟨interface, -, hinterface⟩ := exists_left_of_mapM hgroups hgroup
  obtain ⟨ps, -, hinterface⟩ := bind_eq_ok.1 hinterface
  rw [← Except.ok.inj hinterface, List.mem_append, List.mem_append, List.mem_singleton,
    List.mem_map, List.mem_singleton] at hi
  rcases hi with (rfl | ⟨p, -, rfl⟩) | rfl
  · exact ⟨by simp, fun text htext => ⟨interface.name, (Item.line.inj htext).symm⟩⟩
  · exact ⟨by simp, by simp⟩
  · exact ⟨by simp, by simp⟩

theorem isContent_types {types : List Item} (h : m.declarations.mapM (·.item) = .ok types) :
    ∀ i ∈ types, IsContent i := by
  intro i hi
  obtain ⟨d, -, hd⟩ := exists_left_of_mapM h hi
  have hname := Definition.typeName?_of_item hd
  constructor <;> rintro text rfl <;> cases hname

/-- The items that stand in the frame of a unit. -/
theorem isContent_content {content : List Item} (h : u.content o m = .ok content) :
    ∀ i ∈ content, IsContent i := by
  have hmap {α : Type} {f : α → Item} (hf : ∀ a, IsContent (f a)) (as : List α) :
      ∀ i ∈ as.map f, IsContent i := by
    intro i hi
    obtain ⟨a, -, rfl⟩ := List.mem_map.1 hi
    exact hf a
  have hprototypes (ps : List Prototype) : ∀ i ∈ ps.map Item.prototype, IsContent i :=
    hmap (fun _ => ⟨by simp, by simp⟩) ps
  have hfunctions (fs : List Function) : ∀ i ∈ fs.map Item.function, IsContent i :=
    hmap (fun _ => ⟨by simp, by simp⟩) fs
  have hblank : IsContent .blank := ⟨by simp, by simp⟩
  cases u with
  | declarations =>
    obtain ⟨types, htypes, h⟩ := bind_eq_ok.1 h
    obtain ⟨ps, hps, h⟩ := bind_eq_ok.1 h
    rw [← Except.ok.inj h, List.forall_mem_append]
    exact ⟨isContent_types htypes, isContent_prototypes hps⟩
  | dispatchHeader =>
    rw [← Except.ok.inj h, List.forall_mem_cons, List.forall_mem_singleton]
    exact ⟨⟨by simp, by simp⟩, hblank⟩
  | dispatchSource =>
    obtain ⟨table, -, h⟩ := bind_eq_ok.1 h
    obtain ⟨ps, hps, h⟩ := bind_eq_ok.1 h
    obtain ⟨hs, -, h⟩ := bind_eq_ok.1 h
    rw [← Except.ok.inj h, List.forall_mem_append, List.forall_mem_append, List.forall_mem_cons,
      List.forall_mem_cons, List.forall_mem_singleton]
    exact ⟨⟨⟨⟨by simp, by simp⟩, ⟨by simp, by simp⟩, hblank⟩, isContent_prototypes hps⟩,
      hfunctions _⟩
  | stubHeader =>
    obtain ⟨ps, hps, h⟩ := bind_eq_ok.1 h
    rw [← Except.ok.inj h, List.forall_mem_append]
    exact ⟨hmap (fun _ => ⟨by simp, by simp⟩) m.interfaces, isContent_prototypes hps⟩
  | stubSource =>
    obtain ⟨fs, -, h⟩ := bind_eq_ok.1 h
    rw [← Except.ok.inj h]
    exact hfunctions fs
  | codecHeader =>
    obtain ⟨ps, -, h⟩ := bind_eq_ok.1 h
    rw [← Except.ok.inj h, List.forall_mem_append, List.forall_mem_singleton]
    exact ⟨hprototypes ps.flatten, hblank⟩
  | codecSource =>
    obtain ⟨fs, -, h⟩ := bind_eq_ok.1 h
    rw [← Except.ok.inj h]
    exact hfunctions fs.flatten

theorem includes_unitIncludes (u : CUnit) (m : Module) :
    Item.includes (u.unitIncludes m) = u.siblings.map (·.fileName m.name) ++ u.importedFiles m := by
  have hsiblings : (u.siblings.map fun v => Item.includeLocal (v.fileName m.name)) =
      (u.siblings.map (·.fileName m.name)).map .includeLocal := by simp
  rw [unitIncludes, hsiblings, Item.includes_append, Item.includes_map_includeLocal,
    Item.includes_map_includeLocal]

/-- The files that a unit includes, in their order. -/
theorem includes_items {items : List Item} (h : u.items o m = .ok items) :
    Item.includes items = (if u.isHeader then o.localIncludes else []) ++
      u.siblings.map (·.fileName m.name) ++ u.importedFiles m := by
  obtain ⟨content, hcontent, h⟩ := bind_eq_ok.1 h
  have hown : Item.includes content = [] :=
    Item.includes_eq_nil fun i hi => (isContent_content hcontent i hi).not_include
  have hsystem : Item.includes (o.systemIncludes.map .includeSystem) = [] :=
    Item.filterMap_map_eq_nil (fun _ => rfl) o.systemIncludes
  have hbanner : Item.includes banner = [] := rfl
  have hblank : Item.includes [.blank] = [] := rfl
  have hguard (a b : String) : Item.includes [.line a, .line b, .blank] = [] := rfl
  have hend (a : String) : Item.includes [.line a] = [] := rfl
  rw [← Except.ok.inj h, frame]
  split <;>
    simp only [Item.includes_append, Item.includes_map_includeLocal, hown,
      includes_unitIncludes, hsystem, hbanner, hblank, hguard, hend, List.append_nil,
      List.nil_append, List.append_assoc]

/-! ### Lines -/

theorem plain_banner : Item.Plain banner := by
  intro text h
  simp only [banner, List.mem_cons, List.not_mem_nil, or_false, Item.line.injEq] at h
  rcases h with rfl | rfl | rfl | rfl <;> exact Item.ne_includeLine (by decide)

theorem plain_guard (text : String) :
    Item.Plain [.line ("#ifndef " ++ text), .line ("#define " ++ text), .blank] ∧
      Item.Plain [.line ("#endif // " ++ text)] := by
  have hline {word : String} (h : (word ++ text).toList.take 3 ≠ ['#', 'i', 'n']) :
      Item.Plain [.line (word ++ text)] :=
    .singleton (Item.ne_includeLine_of_take h)
  exact ⟨(hline (by simp)).append ((hline (by simp)).append .blank), hline (by simp)⟩

/-- No line of free text in a unit looks like an include. -/
theorem plain_items {items : List Item} (h : u.items o m = .ok items) : Item.Plain items := by
  obtain ⟨content, hcontent, h⟩ := bind_eq_ok.1 h
  have hcontent := Item.Plain.of_isContent (isContent_content hcontent)
  have hown : Item.Plain (u.unitIncludes m) :=
    (Item.Plain.map (by simp) u.siblings).append (.map (by simp) (u.importedFiles m))
  obtain ⟨hopening, hclosing⟩ := plain_guard (u.guard m.name)
  rw [← Except.ok.inj h, frame]
  split
  · exact ((((((plain_banner.append hopening).append (.map (by simp) _)).append
      (.map (by simp) _)).append hown).append .blank).append hcontent).append hclosing
  · exact (((plain_banner.append .blank).append hown).append .blank).append hcontent

/-! ### Imported files -/

theorem importedFiles_declarations (m : Module) :
    declarations.importedFiles m = m.importedNames.map (· ++ ".h") :=
  List.map_congr_left fun n _ => by simp [fileName, isHeader]

theorem fileName_codecHeader (n : String) : codecHeader.fileName n = n ++ "_type.h" := by
  rw [fileName, String.append_assoc]
  rfl

/-- The units with codec calls include the units with the prototypes of the codecs. -/
theorem importedFiles_codecs (m : Module) :
    ∀ u ∈ [codecHeader, dispatchSource, stubSource],
      u.importedFiles m = m.importedNames.map (· ++ "_type.h") := by
  simp [importedFiles, importedUnit?, fileName_codecHeader]

/-- The files of imported modules are different, as the modules are. -/
theorem nodup_importedFiles (u : CUnit) {m : Module} (h : m.importedNames.Nodup) :
    (u.importedFiles m).Nodup := by
  unfold importedFiles
  split
  · rename_i v _
    refine h.map fun a b hab => ?_
    exact (String.append_left_inj v.ending).1 (fileName_eq_iff.1 hab).1
  · exact List.nodup_nil

/-- The sources with codec calls include no unit of their own module under the name of an imported one. -/
theorem type_header_not_mem_siblings {n name : String} (hne : n ≠ name) :
    ∀ c ∈ [dispatchSource, stubSource], n ++ "_type.h" ∉ c.siblings.map (·.fileName name) := by
  intro c hc hmem
  obtain ⟨v, hv, hsame⟩ := List.mem_map.1 hmem
  have hending : v.ending.toList ≠ [] := by
    revert hv
    simp only [List.mem_cons, List.not_mem_nil, or_false] at hc
    rcases hc with rfl | rfl <;> cases v <;> decide
  rw [← fileName_codecHeader, fileName_eq_iff] at hsame
  -- the endings of units are told apart by their last letters
  have htype : v.ending = codecHeader.ending := by
    refine ending_eq_of_getLast?_eq hending (by decide) ?_
    rw [← getLast?_append hending, hsame.1, getLast?_append (by decide)]
  rw [htype] at hsame
  exact hne ((String.append_left_inj _).1 hsame.1).symm

end CUnit

/-- **Imports.**  In modules that link, a module imports the modules that its types lead to at any depth,
other than itself, once and in the order of their first use.  All of them stand before it, so with
different names no module imports itself through others.  The files of a module that is generated
include what is configured, then units of the module, then one unit of each imported module: so many
lines of each file include another file.  For an imported module that is one line, beside those for files
that are configured or units of the module itself under the same name; a source has no such lines. -/
theorem imported_units_are_included {ms linked : List Module} {u : SymbolTable}
    (h : linkAll Module.link .empty ms = ⟨linked, u, .ok ()⟩) :
    (∀ before m after, linked = before ++ m :: after →
        m.importedNames.Nodup ∧
        (∀ n, n ∈ m.importedNames ↔ n ≠ m.name ∧ ∃ r target, .declared r ∈ m.nodes ∧
          r.target = some target ∧ target.segments.head? = some n) ∧
        m.importedNames.Pairwise (fun a b => m.uses.idxOf a < m.uses.idxOf b) ∧
        ∀ n ∈ m.importedNames, ∃ e ∈ before, e.name = n) ∧
      ((linked.map (·.name)).Nodup → ∀ m, ¬Relation.TransGen
        (fun a b => a ∈ linked ∧ b ∈ linked ∧ b.name ∈ a.importedNames) m m) ∧
      ∀ m ∈ linked, ∀ o fs, m.render o = .ok fs → ∃ items : CUnit → List Item,
        (∀ c, c.items o m = .ok (items c) ∧
          ⟨c.fileName m.name, Layout.page o.indentText (Item.linesAll (items c))⟩ ∈ fs ∧
          Item.includes (items c) = (if c.isHeader then o.localIncludes else []) ++
            c.siblings.map (·.fileName m.name) ++ c.importedFiles m ∧
          ∀ file, (Item.linesAll (items c)).count (includeLine file) =
            (Item.includes (items c)).count file) ∧
        CUnit.declarations.importedFiles m = m.importedNames.map (· ++ ".h") ∧
        (∀ c ∈ [CUnit.codecHeader, .dispatchSource, .stubSource],
          c.importedFiles m = m.importedNames.map (· ++ "_type.h")) ∧
        ∀ n ∈ m.importedNames,
          ((CUnit.declarations.importedFiles m).count (n ++ ".h") = 1 ∧
            ∀ c ∈ [CUnit.codecHeader, .dispatchSource, .stubSource],
              (c.importedFiles m).count (n ++ "_type.h") = 1) ∧
          (Item.linesAll (items .declarations)).count (includeLine (n ++ ".h")) =
            o.localIncludes.count (n ++ ".h") + 1 ∧
          (Item.linesAll (items .codecHeader)).count (includeLine (n ++ "_type.h")) =
            (o.localIncludes ++ [m.name ++ ".h"]).count (n ++ "_type.h") + 1 ∧
          ∀ c ∈ [CUnit.dispatchSource, .stubSource],
            (Item.linesAll (items c)).count (includeLine (n ++ "_type.h")) = 1 := by
  refine ⟨fun before m after hsplit => ?_, importing_acyclic h, fun m hm o fs hfs => ?_⟩
  · have hm : m ∈ linked := hsplit ▸ List.mem_append_right _ List.mem_cons_self
    exact ⟨nodup_importedNames h hm, fun n => mem_importedNames h hm, pairwise_importedNames h hm,
      fun n hn => exists_before_of_mem_importedNames h hsplit hn⟩
  · obtain ⟨items, hitems⟩ := Classical.skolem.1 (Module.exists_page_of_render hfs)
    have hnodup := nodup_importedNames h hm
    have hincludes (c : CUnit) := CUnit.includes_items (hitems c).1
    have hlines (c : CUnit) (file : String) :=
      Item.count_includeLine (CUnit.plain_items (hitems c).1) file
    have htypes {n : String} (hn : n ∈ m.importedNames) : (CUnit.declarations.importedFiles m).count
        (n ++ ".h") = 1 := by
      refine List.count_eq_one_of_mem (CUnit.nodup_importedFiles .declarations hnodup) ?_
      rw [CUnit.importedFiles_declarations]
      exact List.mem_map_of_mem hn
    have hcodecs {n : String} (hn : n ∈ m.importedNames) :
        ∀ c ∈ [CUnit.codecHeader, .dispatchSource, .stubSource],
          (c.importedFiles m).count (n ++ "_type.h") = 1 := by
      intro c hc
      refine List.count_eq_one_of_mem (c.nodup_importedFiles hnodup) ?_
      rw [CUnit.importedFiles_codecs m c hc]
      exact List.mem_map_of_mem hn
    refine ⟨items, fun c => ⟨(hitems c).1, (hitems c).2, hincludes c, hlines c⟩,
      CUnit.importedFiles_declarations m, CUnit.importedFiles_codecs m, fun n hn =>
      ⟨⟨htypes hn, hcodecs hn⟩, ?_, ?_, fun c hc => ?_⟩⟩
    · rw [hlines, hincludes, List.count_append, htypes hn]
      simp [CUnit.isHeader, CUnit.siblings]
    · rw [hlines, hincludes, List.count_append, hcodecs hn _ List.mem_cons_self]
      simp [CUnit.isHeader, CUnit.siblings, CUnit.fileName, CUnit.ending]
    · have hne : n ≠ m.name := ((mem_importedNames h hm).1 hn).1
      have hheader : c.isHeader = false := by
        revert hc
        cases c <;> decide
      rw [hlines, hincludes, List.count_append, List.count_append, hheader,
        hcodecs hn c (List.mem_cons_of_mem _ hc),
        List.count_eq_zero.2 (CUnit.type_header_not_mem_siblings hne c hc)]
      rfl

/-- A yard with cars, whose wheels are declared in another module, which has its modes from a third. -/
def yardModules : List Module :=
  let mode : EnumDecl := ⟨"Mode", .root, ["OFF", "ON"]⟩
  let wheel : StructDecl := ⟨"Wheel", .root, [⟨"mode", .declared (.unlinked "::Base::Mode"), []⟩]⟩
  let axle : StructDecl :=
    ⟨"Axle", .root, [⟨"wheels", .sequence (.declared (.unlinked "Parts::Wheel")), []⟩]⟩
  let car : StructDecl := ⟨"Car", .root, [⟨"axle", .struct axle, [2]⟩]⟩
  let park : Operation :=
    ⟨"park", .declared (.unlinked "Base::Mode"), [⟨"car", .declared (.unlinked "Car"), .input⟩], []⟩
  [⟨"Base", [.enum mode], []⟩, ⟨"Parts", [.struct wheel], []⟩,
    ⟨"Yard", [.struct car], [⟨"Parking", .root, [park]⟩]⟩]

theorem imported_units_are_included_yard :
    ∃ linked u before yard fs, linkAll Module.link .empty yardModules = ⟨linked, u, .ok ()⟩ ∧
      linked = before ++ [yard] ∧ before.map (·.name) = ["Base", "Parts"] ∧
      yard.importedNames = ["Parts", "Base"] ∧
      (∀ n ∈ yard.importedNames, ∃ e ∈ before, e.name = n) ∧
      (∀ m, ¬Relation.TransGen
        (fun a b => a ∈ linked ∧ b ∈ linked ∧ b.name ∈ a.importedNames) m m) ∧
      yard.render {} = .ok fs ∧
      (CUnit.declarations.importedFiles yard).count "Parts.h" = 1 ∧
      (CUnit.stubSource.importedFiles yard).count "Base_type.h" = 1 ∧
      ∃ items, CUnit.stubSource.items {} yard = .ok items ∧
        ⟨"Yard_stub.c", Layout.page "  " (Item.linesAll items)⟩ ∈ fs ∧
        (Item.linesAll items).count (0, "#include \"Base_type.h\"") = 1 := by
  have h : linkAll Module.link .empty yardModules = ⟨[_, _, _], _, .ok ()⟩ := rfl
  obtain ⟨hmodules, hacyclic, hunits⟩ := imported_units_are_included h
  obtain ⟨-, -, -, hbefore⟩ := hmodules [_, _] _ [] rfl
  obtain ⟨items, hitems, -, -, hcount⟩ :=
    hunits _ (List.mem_cons_of_mem _ (List.mem_cons_of_mem _ List.mem_cons_self)) {} _ rfl
  obtain ⟨hstub, hfile, -⟩ := hitems .stubSource
  obtain ⟨⟨-, hbase⟩, -, -, hlines⟩ := hcount "Base" (by decide)
  exact ⟨_, _, [_, _], _, _, h, rfl, rfl, rfl, hbefore, hacyclic (by decide), rfl,
    (hcount "Parts" (by decide)).1.1, hbase .stubSource (by decide), _, hstub, hfile,
    hlines .stubSource (by decide)⟩

end WireStub
