import WireStub.Generate.CUnit
import WireStub.Proofs.Code.Items
import WireStub.Proofs.Except

/-!
# The parts of units

A unit holds banner, guard and includes around its content, and content holds comments, prototypes,
types and functions.  The lemmas here say which functions and prototypes a unit holds.

* `CUnit.filterMap_frame`: what passes over lines and includes finds the content only, and
  `CUnit.prototypes_eq_ok` says what it finds in a list of prototypes;
* `CUnit.filterMap_declarations` finds types and prototypes in the unit of declarations;
* `CUnit.prototypes_dispatchSource` and `CUnit.functions_dispatchSource` are the prototypes and the
  functions of the unit that dispatches requests, and their kin those of the other units;
* `Module.exists_items_of_render`: the files of a module are its units, and
  `Module.exists_page_of_render` that they hold the lines of the items.
-/

namespace WireStub

namespace Item

@[simp] theorem functions_append (is js : List Item) :
    functions (is ++ js) = functions is ++ functions js := List.filterMap_append

@[simp] theorem functions_map_function (fs : List Function) : functions (fs.map .function) = fs := by
  rw [functions, List.filterMap_map]
  exact List.filterMap_some

@[simp] theorem prototypes_append (is js : List Item) :
    prototypes (is ++ js) = prototypes is ++ prototypes js := List.filterMap_append

@[simp] theorem prototypes_map_prototype (ps : List Prototype) :
    prototypes (ps.map .prototype) = ps := by
  rw [prototypes, List.filterMap_map]
  exact List.filterMap_some

@[simp] theorem prototypes_map_function (fs : List Function) :
    prototypes (fs.map .function) = [] := by
  rw [prototypes, List.filterMap_map, List.filterMap_eq_nil_iff]
  exact fun _ _ => rfl

/-- The part that is taken of an item is nothing for a line or an include. -/
structure PassesOver {β : Type} (g : Item → Option β) : Prop where
  line : ∀ text, g (.line text) = none
  blank : g .blank = none
  includeLocal : ∀ file, g (.includeLocal file) = none
  includeSystem : ∀ file, g (.includeSystem file) = none

theorem filterMap_map_eq_nil {α β : Type} {g : Item → Option β} {f : α → Item}
    (h : ∀ a, g (f a) = none) (as : List α) : (as.map f).filterMap g = [] := by
  rw [List.filterMap_map, List.filterMap_eq_nil_iff]
  exact fun a _ => h a

end Item

namespace CUnit

variable {o : Options} {m : Module} {items : List Item}

/-- What passes over lines and includes finds the content of a unit only. -/
theorem filterMap_frame {β : Type} {g : Item → Option β} (hg : Item.PassesOver g) (u : CUnit)
    (o : Options) (m : Module) (content : List Item) :
    (u.frame o m content).filterMap g = content.filterMap g := by
  have hbanner : banner.filterMap g = [] := by simp [banner, hg.line]
  have hincludes : (u.unitIncludes m).filterMap g = [] := by
    rw [unitIncludes, List.filterMap_append,
      Item.filterMap_map_eq_nil (fun v : CUnit => hg.includeLocal (v.fileName m.name)),
      Item.filterMap_map_eq_nil hg.includeLocal, List.append_nil]
  unfold frame
  split <;> simp only [List.filterMap_append, List.filterMap_cons, List.filterMap_nil, hbanner,
    hincludes, hg.line, hg.blank, Item.filterMap_map_eq_nil hg.includeLocal,
    Item.filterMap_map_eq_nil hg.includeSystem, List.append_nil, List.nil_append]

/-- The prototypes of endpoints stand under comments, one for each endpoint. -/
theorem prototypes_eq_ok {f : Endpoint → Except RenderError Prototype}
    (h : prototypes m f = .ok items) :
    ∃ ps, m.endpoints.mapM f = .ok ps ∧
      ∀ {β : Type} {g : Item → Option β}, (∀ text, g (.line text) = none) → g .blank = none →
        items.filterMap g = (ps.map .prototype).filterMap g := by
  simp only [prototypes, bind_eq_ok, Except.ok.injEq] at h
  obtain ⟨groups, hgroups, rfl⟩ := h
  rw [mapM_eq_ok_iff] at hgroups
  simp only [mapM_eq_ok_iff, Module.endpoints]
  generalize m.interfaces = is at hgroups
  -- interface by interface, a group holds the prototypes of the endpoints
  induction hgroups with
  | nil => exact ⟨[], .nil, fun _ _ => rfl⟩
  | @cons i group is groups hgroup _ ih =>
    obtain ⟨qs, hqs, hitems⟩ := ih
    obtain ⟨ps, hps, hgroup⟩ := bind_eq_ok.1 hgroup
    refine ⟨ps ++ qs, List.rel_append (mapM_eq_ok_iff.1 hps) hqs, fun hline hblank => ?_⟩
    rw [← Except.ok.inj hgroup, List.flatten_cons, List.filterMap_append, hitems hline hblank,
      List.map_append, List.filterMap_append]
    simp [hline, hblank]

/-- What stands around the content of a unit are no functions. -/
theorem functions_frame (u : CUnit) (o : Options) (m : Module) (content : List Item) :
    Item.functions (u.frame o m content) = Item.functions content :=
  filterMap_frame ⟨fun _ => rfl, rfl, fun _ => rfl, fun _ => rfl⟩ u o m content

theorem prototypes_frame (u : CUnit) (o : Options) (m : Module) (content : List Item) :
    Item.prototypes (u.frame o m content) = Item.prototypes content :=
  filterMap_frame ⟨fun _ => rfl, rfl, fun _ => rfl, fun _ => rfl⟩ u o m content

theorem functions_prototypes {f : Endpoint → Except RenderError Prototype}
    (h : prototypes m f = .ok items) : Item.functions items = [] := by
  obtain ⟨ps, -, hitems⟩ := prototypes_eq_ok h
  exact (hitems (fun _ => rfl) rfl).trans
    (Item.filterMap_map_eq_nil (fun _ => rfl) ps)

theorem prototypes_prototypes {f : Endpoint → Except RenderError Prototype}
    (h : prototypes m f = .ok items) : m.endpoints.mapM f = .ok (Item.prototypes items) := by
  obtain ⟨ps, hps, hitems⟩ := prototypes_eq_ok h
  have hview : Item.prototypes items = Item.prototypes (ps.map .prototype) :=
    hitems (fun _ => rfl) rfl
  rw [hview, Item.prototypes_map_prototype, hps]

/-- The unit of declarations holds their types, then the prototypes of the server functions. -/
theorem filterMap_declarations (h : declarations.items o m = .ok items) :
    ∃ types ps, m.declarations.mapM (·.item) = .ok types ∧
      m.endpoints.mapM (·.serverPrototype) = .ok ps ∧
      ∀ {β : Type} {g : Item → Option β}, Item.PassesOver g →
        items.filterMap g = types.filterMap g ++ (ps.map .prototype).filterMap g := by
  simp only [CUnit.items, content, bind_eq_ok, Except.ok.injEq] at h
  obtain ⟨_, ⟨types, htypes, protos, hprotos, rfl⟩, rfl⟩ := h
  obtain ⟨ps, hps, hitems⟩ := prototypes_eq_ok hprotos
  refine ⟨types, ps, htypes, hps, fun hg => ?_⟩
  rw [filterMap_frame hg, List.filterMap_append, hitems hg.line hg.blank]

/-! The units for codecs hold the prototypes and functions of all declarations, the units for stubs
those of all endpoints. -/

theorem prototypes_codecHeader (h : codecHeader.items o m = .ok items) :
    ∃ pss, m.declarations.mapM (·.codecPrototypes) = .ok pss ∧
      Item.prototypes items = pss.flatten := by
  simp only [CUnit.items, content, bind_eq_ok, Except.ok.injEq] at h
  obtain ⟨_, ⟨pss, hpss, rfl⟩, rfl⟩ := h
  refine ⟨pss, hpss, ?_⟩
  have hblank : Item.prototypes [.blank] = [] := rfl
  rw [prototypes_frame, Item.prototypes_append, Item.prototypes_map_prototype, hblank,
    List.append_nil]

theorem functions_codecSource (h : codecSource.items o m = .ok items) :
    ∃ fss, m.declarations.mapM (·.codecs) = .ok fss ∧ Item.functions items = fss.flatten := by
  simp only [CUnit.items, content, bind_eq_ok, Except.ok.injEq] at h
  obtain ⟨_, ⟨fss, hfss, rfl⟩, rfl⟩ := h
  exact ⟨fss, hfss, by rw [functions_frame, Item.functions_map_function]⟩

theorem prototypes_stubHeader (h : stubHeader.items o m = .ok items) :
    m.endpoints.mapM (·.stubPrototype o) = .ok (Item.prototypes items) := by
  simp only [CUnit.items, content, bind_eq_ok, Except.ok.injEq] at h
  obtain ⟨_, ⟨ps, hps, rfl⟩, rfl⟩ := h
  have hclients (is : List Interface) :
      Item.prototypes (is.map fun i => .clientStruct i.name) = [] :=
    Item.filterMap_map_eq_nil (fun _ => rfl) is
  rw [prototypes_frame, Item.prototypes_append, hclients, List.nil_append,
    prototypes_prototypes hps]

theorem functions_stubSource (h : stubSource.items o m = .ok items) :
    m.endpoints.mapM (·.stub o) = .ok (Item.functions items) := by
  simp only [CUnit.items, content, bind_eq_ok, Except.ok.injEq] at h
  obtain ⟨_, ⟨fs, hfs, rfl⟩, rfl⟩ := h
  rw [functions_frame, Item.functions_map_function, hfs]

/-- Other files see one function for requests. -/
theorem prototypes_dispatchHeader (h : dispatchHeader.items o m = .ok items) :
    Item.prototypes items =
      [⟨true, dispatcherSignature false (o.statusType m.name) "unmarshal", []⟩] := by
  obtain ⟨_, hcontent, h⟩ := bind_eq_ok.1 h
  rw [← Except.ok.inj h, prototypes_frame, ← Except.ok.inj hcontent]
  rfl

/-- The unit that dispatches requests declares the dispatchers of attributes, then all handlers. -/
theorem prototypes_dispatchSource (h : dispatchSource.items o m = .ok items) :
    ∃ ps, m.endpoints.mapM (fun e => .ok (e.handlerPrototype (o.statusType m.name))) =
        (.ok ps : Except RenderError (List Prototype)) ∧
      Item.prototypes items =
        [⟨false, dispatcherSignature true (o.statusType m.name) getDispatcher, []⟩,
          ⟨false, dispatcherSignature true (o.statusType m.name) setDispatcher, []⟩] ++ ps := by
  simp only [CUnit.items, content, bind_eq_ok, Except.ok.injEq] at h
  obtain ⟨_, ⟨t, -, ps, hps, hs, -, rfl⟩, rfl⟩ := h
  refine ⟨_, prototypes_prototypes hps, ?_⟩
  rw [prototypes_frame, Item.prototypes_append, Item.prototypes_append,
    Item.prototypes_map_function, List.append_nil]
  rfl

/-- The unit that dispatches requests defines the dispatchers of the module's table, then all
handlers. -/
theorem functions_dispatchSource (h : dispatchSource.items o m = .ok items) :
    ∃ t hs, DispatchTable.build m = .ok t ∧
      m.endpoints.mapM (·.handler o (o.statusType m.name)) = .ok hs ∧
      Item.functions items = dispatchers o (o.statusType m.name) t ++ hs := by
  simp only [CUnit.items, content, bind_eq_ok, Except.ok.injEq] at h
  obtain ⟨body, ⟨t, ht, ps, hps, hs, hhs, rfl⟩, rfl⟩ := h
  refine ⟨t, hs, ht, hhs, ?_⟩
  have hown (p q : Prototype) : Item.functions [.prototype p, .prototype q, .blank] = [] := rfl
  rw [functions_frame, Item.functions_append, Item.functions_append, hown, functions_prototypes hps,
    Item.functions_map_function]
  rfl

end CUnit

/-- The files of a module that is generated are its units. -/
theorem Module.exists_items_of_render {m : Module} {o : Options} {fs : List GeneratedFile}
    (h : m.render o = .ok fs) (u : CUnit) :
    ∃ items, u.items o m = .ok items ∧
      ⟨u.fileName m.name, Layout.render o.indentText (Item.layoutAll items)⟩ ∈ fs := by
  have hu : u ∈ CUnit.all := by cases u <;> decide
  obtain ⟨file, hmem, hfile⟩ := exists_mem_of_mapM h hu
  obtain ⟨text, htext, hfile⟩ := bind_eq_ok.1 hfile
  obtain ⟨items, hitems, htext⟩ := bind_eq_ok.1 htext
  cases hfile
  cases htext
  exact ⟨items, hitems, hmem⟩

theorem Module.exists_page_of_render {m : Module} {o : Options} {fs : List GeneratedFile}
    (h : m.render o = .ok fs) (u : CUnit) :
    ∃ items, u.items o m = .ok items ∧
      ⟨u.fileName m.name, Layout.page o.indentText (Item.linesAll items)⟩ ∈ fs := by
  obtain ⟨items, hitems, hfile⟩ := exists_items_of_render h u
  exact ⟨items, hitems, Item.render_layoutAll o.indentText items ▸ hfile⟩

end WireStub
