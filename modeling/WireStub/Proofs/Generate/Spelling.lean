import WireStub.Proofs.Endpoint.Capture
import WireStub.Proofs.Generate.Faults
import WireStub.Proofs.Generate.Symbols

/-!
# Spelling of names

Names of a schema come into the generated code in three ways.  Members, enumerators and parameters are
escaped, and can always be used.  Names of types are flattened paths, where only `<`, `>` and `:` are
replaced.  Names of functions and of the structs that stand for clients are put together from the names as
they are, and what is put around a name keeps it from being a reserved word, but a service has nothing
around its name.

* `Item.memberNames` and `CUnit.parameterNames` are the escaped names of a module;
* `Module.Spellable` says what the other names have to be like;
* `Module.names_usable_iff` is the main statement.
-/

namespace WireStub

open Identifier

namespace Identifier

/-- The reserved words that are no keywords of C: generated code declares them itself. -/
def ownNames : List String := ["bool", "offset", "request", "response", "retval", "instanceNum"]

/-- The keywords of C among the reserved words. -/
def keywords : List String := reserved.filter (· ∉ ownNames)

end Identifier

/-- The names of parameters that do not come from a schema. -/
def fixedParameters : List String := ["buffer", "offset", "value", "request", "response", "instanceNum"]

/-- The names that types of a file have inside: the fields of structs and the enumerators of enums. -/
def Item.memberNames (items : List Item) : List String :=
  (items.filterMap fun i => match i with
    | structType _ fields => some (fields.map (·.name))
    | enumType _ enumerators => some enumerators
    | _ => none).flatten

/-- The names of the parameters of all functions that the units of a module introduce. -/
def CUnit.parameterNames (items : CUnit → List Item) : List String :=
  (CUnit.signatures items).flatMap fun s => s.parameters.map (·.name)

/-! ### Escaped names -/

theorem Member.name_of_field {context : String} {m : Member} {f : Field}
    (h : m.field context = .ok f) : f.name = escape m.name := by
  obtain ⟨d, -, h⟩ := bind_eq_ok.1 h
  rw [← Except.ok.inj h]

/-- The parameters of an operation are escaped in all its functions. -/
theorem Endpoint.isUsable_name_of_cParameters {e : Endpoint} {ps : List CParameter}
    (h : e.cParameters = .ok ps) : ∀ p ∈ ps, IsUsable p.name := by
  obtain ⟨ws, hws, rfl⟩ := cParameters_eq_ok h
  have hnames : (ws.map (·.toC e.role)).map (·.name) = e.identifiers := by
    rw [← map_name_of_parameters hws, List.map_map]
    rfl
  intro p hp
  have hname : p.name ∈ e.identifiers := hnames ▸ List.mem_map_of_mem hp
  obtain ⟨q, -, hq⟩ := List.mem_map.1 hname
  rw [← hq]
  exact isUsable_escape q.name

namespace CUnit

variable {o : Options} {m : Module}

/-- The names inside of types are escaped. -/
theorem isUsable_memberNames {items : List Item} (h : declarations.items o m = .ok items) :
    ∀ s ∈ Item.memberNames items, IsUsable s := by
  obtain ⟨types, ps, htypes, -, hitems⟩ := filterMap_declarations h
  intro s hs
  obtain ⟨names, hnames, hs⟩ := List.mem_flatten.1 hs
  rw [hitems ⟨fun _ => rfl, rfl, fun _ => rfl, fun _ => rfl⟩,
    Item.filterMap_map_eq_nil fun _ => rfl, List.append_nil] at hnames
  obtain ⟨i, hi, hnames⟩ := List.mem_filterMap.1 hnames
  obtain ⟨d, -, hd⟩ := exists_left_of_mapM htypes hi
  obtain ⟨c, -, hd⟩ := bind_eq_ok.1 hd
  cases d with
  | struct d =>
    obtain ⟨fields, hfields, hd⟩ := bind_eq_ok.1 hd
    obtain rfl := Except.ok.inj hd
    obtain rfl := Option.some.inj hnames
    obtain ⟨f, hf, rfl⟩ := List.mem_map.1 hs
    obtain ⟨member, -, hmember⟩ := exists_left_of_mapM hfields hf
    rw [Member.name_of_field hmember]
    exact isUsable_escape member.name
  | enum d =>
    obtain rfl := Except.ok.inj hd
    obtain rfl := Option.some.inj hnames
    obtain ⟨enumerator, -, rfl⟩ := List.mem_map.1 hs
    exact isUsable_escape enumerator
  | typedef d =>
    obtain ⟨declarator, -, hd⟩ := bind_eq_ok.1 hd
    obtain rfl := Except.ok.inj hd
    cases hnames

/-- What holds of the signatures of all five kinds of functions holds of all functions of a module. -/
theorem forall_signatures {q : Signature → Prop} {items : CUnit → List Item}
    (h : ∀ u : CUnit, u.items o m = .ok (items u))
    (hcodec : ∀ (half : Half) c, q (half.signature c))
    (hserver : ∀ e s, Endpoint.serverSignature e = .ok s → q s)
    (hdispatcher : ∀ isStatic status n, q (dispatcherSignature isStatic status n))
    (hhandler : ∀ e status, q (Endpoint.handlerSignature status e))
    (hstub : ∀ e s, Endpoint.stubSignature o e = .ok s → q s) :
    ∀ s ∈ signatures items, q s := by
  simp only [signatures, List.forall_mem_append, List.forall_mem_map]
  have hprototypes (u : CUnit) : ∀ p ∈ Item.prototypes (items u), q p.signature := by
    intro p hp
    cases origin_of_mem (h u) hp with
    | codec half c => exact hcodec half c
    | server _ he =>
      obtain ⟨s, hs, rfl⟩ := Endpoint.serverPrototype_eq_ok he
      exact hserver _ s hs
    | dispatcher isExtern isStatic name => exact hdispatcher isStatic _ name
    | handler _ => exact hhandler _ _
    | stub _ he =>
      obtain ⟨s, hs, rfl⟩ := Endpoint.stubPrototype_eq_ok he
      exact hstub _ s hs
  refine ⟨⟨⟨hprototypes _, hprototypes _⟩, fun f hf => ?_⟩, hprototypes _⟩
  obtain ⟨t, hs, -, hhs, hfunctions⟩ := functions_dispatchSource (h .dispatchSource)
  rw [hfunctions, List.mem_append] at hf
  rcases hf with hf | hf
  · simp only [dispatchers, List.mem_cons, List.not_mem_nil, or_false] at hf
    rcases hf with rfl | rfl | rfl <;> exact hdispatcher _ _ _
  · obtain ⟨e, -, he⟩ := exists_left_of_mapM hhs hf
    obtain ⟨c, ps, -, -, rfl⟩ := Endpoint.handler_eq_ok he
    exact hhandler e _

/-- A parameter has a fixed name or one that is escaped. -/
theorem parameterNames_fixed_or_usable {items : CUnit → List Item}
    (h : ∀ u : CUnit, u.items o m = .ok (items u)) :
    ∀ s ∈ parameterNames items, s ∈ fixedParameters ∨ IsUsable s := by
  have hbuffers : ∀ p ∈ Endpoint.handlerParameters, p.name ∈ fixedParameters := by decide
  have hall : ∀ s ∈ signatures items, ∀ p ∈ s.parameters,
      p.name ∈ fixedParameters ∨ IsUsable p.name := by
    refine forall_signatures h (fun half c p hp => ?_) (fun e s hs p hp => ?_)
      (fun _ _ _ p hp => .inl (hbuffers p hp)) (fun _ _ p hp => .inl (hbuffers p hp))
      (fun e s hs p hp => ?_)
    · have hnames : (half.signature c).parameters.map (·.name) = ["buffer", "offset", "value"] := rfl
      have hfixed : ∀ s ∈ ["buffer", "offset", "value"], s ∈ fixedParameters := by decide
      exact .inl (hfixed p.name (hnames ▸ List.mem_map_of_mem hp))
    · obtain ⟨c, ps, -, hps, rfl⟩ := Endpoint.serverSignature_eq_ok hs
      exact .inr (Endpoint.isUsable_name_of_cParameters hps p hp)
    · obtain ⟨c, ps, -, hps, rfl⟩ := Endpoint.stubSignature_eq_ok hs
      rcases List.mem_append.1 hp with hp | hp
      · split at hp
        · rw [List.mem_singleton.1 hp]
          exact .inl (by decide)
        · cases hp
      · exact .inr (Endpoint.isUsable_name_of_cParameters hps p hp)
  intro s hs
  obtain ⟨signature, hsignature, hs⟩ := List.mem_flatMap.1 hs
  obtain ⟨p, hp, rfl⟩ := List.mem_map.1 hs
  exact hall signature hsignature p hp

end CUnit

/-! ### Names that are not escaped -/

/-- The types of a module have the C names of its declarations. -/
theorem CUnit.typeNames_declarations {o : Options} {m : Module} {items : List Item}
    (h : declarations.items o m = .ok items) :
    Item.typeNames items = m.declarations.map (·.cName) := by
  obtain ⟨types, ps, htypes, -, hitems⟩ := filterMap_declarations h
  have hview : Item.typeNames items =
      types.filterMap Item.typeName? ++ (ps.map .prototype).filterMap Item.typeName? :=
    hitems ⟨fun _ => rfl, rfl, fun _ => rfl, fun _ => rfl⟩
  have hnames : types.map Item.typeName? = m.declarations.map (some ·.cName) :=
    map_eq_map_of_mapM (fun _ _ => Definition.typeName?_of_item) htypes
  have htypeNames : types.filterMap Item.typeName? = (types.map Item.typeName?).filterMap id := by
    rw [List.filterMap_map, Function.id_comp]
  rw [hview, Item.filterMap_map_eq_nil fun _ => rfl, List.append_nil, htypeNames, hnames,
    List.filterMap_map]
  exact congrFun List.filterMap_eq_map m.declarations

section Types

variable {ms linked : List Module} {t u : SymbolTable} {m : Module}

/-- The C names of declarations are usable if the names that they are flattened from are spelled so. -/
theorem forall_isUsable_cName_iff (h : linkAll Module.link t ms = ⟨linked, u, .ok ()⟩)
    (hm : m ∈ linked) :
    (∀ d ∈ m.declarations, IsUsable d.cName) ↔
      ∀ d ∈ m.declarations, IsValid (flattenSegment m.name) ∧
        (flattenSegment d.name).toList.all isWordChar = true := by
  constructor
  · intro husable d hd
    obtain ⟨rest, hrest⟩ := exists_cName_eq h hm hd
    have hmodule := flattenSegment_name_ne h hm
    have hne : flattenSegment m.name ++ rest ≠ "" := fun hempty =>
      hmodule (String.append_eq_empty_iff.1 hempty).1
    have hname := husable d hd
    rw [hrest, isUsable_underscore_iff hne, isValid_append_iff hmodule] at hname
    exact ⟨hname.1.1, hname.2⟩
  · intro hspelled d hd
    have hroot : ofScopedName (.child .root m.name) = flattenSegment m.name :=
      String.intercalate_singleton
    have hchild : ∀ s, ∀ e ∈ m.declarations, (s.isRoot = false ∧ IsValid (ofScopedName s)) →
        (s.child e.name).isRoot = false ∧ IsValid (ofScopedName (s.child e.name)) := by
      intro s e he hs
      refine ⟨by simp [ScopedName.isRoot], ?_⟩
      rw [ofScopedName_child hs.1]
      exact ((isUsable_underscore_iff hs.2.nonempty).2 ⟨hs.2, (hspelled e he).2⟩).valid
    obtain ⟨s, hs, hpath⟩ := exists_scope h hm ⟨rfl, hroot ▸ (hspelled d hd).1⟩ hchild hd
    rw [Definition.cName, hpath, ofScopedName_child hs.1, isUsable_underscore_iff hs.2.nonempty]
    exact ⟨hs.2, (hspelled d hd).2⟩

end Types

/-- Codec functions of a usable type are usable. -/
theorem Definition.isUsable_codecNames {d : Definition} (h : IsUsable d.cName) :
    ∀ s ∈ d.codecNames, IsUsable s := by
  intro s hs
  obtain ⟨half, -, rfl⟩ := List.mem_map.1 hs
  have hcodec : (CType.mk d.cName false).codecPrefix = d.cName :=
    CType.codecPrefix_eq_name (h.valid.not_mem rfl)
  cases half
  · rw [Half.functionName, hcodec, isUsable_append_iff h.valid.nonempty rfl]
    exact ⟨h.valid, rfl⟩
  · rw [Half.functionName, hcodec, isUsable_append_iff h.valid.nonempty rfl]
    exact ⟨h.valid, rfl⟩

namespace Endpoint

variable {e : Endpoint}

/-- The name of a service is its own, the name of an attribute has a word before it. -/
theorem isUsable_functionName_iff :
    IsUsable e.functionName ↔
      if e.role = .plain then IsUsable e.operation.name
      else e.operation.name.toList.all isWordChar = true := by
  have haffix {word : String} (hword : IsValid word) :
      IsUsable (word ++ ("_" ++ e.operation.name)) ↔ e.operation.name.toList.all isWordChar = true := by
    rw [isUsable_underscore_iff hword.nonempty]
    exact and_iff_right hword
  rw [functionName_eq]
  cases e.role with
  | plain => rw [if_pos rfl]
  | getter => rw [if_neg (by decide), haffix (by decide)]
  | setter => rw [if_neg (by decide), haffix (by decide)]

/-- Handlers and stubs of a usable server function are usable. -/
theorem isUsable_handlerName (h : IsUsable e.functionName) : IsUsable e.handlerName :=
  (isUsable_append_iff h.valid.nonempty rfl).2 ⟨h.valid, rfl⟩

theorem isUsable_stubName (hi : IsValid e.interface.name) (h : IsUsable e.functionName) :
    IsUsable e.stubName := by
  rw [stubName, String.append_assoc, isUsable_append_iff hi.nonempty (by simp)]
  refine ⟨hi, ?_⟩
  rw [String.toList_append, List.all_append, h.valid.wordChars]
  rfl

end Endpoint

namespace Module

variable {m : Module} {o : Options}

/-- What the names have to be like that are not escaped. -/
structure Spellable (m : Module) : Prop where
  /-- Types are named after the module and after what is declared, both flattened. -/
  types : ∀ d ∈ m.declarations, IsValid (flattenSegment m.name) ∧
    (flattenSegment d.name).toList.all isWordChar = true
  /-- Interfaces begin the names of clients and stubs. -/
  interfaces : ∀ i ∈ m.interfaces, IsValid i.name
  /-- A service is the name of its server function. -/
  services : ∀ i ∈ m.interfaces, i.isAttributes = false → ∀ op ∈ i.operations, IsUsable op.name
  /-- An attribute ends the names of its server functions. -/
  attributes : ∀ i ∈ m.interfaces, i.isAttributes = true → ∀ op ∈ i.operations,
    op.name.toList.all isWordChar = true

instance (m : Module) : Decidable m.Spellable :=
  decidable_of_iff ((∀ d ∈ m.declarations, IsValid (flattenSegment m.name) ∧
        (flattenSegment d.name).toList.all isWordChar = true) ∧
      (∀ i ∈ m.interfaces, IsValid i.name) ∧
      (∀ i ∈ m.interfaces, i.isAttributes = false → ∀ op ∈ i.operations, IsUsable op.name) ∧
      ∀ i ∈ m.interfaces, i.isAttributes = true → ∀ op ∈ i.operations,
        op.name.toList.all isWordChar = true)
    ⟨fun ⟨ht, hi, hs, ha⟩ => ⟨ht, hi, hs, ha⟩,
      fun h => ⟨h.types, h.interfaces, h.services, h.attributes⟩⟩

theorem role_eq_plain_iff {e : Endpoint} (he : e ∈ m.endpoints) :
    e.role = .plain ↔ e.interface.isAttributes = false := by
  have hrole := (mem_endpoints.1 he).2.2
  constructor
  · intro h
    exact plain_mem_rolesOf.1 (h ▸ hrole)
  · intro h
    simpa [Interface.rolesOf, h] using hrole

/-- The server functions are usable if services have usable names and attributes no foreign
characters. -/
theorem forall_isUsable_functionName_iff :
    (∀ e ∈ m.endpoints, IsUsable e.functionName) ↔
      (∀ i ∈ m.interfaces, i.isAttributes = false → ∀ op ∈ i.operations, IsUsable op.name) ∧
      ∀ i ∈ m.interfaces, i.isAttributes = true → ∀ op ∈ i.operations,
        op.name.toList.all isWordChar = true := by
  constructor
  · intro h
    have hof : ∀ i ∈ m.interfaces, ∀ op ∈ i.operations, if i.isAttributes = false
        then IsUsable op.name else op.name.toList.all isWordChar = true := by
      intro i hi op hop
      obtain ⟨r, hr⟩ := i.exists_role op
      have he : (⟨i, op, r⟩ : Endpoint) ∈ m.endpoints := mem_endpoints.2 ⟨hi, hop, hr⟩
      have husable := Endpoint.isUsable_functionName_iff.1 (h _ he)
      simpa only [role_eq_plain_iff he] using husable
    exact ⟨fun i hi hplain op hop => by simpa [hplain] using hof i hi op hop,
      fun i hi hattribute op hop => by simpa [hattribute] using hof i hi op hop⟩
  · rintro ⟨hservices, hattributes⟩ e he
    obtain ⟨hi, hop, -⟩ := mem_endpoints.1 he
    rw [Endpoint.isUsable_functionName_iff, if_congr (role_eq_plain_iff he) rfl rfl]
    by_cases hplain : e.interface.isAttributes = false
    · rw [if_pos hplain]
      exact hservices _ hi hplain _ hop
    · rw [if_neg hplain]
      exact hattributes _ hi (eq_true_of_ne_false hplain) _ hop

/-- **Usable names.**  In a module of a schema that links, with any names, for which files are generated:
the fields and the enumerators are identifiers that are not reserved.  The parameters of all functions
are identifiers and no keywords, and they are not reserved either but for those with a fixed name.  The
types, the structs that stand for clients, and all functions have names that are identifiers and not
reserved, if and only if the names of the schema are as `Spellable` says: a service is not reserved
itself, and there are no foreign characters left. -/
theorem names_usable_iff {ms linked : List Module} {t u : SymbolTable} {fs : List GeneratedFile}
    (h : linkAll Module.link t ms = ⟨linked, u, .ok ()⟩) (hm : m ∈ linked)
    (hr : m.render o = .ok fs) :
    ∃ items : CUnit → List Item,
      (∀ u, u.items o m = .ok (items u) ∧
        ⟨u.fileName m.name, Layout.render o.indentText (Item.layoutAll (items u))⟩ ∈ fs) ∧
      (∀ s ∈ Item.memberNames (items .declarations), IsUsable s) ∧
      (∀ s ∈ CUnit.parameterNames items,
        IsValid s ∧ s ∉ keywords ∧ (s ∈ fixedParameters ∨ s ∉ reserved)) ∧
      ((∀ s ∈ Item.typeNames (items .declarations) ++ Item.clientNames (items .stubHeader) ++
          CUnit.symbols items, IsUsable s) ↔ m.Spellable) := by
  obtain ⟨items, hitems⟩ := Classical.skolem.1 (exists_items_of_render hr)
  have hunits := fun u => (hitems u).1
  refine ⟨items, hitems, CUnit.isUsable_memberNames (hunits .declarations), fun s hs => ?_, ?_⟩
  · have hfixed : ∀ s ∈ fixedParameters, IsValid s ∧ s ∉ keywords := by decide
    rcases CUnit.parameterNames_fixed_or_usable hunits s hs with hs | hs
    · exact ⟨(hfixed s hs).1, (hfixed s hs).2, .inl hs⟩
    · exact ⟨hs.valid, fun hmem => hs.free (List.mem_of_mem_filter hmem), .inr hs.free⟩
  · have hclients : (∀ i ∈ m.interfaces, IsUsable (i.name ++ "_stub")) ↔
        ∀ i ∈ m.interfaces, IsValid i.name := by
      refine forall₂_congr fun i hi => ?_
      have hname : i.name ≠ "" := by
        intro hempty
        have hblank := ((nameable_linkAll h m hm).interfaces i hi).1
        rw [hempty] at hblank
        cases hblank
      rw [isUsable_append_iff hname rfl]
      exact and_iff_left rfl
    have hdispatchers : ∀ s ∈ dispatcherNames, IsUsable s := by decide
    rw [symbols_eq hunits, CUnit.typeNames_declarations (hunits .declarations),
      CUnit.clientNames_stubHeader (hunits .stubHeader)]
    simp only [List.forall_mem_append, List.forall_mem_map, List.forall_mem_flatMap,
      forall_isUsable_cName_iff h hm, hclients]
    constructor
    · rintro ⟨⟨htypes, hinterfaces⟩, ⟨⟨-, hfunctions⟩, -⟩, -⟩
      obtain ⟨hservices, hattributes⟩ := forall_isUsable_functionName_iff.1 hfunctions
      exact ⟨htypes, hinterfaces, hservices, hattributes⟩
    · intro hs
      have hfunctions := forall_isUsable_functionName_iff.2 ⟨hs.services, hs.attributes⟩
      have hcNames := (forall_isUsable_cName_iff h hm).2 hs.types
      exact ⟨⟨hs.types, hs.interfaces⟩,
        ⟨⟨fun d hd => Definition.isUsable_codecNames (hcNames d hd), hfunctions⟩,
          hdispatchers, fun e he => Endpoint.isUsable_handlerName (hfunctions e he)⟩,
        fun e he => Endpoint.isUsable_stubName (hs.interfaces _ (mem_endpoints.1 he).1)
          (hfunctions e he)⟩

/-- A module in which only names are reserved that are escaped. -/
def heaterModule : Module :=
  ⟨"Heater", [.struct ⟨"State", .root,
      [⟨"switch", .enum ⟨"Switch", .root, ["on", "off", "default"]⟩, []⟩,
       ⟨"3rd zone", .primitive .long, []⟩]⟩],
    [⟨"Control", .root, [⟨"reset", .void, [⟨"offset", .primitive .octet, .input⟩], []⟩]⟩,
     ⟨"Attributes", .root, [⟨"default", .primitive .long, [⟨"int", .primitive .long, .inout⟩], []⟩]⟩]⟩

theorem names_usable_iff_heater :
    ∃ linked u m fs items, linkAll Module.link .empty [heaterModule] = ⟨linked, u, .ok ()⟩ ∧
      m ∈ linked ∧ m.render {} = .ok fs ∧ (∀ c : CUnit, c.items {} m = .ok (items c)) ∧
      (∀ s ∈ Item.memberNames (items .declarations), IsUsable s) ∧
      Item.memberNames (items .declarations) = ["on", "off", "default_", "switch_", "_3rd_zone"] ∧
      ∀ s ∈ Item.typeNames (items .declarations) ++ Item.clientNames (items .stubHeader) ++
        CUnit.symbols items, IsUsable s := by
  have h : linkAll Module.link .empty [heaterModule] = ⟨_, _, .ok ()⟩ := rfl
  have hm : _ ∈ (linkAll Module.link .empty [heaterModule]).part := List.mem_cons_self
  obtain ⟨items, hitems, hmembers, -, hothers⟩ := names_usable_iff (o := {}) h hm rfl
  have hdeclarations := Except.ok.inj ((hitems .declarations).1.symm.trans rfl)
  exact ⟨_, _, _, _, items, h, hm, rfl, fun c => (hitems c).1, hmembers,
    by rw [hdeclarations]; decide, hothers.2 (by decide)⟩

/-- A module with a service that is named like a keyword, and with a blank in the name of a struct. -/
def fanModule : Module :=
  ⟨"Fan", [.struct ⟨"Blade set", .root, [⟨"count", .primitive .long, []⟩]⟩],
    [⟨"Control", .root, [⟨"default", .void, [], []⟩]⟩]⟩

/-- The module links and is generated, but its server function is named like the keyword, and the name of
its type is no identifier. -/
theorem fan_declares_keyword :
    ∃ linked u m fs items, linkAll Module.link .empty [fanModule] = ⟨linked, u, .ok ()⟩ ∧
      m ∈ linked ∧ m.render {} = .ok fs ∧ (∀ c : CUnit, c.items {} m = .ok (items c)) ∧
      (Item.prototypes (items .declarations)).map (·.text) = ["void default(void);"] ∧
      "default" ∈ CUnit.symbols items ∧ "default" ∈ keywords ∧
      Item.typeNames (items .declarations) = ["Fan_Blade set"] ∧ ¬IsValid "Fan_Blade set" := by
  have h : linkAll Module.link .empty [fanModule] = ⟨_, _, .ok ()⟩ := rfl
  have hm : _ ∈ (linkAll Module.link .empty [fanModule]).part := List.mem_cons_self
  have hrender : (linkAll Module.link .empty [fanModule]).part[0].render {} = .ok _ := rfl
  obtain ⟨items, hitems⟩ := Classical.skolem.1 (exists_items_of_render hrender)
  have hdeclarations := Except.ok.inj ((hitems .declarations).1.symm.trans rfl)
  refine ⟨_, _, _, _, items, h, hm, hrender, fun c => (hitems c).1, by rw [hdeclarations]; decide, ?_,
    by decide, CUnit.typeNames_declarations (hitems .declarations).1, by decide⟩
  rw [symbols_eq fun c => (hitems c).1]
  decide

end Module

end WireStub
