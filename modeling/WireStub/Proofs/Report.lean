import WireStub.Proofs.Generate.Faults
import WireStub.Proofs.Generate.Prototypes
import WireStub.Proofs.Generate.Spelling
import WireStub.Proofs.Import.Linking
import WireStub.Proofs.Keyed
import WireStub.Proofs.Linking.Containment
import WireStub.Proofs.Linking.Homes
import WireStub.Proofs.ScopedName
import WireStub.Report

/-!
# Reports and generated code

A report is made without generating code, by resolving the declarations and building the dispatch table
once more.  It says of a module what the generated code of the module does.

* `nodup_display`: the declarations of a module are told apart by the texts of their paths, so no entry
  of a report stands in the place of another;
* `Statement.countP_isCaseLabel` counts the labels of a switch, and `CUnit.countP_isLabelLine` those among
  the lines of the unit that dispatches requests;
* `ModuleReport.Describes` says how a report and generated code correspond, and
  `ModuleReport.describes_of_ofModule` that they do;
* `Report.report_describes_generated` is the main statement.
-/

namespace WireStub

variable {m : Module} {o : Options} {fs : List GeneratedFile} {items : CUnit → List Item}

/-! ### Keys -/

/-- Declarations whose names have no colons are told apart by the texts of their paths. -/
theorem nodup_display {ms linked : List Module} {t u : SymbolTable}
    (h : linkAll Module.link t ms = ⟨linked, u, .ok ()⟩) (hm : m ∈ linked)
    (hplain : ∀ d ∈ m.declarations, ':' ∉ d.name.toList) :
    (m.declarations.map (·.path.display)).Nodup := by
  have hpaths := nodup_path_of_mem h hm
  refine hpaths.of_map.map_on fun d hd e he hsame => ?_
  obtain ⟨ss, hss, hd', hcolon⟩ := exists_names_path (q := (':' ∉ ·.toList)) h hm hplain hd
  obtain ⟨ts, hts, he', hcolon'⟩ := exists_names_path (q := (':' ∉ ·.toList)) h hm hplain he
  have hpath {p : ScopedName} {names : List String} (hp : p.segments = m.name :: names) :
      p = ⟨m.name :: names⟩ := congrArg ScopedName.mk hp
  rw [hpath hd', hpath he'] at hsame
  have hnames := ScopedName.eq_of_display_eq hss hts hcolon hcolon' hsame
  refine List.inj_on_of_nodup_map hpaths hd he ?_
  rw [hpath hd', hpath he', hnames]

/-! ### Labels -/

/-- Whether a step is the label of a case. -/
def Layout.Step.isCaseLabel : Step → Bool
  | .line text => "case ".toList.isPrefixOf text.toList
  | _ => false

/-- A switch has as many labels as cases. -/
theorem Statement.countP_isCaseLabel (selector : String) (cases : List DispatchCase)
    (otherwise : String) :
    (dispatch selector cases otherwise).layout.countP (·.isCaseLabel) = cases.length := by
  have hcase (c : DispatchCase) : (caseSteps c).countP (·.isCaseLabel) = 1 := by
    simp [caseSteps, Layout.Step.isCaseLabel, String.toList_append, List.isPrefixOf]
  have hcases : (cases.flatMap caseSteps).countP (·.isCaseLabel) = cases.length := by
    induction cases with
    | nil => rfl
    | cons c cs ih => rw [List.flatMap_cons, List.countP_append, hcase, ih, List.length_cons, Nat.add_comm]
  simp only [layout, Layout.braced, List.countP_cons, List.countP_append, hcases]
  simp [Layout.Step.isCaseLabel, String.toList_append, List.isPrefixOf]

/-- Whether a line is the label of a case.  Labels stand in a switch, which stands in a function. -/
def Layout.isLabelLine (l : Nat × String) : Bool := l.1 == 2 && "case ".toList.isPrefixOf l.2.toList

open Layout (isLabelLine)

theorem Function.countP_isLabelLine (f : Function) :
    f.lines.countP isLabelLine =
      (f.body.flatMap fun s => Layout.lines 1 s.layout).countP isLabelLine := by
  simp [lines, isLabelLine]

/-- A switch has as many lines with labels as cases. -/
theorem Statement.countP_switchLines (selector : String) (cases : List DispatchCase)
    (otherwise : String) :
    (switchLines 1 selector cases otherwise).countP isLabelLine = cases.length := by
  have hcase (c : DispatchCase) : (caseLines 2 c).countP isLabelLine = 1 := by
    simp [caseLines, isLabelLine, String.toList_append, List.isPrefixOf]
  have hcases : (cases.flatMap (caseLines 2)).countP isLabelLine = cases.length := by
    induction cases with
    | nil => rfl
    | cons c cs ih =>
      rw [List.flatMap_cons, List.countP_append, hcase, ih, List.length_cons, Nat.add_comm]
  simp only [switchLines, List.countP_cons, List.countP_append, hcases]
  simp [isLabelLine, List.isPrefixOf]

/-- The statements of a handler are single lines, so none of them is a label. -/
theorem Endpoint.countP_handler {e : Endpoint} {status : String} {f : Function}
    (hf : e.handler o status = .ok f) : f.lines.countP isLabelLine = 0 := by
  obtain ⟨c, ps, -, -, rfl⟩ := handler_eq_ok hf
  have hline : ∀ s ∈ e.handlerBody o status c ps, s.IsLine := by
    simp only [handlerBody, WireParameter.transfer, List.mem_append, List.mem_map, List.mem_cons,
      List.not_mem_nil, or_false]
    rintro s ((((((rfl | ⟨p, -, rfl⟩) | ⟨p, -, rfl⟩) | rfl) | rfl) | ⟨p, -, rfl⟩) | rfl | rfl) <;>
      exact ⟨_, fun _ => rfl⟩
  rw [Function.countP_isLabelLine, List.countP_eq_zero]
  intro l hl
  obtain ⟨s, hs, hl⟩ := List.mem_flatMap.1 hl
  obtain ⟨text, htext⟩ := hline s hs
  rw [htext, List.mem_singleton] at hl
  simp [hl, isLabelLine]

/-- Labels stand in functions only. -/
theorem Item.countP_isLabelLine (items : List Item) :
    (linesAll items).countP isLabelLine =
      ((functions items).flatMap Function.lines).countP isLabelLine := by
  induction items with
  | nil => rfl
  | cons i items ih =>
    have hone : i.lines.countP isLabelLine =
        ((functions [i]).flatMap Function.lines).countP isLabelLine := by
      cases i with
      | function f => simp [functions, lines]
      | structType name fields =>
        have hfields : (fields.map fun f => (1, f.declarator.text f.name ++ ";")).countP
            isLabelLine = 0 := by
          rw [List.countP_map, List.countP_eq_zero]
          simp [isLabelLine]
        simp [functions, lines, List.countP_append, hfields, isLabelLine]
      | _ => simp [functions, lines, includeLine, isLabelLine]
    have hcons : functions (i :: items) = functions [i] ++ functions items :=
      functions_append [i] items
    rw [linesAll, List.flatMap_cons, List.countP_append, ← linesAll, ih, hone, hcons,
      List.flatMap_append, List.countP_append]

/-- The labels among the lines of the unit that dispatches requests are those of its switches. -/
theorem CUnit.countP_isLabelLine {t : DispatchTable} {status : String} {hs : List Function}
    {source : List Item} (hhs : m.endpoints.mapM (·.handler o status) = .ok hs)
    (hfunctions : Item.functions source = dispatchers o status t ++ hs) :
    (Item.linesAll source).countP isLabelLine = t.size := by
  have hhandlers : (hs.flatMap Function.lines).countP isLabelLine = 0 := by
    rw [List.countP_eq_zero]
    intro l hl
    obtain ⟨f, hf, hl⟩ := List.mem_flatMap.1 hl
    obtain ⟨e, -, he⟩ := exists_left_of_mapM hhs hf
    exact List.countP_eq_zero.1 (Endpoint.countP_handler he) l hl
  rw [Item.countP_isLabelLine, hfunctions, List.flatMap_append, List.countP_append, hhandlers]
  simp [dispatchers, List.countP_append, Function.countP_isLabelLine, Statement.lines_dispatch,
    Statement.countP_switchLines, DispatchTable.size, Nat.add_assoc]

/-! ### The report of a module -/

namespace ModuleReport

variable {r : ModuleReport}

theorem declarationEntry_eq_ok_iff {d : Definition} {e : String × CType} :
    declarationEntry d = .ok e ↔ d.cType = .ok e.2 ∧ e.1 = d.path.display := by
  obtain ⟨key, c⟩ := e
  unfold declarationEntry
  cases d.cType with
  | error x => simp
  | ok c' => simp [and_comm, eq_comm]

/-- What a report says of a module is true of its generated code. -/
structure Describes (r : ModuleReport) (m : Module) (items : CUnit → List Item) : Prop where
  /-- The declarations are listed by their paths, in the order of emission, -/
  listed : r.declarations.map (·.1) = m.declarations.map (·.path.display)
  /-- each once. -/
  once : (r.declarations.map (·.1)).Nodup
  /-- The unit of declarations names their types as they are listed. -/
  types : Item.typeNames (items .declarations) = r.declarations.map (·.2.name)
  /-- The codec functions are those of the listed types, with prototypes in the header. -/
  codecs : (Item.functions (items .codecSource)).map (·.signature) =
      r.declarations.flatMap (fun e => Half.both.map (·.signature e.2)) ∧
    (Item.prototypes (items .codecHeader)).map (·.signature) =
      r.declarations.flatMap (fun e => Half.both.map (·.signature e.2))
  /-- What writes a value takes it as it is if its type is listed as a base type, and else a pointer. -/
  writers : ∀ e ∈ r.declarations, ∃ f ∈ Item.functions (items .codecSource),
    f.signature.name = e.2.codecPrefix ++ "_marshal" ∧
      f.signature.parameters.getLast? = some ⟨e.2.name, !e.2.isBase, "value"⟩
  /-- The cases are counted as the labels in the switches, of which handlers have none. -/
  labels : ∃ switches handlers, Item.functions (items .dispatchSource) = switches ++ handlers ∧
    switches.map (·.signature.name) = ["unmarshal", getDispatcher, setDispatcher] ∧
    (∀ f ∈ handlers, f.cases = []) ∧
    ((switches.flatMap (·.body)).flatMap (·.layout)).countP (·.isCaseLabel) = r.dispatchCases
  /-- There are no other labels among the lines of the unit. -/
  labelLines : (Item.linesAll (items .dispatchSource)).countP isLabelLine = r.dispatchCases

theorem ofModule_eq_ok (h : ofModule m = .ok r) : ∃ es t,
    m.declarations.mapM declarationEntry = .ok es ∧ DispatchTable.build m = .ok t ∧
      r = ⟨Keyed.ofList es, Keyed.ofList (attributeEntries m), t.size⟩ := by
  obtain ⟨es, hes, h⟩ := bind_eq_ok.1 h
  obtain ⟨t, ht, h⟩ := bind_eq_ok.1 h
  refine ⟨es, t, hes, ?_, (Except.ok.inj h).symm⟩
  cases hbuild : DispatchTable.build m with
  | error x => simp [hbuild, Except.mapError] at ht
  | ok t' => simpa [hbuild, Except.mapError] using ht

/-- A module that is generated has a report. -/
theorem exists_ofModule_of_render (h : m.render o = .ok fs) : ∃ r, ofModule m = .ok r := by
  obtain ⟨t, ht⟩ := (Module.exists_handler_of_render h).1
  obtain ⟨es, hes⟩ : ∃ es, m.declarations.mapM declarationEntry = .ok es := by
    refine exists_ok_of_forall fun x hx => ?_
    obtain ⟨d, hd, hx⟩ := exists_of_mapM_eq_error hx
    obtain ⟨i, hi⟩ := Module.exists_item_of_render h hd
    obtain ⟨c, hc, -⟩ := bind_eq_ok.1 hi
    cases hx.symm.trans (declarationEntry_eq_ok_iff.2 ⟨hc, rfl⟩ : declarationEntry d = .ok (_, c))
  refine ⟨⟨Keyed.ofList es, Keyed.ofList (attributeEntries m), t.size⟩, ?_⟩
  rw [ofModule, hes, ht]
  rfl

theorem map_signature_of_codecs {d : Definition} {e : String × CType} {fs : List Function}
    (hd : d.codecs = .ok fs) (he : declarationEntry d = .ok e) :
    fs.map (·.signature) = Half.both.map (·.signature e.2) := by
  obtain ⟨c, hc, hd⟩ := bind_eq_ok.1 hd
  obtain ⟨body, -, hd⟩ := bind_eq_ok.1 hd
  cases hc.symm.trans (declarationEntry_eq_ok_iff.1 he).1
  rw [← Except.ok.inj hd, List.map_map]
  rfl

/-- The report of a module describes its generated code, if the declarations are told apart. -/
theorem describes_of_ofModule (hkeys : (m.declarations.map (·.path.display)).Nodup)
    (h : ofModule m = .ok r) (hitems : ∀ u : CUnit, u.items o m = .ok (items u)) : r.Describes m items := by
  obtain ⟨es, t, hes, ht, rfl⟩ := ofModule_eq_ok h
  have hlisted : es.map (·.1) = m.declarations.map (·.path.display) :=
    map_eq_map_of_mapM (fun d e he => (declarationEntry_eq_ok_iff.1 he).2) hes
  have honce : (es.map (·.1)).Nodup := hlisted ▸ hkeys
  -- no entry has replaced another, so the report lists what was resolved
  rw [Keyed.ofList_eq_self honce]
  obtain ⟨fss, hfss, hfunctions⟩ := CUnit.functions_codecSource (hitems .codecSource)
  obtain ⟨t', hs, ht', hhs, hdispatch⟩ := CUnit.functions_dispatchSource (hitems .dispatchSource)
  cases ht.symm.trans ht'
  have hsignatures : (Item.functions (items .codecSource)).map (·.signature) =
      es.flatMap fun e => Half.both.map (·.signature e.2) := by
    have hcodecs : fss.map (List.map (·.signature)) = es.map fun e => Half.both.map (·.signature e.2) :=
      map_eq_of_mapM (fun _ _ _ => map_signature_of_codecs) hfss hes
    rw [hfunctions, List.map_flatten, hcodecs, List.flatMap_def]
  refine ⟨hlisted, honce, ?_, ⟨hsignatures, ?_⟩, fun e he => ?_, ⟨_, hs, hdispatch, rfl, ?_, ?_⟩,
    CUnit.countP_isLabelLine hhs hdispatch⟩
  · rw [CUnit.typeNames_declarations (hitems .declarations)]
    exact (map_eq_map_of_mapM (fun d e he =>
      Definition.name_of_cType (declarationEntry_eq_ok_iff.1 he).1) hes).symm
  · rw [Module.signatures_codecs (hitems .codecHeader) (hitems .codecSource), List.map_map,
      ← hsignatures]
    rfl
  · have hmem : Half.marshal.signature e.2 ∈ (Item.functions (items .codecSource)).map (·.signature) :=
      hsignatures ▸ List.mem_flatMap.2 ⟨e, he, List.mem_map_of_mem List.mem_cons_self⟩
    obtain ⟨f, hf, hsignature⟩ := List.mem_map.1 hmem
    exact ⟨f, hf, by rw [hsignature]; rfl, by rw [hsignature]; rfl⟩
  · intro f hf
    obtain ⟨e, -, he⟩ := exists_left_of_mapM hhs hf
    exact Endpoint.cases_handler he
  · simp [dispatchers, Statement.countP_isCaseLabel, DispatchTable.size, Nat.add_assoc]

end ModuleReport

/-! ### The report of a schema -/

namespace Report

theorem exists_ofSchema {s : Schema}
    (h : ∀ m ∈ s.mainModules, ∃ r, ModuleReport.ofModule m.module = .ok r) :
    ∃ report, ofSchema s = .ok report := by
  obtain ⟨entries, hentries⟩ := exists_ok_of_forall
    (x := s.mainModules.mapM fun m => do .ok (m.module.name, ← ModuleReport.ofModule m.module))
    fun x hx => by
      obtain ⟨m, hm, hx⟩ := exists_of_mapM_eq_error hx
      obtain ⟨r, hr⟩ := h m hm
      rw [hr] at hx
      cases hx
  exact ⟨⟨Keyed.ofList entries⟩, by rw [ofSchema, hentries]; rfl⟩

/-- The entry of a name is the report of the last main module with this name. -/
theorem lookup_of_ofSchema {s : Schema} {report : Report} (h : ofSchema s = .ok report)
    {before after : List LoadedModule} {m : LoadedModule} (hsplit : s.mainModules = before ++ m :: after)
    (hlast : m.module.name ∉ after.map (·.module.name)) :
    ∃ r, ModuleReport.ofModule m.module = .ok r ∧ report.modules.lookup m.module.name = some r := by
  obtain ⟨entries, hentries, h⟩ := bind_eq_ok.1 h
  rw [hsplit, List.mapM_append] at hentries
  obtain ⟨first, -, hentries⟩ := bind_eq_ok.1 hentries
  obtain ⟨rest, hrest, hentries⟩ := bind_eq_ok.1 hentries
  rw [List.mapM_cons] at hrest
  obtain ⟨entry, hentry, hrest⟩ := bind_eq_ok.1 hrest
  obtain ⟨last, hlast', hrest⟩ := bind_eq_ok.1 hrest
  obtain ⟨r, hr, hentry⟩ := bind_eq_ok.1 hentry
  have hnames : last.map (·.1) = after.map (·.module.name) :=
    map_eq_map_of_mapM (fun a e he => by
      obtain ⟨_, -, he⟩ := bind_eq_ok.1 he
      rw [← Except.ok.inj he]) hlast'
  refine ⟨r, hr, ?_⟩
  rw [← Except.ok.inj h, ← Except.ok.inj hentries, ← Except.ok.inj hrest, ← Except.ok.inj hentry]
  exact Keyed.lookup_ofList_last r first (hnames ▸ hlast)

/-- **What is generated is reported, as it is generated.**  Take a schema that links, as every schema does
that is loaded from files or from a text.  If the names of its declarations have no colons and every main
module is generated, under whatever options, then there is a report.  Its entry for a main module, the
last of its name, describes all code that is generated for the module, in the lines of its files. -/
theorem report_describes_generated {ms : List LoadedModule} {s : Schema}
    (h : Schema.ofModules ms = .ok s)
    (hplain : ∀ m ∈ s.modules, ∀ d ∈ m.module.declarations, ':' ∉ d.name.toList)
    (hgenerated : ∀ m ∈ s.mainModules, ∃ o fs, m.module.render o = .ok fs) :
    ∃ report, ofSchema s = .ok report ∧
      ∀ before m after, s.mainModules = before ++ m :: after →
        m.module.name ∉ after.map (·.module.name) →
        ∃ r, report.modules.lookup m.module.name = some r ∧
          ∀ o fs, m.module.render o = .ok fs → ∃ items : CUnit → List Item,
            (∀ u, u.items o m.module = .ok (items u) ∧
              ⟨u.fileName m.module.name, Layout.page o.indentText (Item.linesAll (items u))⟩ ∈ fs) ∧
              r.Describes m.module items := by
  obtain ⟨u, hlinked⟩ := Schema.linkAll_of_ofModules h
  obtain ⟨report, hreport⟩ := exists_ofSchema fun m hm => by
    obtain ⟨o, fs, hfs⟩ := hgenerated m hm
    exact ModuleReport.exists_ofModule_of_render hfs
  refine ⟨report, hreport, fun before m after hsplit hlast => ?_⟩
  obtain ⟨r, hr, hlookup⟩ := lookup_of_ofSchema hreport hsplit hlast
  have hm : m ∈ s.modules := by
    refine List.mem_of_mem_filter (p := (·.isMain)) ?_
    rw [← Schema.mainModules, hsplit]
    exact List.mem_append_right _ List.mem_cons_self
  have hkeys := nodup_display hlinked (List.mem_map_of_mem hm) (hplain m hm)
  refine ⟨r, hlookup, fun o fs hfs => ?_⟩
  obtain ⟨items, hitems⟩ := Classical.skolem.1 (Module.exists_page_of_render hfs)
  exact ⟨items, hitems, ModuleReport.describes_of_ofModule hkeys hr fun u => (hitems u).1⟩

/-- Two modules of one name, the first of them empty. -/
def dialModules : List LoadedModule :=
  let level : Operation := ⟨"level", .void, [⟨"value", .declared (.unlinked "Level"), .inout⟩], []⟩
  [⟨⟨"Dial", [], []⟩, ⟨["dial.yaml"]⟩, true⟩,
    ⟨⟨"Dial", [.struct ⟨"Level", .root, [⟨"heights", .primitive .float, [2]⟩]⟩,
      .enum ⟨"Side", .root, ["LEFT", "RIGHT"]⟩], [⟨"Attributes", .root, [level]⟩]⟩,
      ⟨["dial.yaml"]⟩, true⟩]

theorem report_describes_generated_dial :
    ∃ s report m r items, Schema.ofModules dialModules = .ok s ∧ ofSchema s = .ok report ∧
      report.modules.lookup "Dial" = some r ∧
      r.declarations =
        [("Dial::Level", ⟨"Dial_Level", false⟩), ("Dial::Side", ⟨"Dial_Side", true⟩)] ∧
      r.dispatchCases = 4 ∧ r.Describes m items := by
  have h : Schema.ofModules dialModules = .ok _ := rfl
  obtain ⟨report, hreport, hentries⟩ := report_describes_generated h (by decide) (by
    intro m hm
    rcases List.mem_cons.1 hm with rfl | hm
    · exact ⟨{}, _, rfl⟩
    · obtain rfl := List.mem_singleton.1 hm
      exact ⟨{}, _, rfl⟩)
  obtain ⟨r, hlookup, hdescribes⟩ := hentries [_] _ [] rfl List.not_mem_nil
  obtain ⟨items, -, hitems⟩ := hdescribes {} _ rfl
  obtain rfl := Except.ok.inj ((rfl : ofSchema _ = .ok _).symm.trans hreport)
  obtain rfl := Option.some.inj ((rfl : List.lookup _ _ = some _).symm.trans hlookup)
  exact ⟨_, _, _, _, items, h, hreport, hlookup, by decide, by decide, hitems⟩

end Report

end WireStub
