import WireStub.Proofs.Dispatch.Routing
import WireStub.Proofs.Generate.Units

/-!
# Prototypes

Generated functions are declared in one place and defined in another: codec functions and stubs in the
header and the source of a unit, handlers at the beginning of the source.  Declarations and definitions
have the same signatures in the same order.

* `Definition.codecPrototypes_eq`, `Endpoint.stubPrototype_eq` and `Endpoint.handlerPrototype_eq` compare
  a prototype with the function that it declares, and `Module.signatures_codecs` and its kin compare
  whole units;
* `Statement.cases` are the cases of the switches of a statement.  They stand in its lines
  (`Statement.infix_lines_of_mem_cases`), and each of them leads to one function (`Module.count_handler`);
* `Module.functions_are_declared` is the main statement.
-/

namespace WireStub

/-! ### Signatures -/

/-- The comment of a prototype on exceptions. -/
def Prototype.comment (p : Prototype) : String :=
  if p.raises.isEmpty then "" else " /* raises (" ++ String.intercalate ", " p.raises ++ ") */"

/-- The lines that declare functions without a comment. -/
theorem Prototype.map_text (isExtern : Bool) (fs : List Function) :
    (fs.map fun f => (⟨isExtern, f.signature, []⟩ : Prototype)).map (·.text) =
      fs.map fun f => (if isExtern then "extern " else "") ++ f.signature.text ++ ";" := by
  rw [List.map_map]
  exact List.map_congr_left fun f _ => by simp [text]

theorem Definition.codecPrototypes_eq {d : Definition} {ps : List Prototype} {fs : List Function}
    (hps : d.codecPrototypes = .ok ps) (hfs : d.codecs = .ok fs) :
    ps = fs.map fun f => ⟨true, f.signature, []⟩ := by
  obtain ⟨c, hc, hps⟩ := bind_eq_ok.1 hps
  obtain ⟨c', hc', hfs⟩ := bind_eq_ok.1 hfs
  obtain ⟨body, -, hfs⟩ := bind_eq_ok.1 hfs
  cases hc.symm.trans hc'
  rw [← Except.ok.inj hps, ← Except.ok.inj hfs, List.map_map]
  rfl

theorem Endpoint.stubPrototype_eq {o : Options} {e : Endpoint} {p : Prototype} {f : Function}
    (hp : e.stubPrototype o = .ok p) (hf : e.stub o = .ok f) : p = ⟨false, f.signature, e.raises⟩ := by
  obtain ⟨s, hs, rfl⟩ := stubPrototype_eq_ok hp
  obtain ⟨c, -, hf⟩ := bind_eq_ok.1 hf
  obtain ⟨ps, -, hf⟩ := bind_eq_ok.1 hf
  obtain ⟨s', hs', hf⟩ := bind_eq_ok.1 hf
  cases hs.symm.trans hs'
  rw [← Except.ok.inj hf]

/-- The prototypes of server functions and of stubs list the exceptions of the operation. -/
theorem Endpoint.raises_of_serverPrototype {e : Endpoint} {p : Prototype}
    (hp : e.serverPrototype = .ok p) : p.raises = e.raises := by
  obtain ⟨s, -, rfl⟩ := serverPrototype_eq_ok hp
  rfl

theorem Endpoint.raises_of_stubPrototype {o : Options} {e : Endpoint} {p : Prototype}
    (hp : e.stubPrototype o = .ok p) : p.raises = e.raises := by
  obtain ⟨s, -, rfl⟩ := stubPrototype_eq_ok hp
  rfl

theorem Endpoint.handlerPrototype_eq {o : Options} {status : String} {e : Endpoint} {f : Function}
    (hf : e.handler o status = .ok f) : e.handlerPrototype status = ⟨false, f.signature, []⟩ := by
  obtain ⟨c, ps, -, -, rfl⟩ := handler_eq_ok hf
  rfl

/-! ### Cases -/

/-- The cases of the switches of a statement. -/
def Statement.cases : Statement → List DispatchCase
  | dispatch _ cases _ => cases
  | loop _ _ body => body.cases
  | _ => []

/-- The cases of the switches of a function. -/
def Function.cases (f : Function) : List DispatchCase := f.body.flatMap (·.cases)

/-- Each case of a statement is written in its lines. -/
theorem Statement.infix_lines_of_mem_cases {c : DispatchCase} {s : Statement} (h : c ∈ s.cases)
    (level : Nat) : ∃ deep, caseLines deep c <:+: Layout.lines level s.layout := by
  induction s generalizing level with
  | dispatch selector cases otherwise =>
    refine ⟨level + 1, ?_⟩
    rw [lines_dispatch, switchLines]
    have hcase : caseLines (level + 1) c <:+: cases.flatMap (caseLines (level + 1)) :=
      List.infix_of_mem_flatten (List.mem_map_of_mem h)
    exact (hcase.trans (List.prefix_append _ _).isInfix).trans
      (List.infix_cons (List.suffix_cons _ _).isInfix)
  | loop depth bound body ih =>
    obtain ⟨deep, hdeep⟩ := ih h (level + 1)
    refine ⟨deep, ?_⟩
    rw [lines_loop]
    exact (hdeep.trans (List.prefix_append _ _).isInfix).trans
      (List.infix_cons (List.suffix_cons _ _).isInfix)
  | _ => cases h

theorem Function.infix_lines_of_mem_cases {c : DispatchCase} {f : Function} (h : c ∈ f.cases) :
    ∃ level, Statement.caseLines level c <:+: f.lines := by
  obtain ⟨s, hs, hc⟩ := List.mem_flatMap.1 h
  obtain ⟨level, hlines⟩ := s.infix_lines_of_mem_cases hc 1
  have hbody : Layout.lines 1 s.layout <:+: f.body.flatMap fun s => Layout.lines 1 s.layout :=
    List.infix_of_mem_flatten (List.mem_map_of_mem hs)
  refine ⟨level, (hlines.trans hbody).trans ?_⟩
  rw [lines]
  exact (List.prefix_append _ _).isInfix.trans (List.infix_cons (List.suffix_cons _ _).isInfix)

theorem Endpoint.cases_handler {o : Options} {status : String} {e : Endpoint} {f : Function}
    (hf : e.handler o status = .ok f) : f.cases = [] := by
  obtain ⟨c, ps, -, -, rfl⟩ := handler_eq_ok hf
  simp only [Function.cases, handlerBody, WireParameter.transfer, List.flatMap_eq_nil_iff,
    List.mem_append, List.mem_map, List.mem_cons, List.not_mem_nil, or_false]
  rintro s ((((((rfl | ⟨p, -, rfl⟩) | ⟨p, -, rfl⟩) | rfl) | rfl) | ⟨p, -, rfl⟩) | rfl | rfl) <;>
    rfl

/-- The cases of the dispatchers are those of the table. -/
theorem mem_cases_of_dispatchers {o : Options} {status : String} {t : DispatchTable} {f : Function}
    (hf : f ∈ dispatchers o status t) {c : DispatchCase} (hc : c ∈ f.cases) : c ∈ t.cases := by
  simp only [dispatchers, List.mem_cons, List.not_mem_nil, or_false] at hf
  rw [DispatchTable.cases, List.mem_append, List.mem_append]
  rcases hf with rfl | rfl | rfl <;> simp only [Function.cases, List.flatMap_cons,
    List.flatMap_nil, List.append_nil, Statement.cases] at hc
  · exact .inl (.inl hc)
  · exact .inl (.inr hc)
  · exact .inr hc

namespace Module

variable {o : Options} {m : Module}

/-- Every case leads to a function by its name, and no other function has that name. -/
theorem count_handler {status : String} {t : DispatchTable} {hs : List Function}
    (ht : DispatchTable.build m = .ok t)
    (hhs : m.endpoints.mapM (·.handler o status) = .ok hs) {f : Function}
    (hf : f ∈ dispatchers o status t ++ hs) {c : DispatchCase} (hc : c ∈ f.cases) :
    ((dispatchers o status t ++ hs).map (·.signature.name)).count c.handler = 1 := by
  obtain ⟨hsep, rfl⟩ := DispatchTable.build_eq_ok_iff.1 ht
  have hnodup : ((dispatchers o status (.ofEndpoints m.endpoints) ++ hs).map
      (·.signature.name)).Nodup := by
    rw [← filterMap_toOption_of_mapM hhs]
    exact nodup_names hsep _
  refine List.count_eq_one_of_mem hnodup ?_
  rcases List.mem_append.1 hf with hf | hf
  · have hhandler : c.handler ∈ (DispatchTable.ofEndpoints m.endpoints).handlers :=
      List.mem_map_of_mem (mem_cases_of_dispatchers hf hc)
    rw [List.map_append, List.mem_append]
    rcases DispatchTable.mem_handlers.1 hhandler with h | h | ⟨e, he, h⟩
    · exact .inl (by simp [h, dispatchers, dispatcherSignature])
    · exact .inl (by simp [h, dispatchers, dispatcherSignature])
    · obtain ⟨g, hg, hhandler⟩ := exists_mem_of_mapM hhs he
      exact .inr (List.mem_map.2 ⟨g, hg, (Endpoint.name_of_handler_eq_ok hhandler).trans h⟩)
  · -- handlers have no switches
    obtain ⟨e, -, he⟩ := exists_left_of_mapM hhs hf
    rw [Endpoint.cases_handler he] at hc
    cases hc

theorem signatures_codecs {header source : List Item}
    (hheader : CUnit.codecHeader.items o m = .ok header)
    (hsource : CUnit.codecSource.items o m = .ok source) :
    Item.prototypes header = (Item.functions source).map fun f => ⟨true, f.signature, []⟩ := by
  obtain ⟨pss, hpss, hps⟩ := CUnit.prototypes_codecHeader hheader
  obtain ⟨fss, hfss, hfs⟩ := CUnit.functions_codecSource hsource
  have hsame : pss.map id = fss.map (List.map fun f => ⟨true, f.signature, []⟩) :=
    map_eq_of_mapM (fun d _ _ => Definition.codecPrototypes_eq) hpss hfss
  rw [hps, hfs, List.map_flatten, ← hsame, List.map_id]

theorem signatures_stubs {header source : List Item}
    (hheader : CUnit.stubHeader.items o m = .ok header)
    (hsource : CUnit.stubSource.items o m = .ok source) :
    (Item.prototypes header).map (fun p => (p.isExtern, p.signature)) =
        (Item.functions source).map (fun f => (false, f.signature)) ∧
      (Item.prototypes header).map (·.raises) = m.endpoints.map (·.raises) := by
  have hps := CUnit.prototypes_stubHeader hheader
  have hfs := CUnit.functions_stubSource hsource
  refine ⟨map_eq_of_mapM (fun e p f hp hf => ?_) hps hfs,
    map_eq_map_of_mapM (fun _ _ => Endpoint.raises_of_stubPrototype) hps⟩
  rw [Endpoint.stubPrototype_eq hp hf]

theorem isStatic_of_mem_handlers {status : String} {hs : List Function}
    (hhs : m.endpoints.mapM (·.handler o status) = .ok hs) :
    ∀ f ∈ hs, f.signature.isStatic = true := by
  intro f hf
  obtain ⟨e, -, he⟩ := exists_left_of_mapM hhs hf
  obtain ⟨c, ps, -, -, rfl⟩ := Endpoint.handler_eq_ok he
  rfl

theorem signatures_handlers {source : List Item}
    (h : CUnit.dispatchSource.items o m = .ok source) :
    Item.prototypes source =
        ((Item.functions source).filter (·.signature.isStatic)).map
          fun f => ⟨false, f.signature, []⟩ := by
  obtain ⟨ps, hps, hprototypes⟩ := CUnit.prototypes_dispatchSource h
  obtain ⟨t, hs, ht, hhs, hfunctions⟩ := CUnit.functions_dispatchSource h
  have hsame : ps.map id = hs.map fun f => ⟨false, f.signature, []⟩ :=
    map_eq_of_mapM (fun e p f hp hf => by
      rw [← Except.ok.inj hp]
      exact Endpoint.handlerPrototype_eq hf) hps hhs
  have hstatic : hs.filter (·.signature.isStatic) = hs :=
    List.filter_eq_self.2 (isStatic_of_mem_handlers hhs)
  rw [hprototypes, hfunctions, List.filter_append, hstatic, List.map_append, ← hsame, List.map_id]
  rfl

/-- Other files see the function for requests as it is defined. -/
theorem signatures_dispatcher {header source : List Item}
    (hheader : CUnit.dispatchHeader.items o m = .ok header)
    (hsource : CUnit.dispatchSource.items o m = .ok source) :
    Item.prototypes header =
        ((Item.functions source).filter (!·.signature.isStatic)).map
          fun f => ⟨true, f.signature, []⟩ := by
  obtain ⟨t, hs, -, hhs, hfunctions⟩ := CUnit.functions_dispatchSource hsource
  have hstatic : hs.filter (!·.signature.isStatic) = [] :=
    List.filter_eq_nil_iff.2 fun f hf => by simp [isStatic_of_mem_handlers hhs f hf]
  rw [CUnit.prototypes_dispatchHeader hheader, hfunctions, List.filter_append, hstatic]
  rfl

/-- **Functions are declared as they are defined.**  In the files of a module that is generated, the
prototypes of codec functions and of stubs are those of the functions that are defined, in the same
order, with `extern` or with a comment on exceptions.  The source for requests declares its own
functions as it defines them, the header the one that is left, and each case of a switch leads to one
function that is defined there.  All of this stands in the lines of the files: each prototype, the
signature at the beginning of each definition, and the two lines of each case. -/
theorem functions_are_declared {fs : List GeneratedFile} (h : m.render o = .ok fs) :
    ∃ items : CUnit → List Item,
      (∀ u, u.items o m = .ok (items u) ∧
        ⟨u.fileName m.name, Layout.page o.indentText (Item.linesAll (items u))⟩ ∈ fs ∧
        ((Item.prototypes (items u)).map fun p => (0, p.text)).Sublist (Item.linesAll (items u)) ∧
        ((Item.functions (items u)).map fun f => (0, f.signature.text)).Sublist
          (Item.linesAll (items u))) ∧
      ((Item.prototypes (items .codecHeader)).map (·.text) =
          (Item.functions (items .codecSource)).map fun f => "extern " ++ f.signature.text ++ ";") ∧
      ((Item.prototypes (items .stubHeader)).map (·.signature) =
          (Item.functions (items .stubSource)).map (·.signature) ∧
        (∀ p ∈ Item.prototypes (items .stubHeader),
          p.text = p.signature.text ++ p.comment ++ ";") ∧
        (Item.prototypes (items .stubHeader)).map (·.raises) = m.endpoints.map (·.raises)) ∧
      ((Item.prototypes (items .dispatchHeader)).map (·.text) =
          ((Item.functions (items .dispatchSource)).filter (!·.signature.isStatic)).map
            fun f => "extern " ++ f.signature.text ++ ";") ∧
      ((Item.prototypes (items .dispatchSource)).map (·.text) =
          ((Item.functions (items .dispatchSource)).filter (·.signature.isStatic)).map
            fun f => f.signature.text ++ ";") ∧
      ∀ f ∈ Item.functions (items .dispatchSource), ∀ c ∈ f.cases,
        (∃ level, Statement.caseLines level c <:+: f.lines) ∧
          ((Item.functions (items .dispatchSource)).map (·.signature.name)).count c.handler = 1 := by
  obtain ⟨items, hitems⟩ := Classical.skolem.1 (exists_page_of_render h)
  have hcodecs := signatures_codecs (hitems .codecHeader).1 (hitems .codecSource).1
  obtain ⟨hstubs, hraises⟩ := signatures_stubs (hitems .stubHeader).1 (hitems .stubSource).1
  have hdispatcher := signatures_dispatcher (hitems .dispatchHeader).1 (hitems .dispatchSource).1
  have hhandlers := signatures_handlers (hitems .dispatchSource).1
  refine ⟨items, fun u => ⟨(hitems u).1, (hitems u).2, Item.sublist_prototypes _,
    Item.sublist_functions _⟩, ?_, ⟨?_, fun p hp => ?_, hraises⟩, ?_, ?_,
    fun f hf c hc => ⟨Function.infix_lines_of_mem_cases hc, ?_⟩⟩
  · rw [hcodecs, Prototype.map_text, if_pos rfl]
  · have hsignatures := congrArg (List.map Prod.snd) hstubs
    simpa [Function.comp_def] using hsignatures
  · have hextern : (p.isExtern, p.signature) ∈
        (Item.functions (items .stubSource)).map fun f => (false, f.signature) :=
      hstubs ▸ List.mem_map_of_mem hp
    obtain ⟨f, -, hf⟩ := List.mem_map.1 hextern
    simp [Prototype.text, Prototype.comment, ← (Prod.mk.inj hf).1]
  · rw [hdispatcher, Prototype.map_text, if_pos rfl]
  · rw [hhandlers, Prototype.map_text]
    simp
  · obtain ⟨t, hs, ht, hhs, hfunctions⟩ :=
      CUnit.functions_dispatchSource (hitems .dispatchSource).1
    rw [hfunctions] at hf ⊢
    exact count_handler ht hhs hf hc

/-- Options under which stubs take the number of the instance. -/
def instanceOptions : Options := { stubInstanceArgument := true }

theorem functions_are_declared_climate :
    ∃ fs header source, climate.render instanceOptions = .ok fs ∧
      CUnit.stubHeader.items instanceOptions climate = .ok header ∧
      CUnit.stubSource.items instanceOptions climate = .ok source ∧
      (Item.prototypes header).map (·.signature) = (Item.functions source).map (·.signature) ∧
      (Item.functions source).map (·.signature.text) =
        ["void Control_stubreset(uint16_t instanceNum, uint8_t zone)",
          "int32_t Attributes_stubget_level(uint16_t instanceNum, int32_t *value)",
          "int32_t Attributes_stubset_level(uint16_t instanceNum, int32_t value)"] ∧
      ⟨"Climate_stub.c", Layout.page "  " (Item.linesAll source)⟩ ∈ fs ∧
      ((Item.functions source).map fun f => (0, f.signature.text)).Sublist
        (Item.linesAll source) := by
  obtain ⟨items, hitems, -, ⟨hstubs, -⟩, -⟩ :=
    functions_are_declared (m := climate) (o := instanceOptions) rfl
  obtain ⟨hsource, hfile, -, hwritten⟩ := hitems .stubSource
  have hitself := Except.ok.inj (hsource.symm.trans rfl)
  exact ⟨_, _, _, rfl, (hitems .stubHeader).1, hsource, hstubs, by rw [hitself]; rfl, hfile,
    hwritten⟩

end Module

end WireStub
