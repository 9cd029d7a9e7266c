import WireStub.Proofs.Generate.Success
import Mathlib.Data.List.Nodup

/-!
# Dispatch tables

A dispatch table is built endpoint by endpoint, and each is checked against the cases before it.  The
checks are local, yet they amount to a condition on the names of the endpoints alone
(`DispatchTable.build_eq_ok_iff`): what is refused is a clash, and no clash is missed.

* `DispatchTable.ofEndpoints` is the table of a list of endpoints, without checks;
* `Separate` is the condition: no two handlers have the same name, and none takes a reserved name;
* `add_ofEndpoints` is the step, and `foldlM_add` the run.
-/

namespace WireStub

/-- Endpoints whose handlers and codes do not clash, neither with each other nor with the reserved
ones. -/
structure Separate (es : List Endpoint) : Prop where
  /-- No two handlers have the same name. -/
  handlers : (es.map (·.handlerName)).Nodup
  /-- No handler is named as one of the dispatchers. -/
  dispatchers : ∀ e ∈ es, e.handlerName ≠ getDispatcher ∧ e.handlerName ≠ setDispatcher
  /-- No service is named as one of the reserved codes. -/
  services : ∀ e ∈ es, e.role = .plain →
    e.operation.name ≠ "getAttribute" ∧ e.operation.name ≠ "setAttribute"

theorem Separate.of_append {es fs : List Endpoint} (h : Separate (es ++ fs)) : Separate es where
  handlers := h.handlers.sublist ((List.sublist_append_left es fs).map _)
  dispatchers e he := h.dispatchers e (List.mem_append_left fs he)
  services e he := h.services e (List.mem_append_left fs he)

namespace Endpoint

variable {e f : Endpoint}

/-- Under one role, the code of an endpoint determines the name of its operation. -/
theorem name_eq_of_code_eq (hr : e.role = f.role) (h : e.code = f.code) :
    e.operation.name = f.operation.name := by
  unfold code at h
  rw [hr] at h
  cases hf : f.role with
  | plain =>
    rw [hf] at h
    exact (String.append_right_inj "k_SC_").1 h
  | getter =>
    rw [hf] at h
    exact (String.append_right_inj "k_AC_").1 h
  | setter =>
    rw [hf] at h
    exact (String.append_right_inj "k_AC_").1 h

theorem handlerName_eq_of_name_eq (hr : e.role = f.role)
    (h : e.operation.name = f.operation.name) : e.handlerName = f.handlerName := by
  rw [handlerName, handlerName, functionName, functionName, hr, h]

theorem code_eq_of_name_eq (hr : e.role = f.role) (h : e.operation.name = f.operation.name) :
    e.code = f.code := by
  unfold code
  rw [hr, serviceCode, serviceCode, attributeCode, attributeCode, h]

theorem code_eq_reserved_iff (hr : e.role = .plain) :
    (e.code = getAttributeCode ↔ e.operation.name = "getAttribute") ∧
      (e.code = setAttributeCode ↔ e.operation.name = "setAttribute") := by
  have hcode : e.code = "k_SC_" ++ e.operation.name := by rw [code, hr]; rfl
  have hget : getAttributeCode = "k_SC_" ++ "getAttribute" := by decide
  have hset : setAttributeCode = "k_SC_" ++ "setAttribute" := by decide
  rw [hcode, hget, hset]
  exact ⟨String.append_right_inj _, String.append_right_inj _⟩

end Endpoint

namespace DispatchTable

/-- The cases of the endpoints of a role. -/
def casesOf (es : List Endpoint) (r : Role) : List DispatchCase :=
  (es.filter fun e => e.role = r).map (·.case)

/-- The table of endpoints: behind the reserved services the cases of each role, in order. -/
def ofEndpoints (es : List Endpoint) : DispatchTable :=
  ⟨reserved.services ++ casesOf es .plain, casesOf es .getter, casesOf es .setter⟩

theorem casesOf_append (es fs : List Endpoint) (r : Role) :
    casesOf (es ++ fs) r = casesOf es r ++ casesOf fs r := by
  rw [casesOf, List.filter_append, List.map_append]
  rfl

theorem mem_casesOf {es : List Endpoint} {r : Role} {c : DispatchCase} :
    c ∈ casesOf es r ↔ ∃ e ∈ es, e.role = r ∧ e.case = c := by
  simp only [casesOf, List.mem_map, List.mem_filter, decide_eq_true_eq, and_assoc]

theorem push_ofEndpoints (es : List Endpoint) (e : Endpoint) :
    (ofEndpoints es).push e.case e.role = ofEndpoints (es ++ [e]) := by
  have hself : casesOf [e] e.role = [e.case] := by simp [casesOf]
  have hother (r : Role) (h : e.role ≠ r) : casesOf [e] r = [] := by simp [casesOf, h]
  cases hr : e.role <;> rw [hr] at hself hother <;>
    simp [ofEndpoints, push, casesOf_append, hself, hother]

theorem mem_casesFor {es : List Endpoint} {r : Role} {c : DispatchCase} :
    c ∈ (ofEndpoints es).casesFor r ↔
      (r = .plain ∧ c ∈ reserved.services) ∨ ∃ e ∈ es, e.role = r ∧ e.case = c := by
  cases r with
  | plain => simp only [casesFor, ofEndpoints, List.mem_append, mem_casesOf, true_and]
  | getter => simp [casesFor, ofEndpoints, mem_casesOf]
  | setter => simp [casesFor, ofEndpoints, mem_casesOf]

theorem mem_handlers {es : List Endpoint} {n : String} :
    n ∈ (ofEndpoints es).handlers ↔
      n = getDispatcher ∨ n = setDispatcher ∨ ∃ e ∈ es, e.handlerName = n := by
  have hcases (r : Role) :
      n ∈ (casesOf es r).map (·.handler) ↔ ∃ e ∈ es, e.role = r ∧ e.handlerName = n := by
    simp only [List.mem_map, mem_casesOf]
    constructor
    · rintro ⟨_, ⟨e, he, hr, rfl⟩, rfl⟩
      exact ⟨e, he, hr, rfl⟩
    · rintro ⟨e, he, hr, rfl⟩
      exact ⟨e.case, ⟨e, he, hr, rfl⟩, rfl⟩
  simp only [handlers, cases, ofEndpoints, List.map_append, List.mem_append, hcases]
  constructor
  · rintro (((h | ⟨e, he, -, hn⟩) | ⟨e, he, -, hn⟩) | ⟨e, he, -, hn⟩)
    · simp only [reserved, List.map_cons, List.map_nil, List.mem_cons, List.not_mem_nil,
        or_false] at h
      exact h.imp_right .inl
    all_goals exact .inr (.inr ⟨e, he, hn⟩)
  · rintro (rfl | rfl | ⟨e, he, hn⟩)
    · exact .inl (.inl (.inl (by simp [reserved])))
    · exact .inl (.inl (.inl (by simp [reserved])))
    · cases hr : e.role with
      | plain => exact .inl (.inl (.inr ⟨e, he, hr, hn⟩))
      | getter => exact .inl (.inr ⟨e, he, hr, hn⟩)
      | setter => exact .inr ⟨e, he, hr, hn⟩

/-- What an endpoint has to satisfy for its case to be added behind those of others. -/
structure Fits (es : List Endpoint) (e : Endpoint) : Prop where
  handler : ∀ f ∈ es, f.handlerName ≠ e.handlerName
  dispatchers : e.handlerName ≠ getDispatcher ∧ e.handlerName ≠ setDispatcher
  service : e.role = .plain →
    e.operation.name ≠ "getAttribute" ∧ e.operation.name ≠ "setAttribute"

theorem separate_append_singleton {es : List Endpoint} {e : Endpoint} :
    Separate (es ++ [e]) ↔ Separate es ∧ Fits es e := by
  have hmem (f : Endpoint) : f ∈ es ++ [e] ↔ f ∈ es ∨ f = e := by simp
  constructor
  · intro h
    have hnodup := h.handlers
    rw [List.map_append, List.nodup_append] at hnodup
    refine ⟨⟨hnodup.1, fun f hf => h.dispatchers f ((hmem f).2 (.inl hf)),
      fun f hf => h.services f ((hmem f).2 (.inl hf))⟩, ⟨fun f hf => ?_,
      h.dispatchers e ((hmem e).2 (.inr rfl)), h.services e ((hmem e).2 (.inr rfl))⟩⟩
    exact hnodup.2.2 _ (List.mem_map_of_mem hf) _ (by simp)
  · rintro ⟨hes, he⟩
    refine ⟨?_, fun f hf => ?_, fun f hf => ?_⟩
    · rw [List.map_append, List.nodup_append]
      refine ⟨hes.handlers, by simp, fun a ha b hb => ?_⟩
      obtain ⟨f, hf, rfl⟩ := List.mem_map.1 ha
      obtain rfl := List.mem_singleton.1 hb
      exact he.handler f hf
    · rcases (hmem f).1 hf with hf | rfl
      · exact hes.dispatchers f hf
      · exact he.dispatchers
    · rcases (hmem f).1 hf with hf | rfl
      · exact hes.services f hf
      · exact he.service

/-- A code that is taken is reserved, or its handler is taken too. -/
theorem code_taken_iff {es : List Endpoint} {e : Endpoint} :
    (∃ c ∈ (ofEndpoints es).casesFor e.role, c.code = e.code) ↔
      (e.role = .plain ∧ (e.operation.name = "getAttribute" ∨ e.operation.name = "setAttribute")) ∨
        ∃ f ∈ es, f.role = e.role ∧ f.operation.name = e.operation.name := by
  simp only [mem_casesFor]
  constructor
  · rintro ⟨c, ⟨hr, hc⟩ | ⟨f, hf, hr, rfl⟩, hcode⟩
    · obtain ⟨hget, hset⟩ := Endpoint.code_eq_reserved_iff hr
      simp only [reserved, List.mem_cons, List.not_mem_nil, or_false] at hc
      rcases hc with rfl | rfl
      · exact .inl ⟨hr, .inl (hget.1 hcode.symm)⟩
      · exact .inl ⟨hr, .inr (hset.1 hcode.symm)⟩
    · exact .inr ⟨f, hf, hr, Endpoint.name_eq_of_code_eq hr hcode⟩
  · rintro (⟨hr, hname⟩ | ⟨f, hf, hr, hname⟩)
    · obtain ⟨hget, hset⟩ := Endpoint.code_eq_reserved_iff hr
      rcases hname with hname | hname
      · exact ⟨⟨getAttributeCode, getDispatcher⟩, .inl ⟨hr, by simp [reserved]⟩,
          (hget.2 hname).symm⟩
      · exact ⟨⟨setAttributeCode, setDispatcher⟩, .inl ⟨hr, by simp [reserved]⟩,
          (hset.2 hname).symm⟩
    · exact ⟨f.case, .inr ⟨f, hf, hr, rfl⟩, Endpoint.code_eq_of_name_eq hr hname⟩

/-- The checks of `add` amount to a condition on names.  The code needs no condition of its own
against earlier endpoints: where it is taken, so is the handler. -/
theorem fits_iff {es : List Endpoint} {e : Endpoint} :
    Fits es e ↔ (∀ c ∈ (ofEndpoints es).casesFor e.role, c.code ≠ e.code) ∧
      e.handlerName ∉ (ofEndpoints es).handlers := by
  have hcode : (∀ c ∈ (ofEndpoints es).casesFor e.role, c.code ≠ e.code) ↔
      ¬∃ c ∈ (ofEndpoints es).casesFor e.role, c.code = e.code := by
    simp only [ne_eq, not_exists, not_and]
  rw [hcode, code_taken_iff, mem_handlers]
  constructor
  · intro h
    refine ⟨?_, ?_⟩
    · rintro (⟨hr, hname⟩ | ⟨f, hf, hr, hname⟩)
      · exact hname.elim (h.service hr).1 (h.service hr).2
      · exact h.handler f hf (Endpoint.handlerName_eq_of_name_eq hr hname)
    · rintro (hget | hset | ⟨f, hf, hname⟩)
      · exact h.dispatchers.1 hget
      · exact h.dispatchers.2 hset
      · exact h.handler f hf hname
  · -- a code that is free of reserved ones is all that is left of the check on codes
    rintro ⟨hcodes, hhandlers⟩
    refine ⟨fun f hf hname => hhandlers (.inr (.inr ⟨f, hf, hname⟩)),
      ⟨fun h => hhandlers (.inl h), fun h => hhandlers (.inr (.inl h))⟩, fun hr => ?_⟩
    exact ⟨fun h => hcodes (.inl ⟨hr, .inl h⟩), fun h => hcodes (.inl ⟨hr, .inr h⟩)⟩

/-- The step: the table of endpoints takes the case of one more exactly if it fits. -/
theorem add_ofEndpoints {es : List Endpoint} {e : Endpoint} {t : DispatchTable}
    (hes : Separate es) :
    add (ofEndpoints es) e = .ok t ↔ Separate (es ++ [e]) ∧ t = ofEndpoints (es ++ [e]) := by
  rw [separate_append_singleton, fits_iff, add]
  simp only [List.any_eq_true, beq_iff_eq, Bool.or_eq_true, List.contains_iff_mem]
  split
  · rename_i htaken
    refine ⟨fun h => (nomatch h), ?_⟩
    rintro ⟨⟨-, hcodes, hhandlers⟩, -⟩
    rcases htaken with ⟨c, hc, hcode⟩ | hhandler
    · exact absurd hcode (hcodes c hc)
    · exact absurd hhandler hhandlers
  · rename_i hfree
    rw [not_or, not_exists] at hfree
    rw [push_ofEndpoints, Except.ok.injEq]
    constructor
    · rintro rfl
      exact ⟨⟨hes, fun c hc hcode => hfree.1 c ⟨hc, hcode⟩, hfree.2⟩, rfl⟩
    · rintro ⟨-, rfl⟩
      rfl

/-- The run: behind separate endpoints, adding more succeeds exactly if all of them are separate. -/
theorem foldlM_add {es fs : List Endpoint} {t : DispatchTable} (hes : Separate es) :
    fs.foldlM add (ofEndpoints es) = .ok t ↔ Separate (es ++ fs) ∧ t = ofEndpoints (es ++ fs) := by
  induction fs generalizing es with
  | nil =>
    rw [List.foldlM_nil, pure_eq_ok, List.append_nil, Except.ok.injEq]
    exact ⟨fun h => ⟨hes, h.symm⟩, fun h => h.2.symm⟩
  | cons e fs ih =>
    have hassoc : es ++ e :: fs = (es ++ [e]) ++ fs := by simp
    rw [List.foldlM_cons, bind_eq_ok, hassoc]
    constructor
    · rintro ⟨u, hu, hfs⟩
      obtain ⟨hsep, rfl⟩ := (add_ofEndpoints hes).1 hu
      exact (ih hsep).1 hfs
    · rintro ⟨hsep, rfl⟩
      have hfront : Separate (es ++ [e]) := hsep.of_append
      exact ⟨_, (add_ofEndpoints hes).2 ⟨hfront, rfl⟩, (ih hfront).2 ⟨hsep, rfl⟩⟩

/-- A module has a table exactly if its endpoints are separate, and then the table holds their cases
in order. -/
theorem build_eq_ok_iff {m : Module} {t : DispatchTable} :
    build m = .ok t ↔ Separate m.endpoints ∧ t = ofEndpoints m.endpoints := by
  have hstart : Separate [] := ⟨by simp, by simp, by simp⟩
  exact foldlM_add hstart

/-- A case that does not fit is refused, and the refusal names it. -/
theorem add_eq_error {es : List Endpoint} {e : Endpoint} {x : RenderError}
    (h : add (ofEndpoints es) e = .error x) :
    ¬Fits es e ∧ x = .duplicateDispatchCase e.code e.context := by
  rw [add] at h
  simp only [List.any_eq_true, beq_iff_eq, Bool.or_eq_true, List.contains_iff_mem] at h
  split at h
  · rename_i htaken
    refine ⟨fun hfits => ?_, (Except.error.inj h).symm⟩
    obtain ⟨hcodes, hhandlers⟩ := fits_iff.1 hfits
    rcases htaken with ⟨c, hc, hcode⟩ | hhandler
    · exact hcodes c hc hcode
    · exact hhandlers hhandler
  · cases h

theorem foldlM_add_eq_error {es fs : List Endpoint} {x : RenderError} (hes : Separate es)
    (h : fs.foldlM add (ofEndpoints es) = .error x) :
    ∃ before e after, fs = before ++ e :: after ∧ ¬Fits (es ++ before) e ∧
      x = .duplicateDispatchCase e.code e.context := by
  induction fs generalizing es with
  | nil => cases h
  | cons e fs ih =>
    rw [List.foldlM_cons, bind_eq_error] at h
    rcases h with he | ⟨t, ht, h⟩
    · obtain ⟨hfits, hx⟩ := add_eq_error he
      exact ⟨[], e, fs, rfl, by rwa [List.append_nil], hx⟩
    · obtain ⟨hsep, rfl⟩ := (add_ofEndpoints hes).1 ht
      obtain ⟨before, f, after, rfl, hfits, hx⟩ := ih hsep h
      exact ⟨e :: before, f, after, rfl, by rwa [List.append_assoc] at hfits, hx⟩

/-- A module without a table has an endpoint that clashes with those before it or with what is
reserved. -/
theorem build_eq_error {m : Module} {x : RenderError} (h : build m = .error x) :
    ∃ before e after, m.endpoints = before ++ e :: after ∧ ¬Fits before e ∧
      x = .duplicateDispatchCase e.code e.context := by
  have hstart : Separate [] := ⟨by simp, by simp, by simp⟩
  exact foldlM_add_eq_error hstart h

/-- The handler of a service `get` would have the name of a dispatcher. -/
example : build ⟨"Store", [], [⟨"Items", .root, [⟨"get", .void, [], []⟩]⟩]⟩ =
    .error (.duplicateDispatchCase "k_SC_get" "Items::get") := rfl

/-! ### The condition on names -/

end DispatchTable

namespace Module

variable {m : Module}

theorem plain_mem_rolesOf {i : Interface} {op : Operation} :
    .plain ∈ i.rolesOf op ↔ i.isAttributes = false := by
  cases hi : i.isAttributes <;> simp [Interface.rolesOf, hi]

/-- The plain endpoints are the operations of the interfaces that hold no attributes. -/
theorem forall_plain_endpoints {p : String → Prop} :
    (∀ e ∈ m.endpoints, e.role = .plain → p e.operation.name) ↔
      ∀ i ∈ m.interfaces, i.isAttributes = false → ∀ op ∈ i.operations, p op.name := by
  constructor
  · intro h i hi hplain op hop
    exact h ⟨i, op, .plain⟩ (mem_endpoints.2 ⟨hi, hop, plain_mem_rolesOf.2 hplain⟩) rfl
  · intro h e he hr
    obtain ⟨hi, hop, hrole⟩ := mem_endpoints.1 he
    rw [hr, plain_mem_rolesOf] at hrole
    exact h e.interface hi hrole e.operation hop

theorem separate_endpoints_iff :
    Separate m.endpoints ↔
      (m.endpoints.map (·.handlerName)).Nodup ∧
      (∀ e ∈ m.endpoints, e.handlerName ≠ "get_unmarshal" ∧ e.handlerName ≠ "set_unmarshal") ∧
      ∀ i ∈ m.interfaces, i.isAttributes = false → ∀ op ∈ i.operations,
        op.name ≠ "getAttribute" ∧ op.name ≠ "setAttribute" := by
  rw [← forall_plain_endpoints (p := fun n => n ≠ "getAttribute" ∧ n ≠ "setAttribute")]
  exact ⟨fun h => ⟨h.handlers, h.dispatchers, h.services⟩, fun h => ⟨h.1, h.2.1, h.2.2⟩⟩

end Module

namespace DispatchTable

/-! ### Distinct codes and handlers -/

theorem nodup_codes_casesOf {es : List Endpoint} (h : Separate es) (r : Role) :
    ((casesOf es r).map (·.code)).Nodup := by
  have hhandlers : ((es.filter fun e => e.role = r).map (·.handlerName)).Nodup :=
    h.handlers.sublist (List.filter_sublist.map _)
  rw [casesOf, List.map_map]
  rw [List.Nodup, List.pairwise_map] at hhandlers ⊢
  -- under one role a code determines the handler, so different handlers have different codes
  refine hhandlers.imp_of_mem fun {a b} ha hb hne hcode => hne ?_
  have hra : a.role = r := by simpa using (List.mem_filter.1 ha).2
  have hrb : b.role = r := by simpa using (List.mem_filter.1 hb).2
  have hr : a.role = b.role := hra.trans hrb.symm
  exact Endpoint.handlerName_eq_of_name_eq hr (Endpoint.name_eq_of_code_eq hr hcode)

theorem nodup_codes {es : List Endpoint} (h : Separate es) (r : Role) :
    (((ofEndpoints es).casesFor r).map (·.code)).Nodup := by
  cases r with
  | plain =>
    rw [casesFor, ofEndpoints, List.map_append, List.nodup_append]
    refine ⟨by decide, nodup_codes_casesOf h .plain, fun a ha b hb hab => ?_⟩
    obtain ⟨c, hc, rfl⟩ := List.mem_map.1 hb
    obtain ⟨e, he, hr, rfl⟩ := mem_casesOf.1 hc
    obtain ⟨hget, hset⟩ := Endpoint.code_eq_reserved_iff hr
    have ha' : a = getAttributeCode ∨ a = setAttributeCode := by simpa [reserved] using ha
    rcases ha' with rfl | rfl
    · exact (h.services e he hr).1 (hget.1 hab.symm)
    · exact (h.services e he hr).2 (hset.1 hab.symm)
  | getter => exact nodup_codes_casesOf h .getter
  | setter => exact nodup_codes_casesOf h .setter

theorem nodup_handlers_casesOf {es : List Endpoint} (h : Separate es) (r : Role) :
    ((casesOf es r).map (·.handler)).Nodup := by
  rw [casesOf, List.map_map]
  exact h.handlers.sublist (List.filter_sublist.map _)

/-- The handlers of different roles are different. -/
theorem disjoint_handlers_casesOf {es : List Endpoint} (h : Separate es) {r r' : Role}
    (hr : r ≠ r') :
    ∀ a ∈ (casesOf es r).map (·.handler), ∀ b ∈ (casesOf es r').map (·.handler), a ≠ b := by
  intro a ha b hb hab
  obtain ⟨c, hc, rfl⟩ := List.mem_map.1 ha
  obtain ⟨d, hd, rfl⟩ := List.mem_map.1 hb
  obtain ⟨e, he, rfl, rfl⟩ := mem_casesOf.1 hc
  obtain ⟨f, hf, rfl, rfl⟩ := mem_casesOf.1 hd
  have hef : e = f := List.inj_on_of_nodup_map h.handlers he hf hab
  exact hr (hef ▸ rfl)

theorem nodup_handlers {es : List Endpoint} (h : Separate es) : (ofEndpoints es).handlers.Nodup := by
  have hreserved : ∀ r, ∀ a ∈ reserved.services.map (·.handler),
      ∀ b ∈ (casesOf es r).map (·.handler), a ≠ b := by
    intro r a ha b hb hab
    obtain ⟨c, hc, rfl⟩ := List.mem_map.1 hb
    obtain ⟨e, he, -, rfl⟩ := mem_casesOf.1 hc
    have ha' : a = getDispatcher ∨ a = setDispatcher := by simpa [reserved] using ha
    rcases ha' with rfl | rfl
    · exact (h.dispatchers e he).1 hab.symm
    · exact (h.dispatchers e he).2 hab.symm
  have hservices : ((ofEndpoints es).services.map (·.handler)).Nodup := by
    rw [ofEndpoints, List.map_append, List.nodup_append]
    exact ⟨by decide, nodup_handlers_casesOf h .plain, hreserved .plain⟩
  have hattributes (r : Role) (hr : r ≠ .plain) :
      ∀ a ∈ (ofEndpoints es).services.map (·.handler),
        ∀ b ∈ (casesOf es r).map (·.handler), a ≠ b := by
    intro a ha
    rw [ofEndpoints, List.map_append, List.mem_append] at ha
    rcases ha with ha | ha
    · exact hreserved r a ha
    · exact disjoint_handlers_casesOf h hr.symm a ha
  rw [handlers, cases, List.map_append, List.map_append, List.nodup_append, List.nodup_append]
  refine ⟨⟨hservices, nodup_handlers_casesOf h .getter, hattributes .getter (by decide)⟩,
    nodup_handlers_casesOf h .setter, fun a ha b hb => ?_⟩
  rcases List.mem_append.1 ha with ha | ha
  · exact hattributes .setter (by decide) a ha b hb
  · exact disjoint_handlers_casesOf h (by decide) a ha b hb

end DispatchTable

end WireStub
