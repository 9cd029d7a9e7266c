import WireStub.Proofs.Generate.Prototypes
import WireStub.Proofs.Linking.CNames

/-!
# Symbols of a module

The functions of a module come from five schemes of names: codec functions after types, server functions
after operations, handlers after server functions, stubs after interfaces and operations, and three
dispatchers with fixed names.  In C they are all in one scope, and only handlers are checked against each
other and against the dispatchers.

* `CUnit.signatures` are the functions that the units of a module introduce, `CUnit.origin_of_mem` says
  where their prototypes come from, and `Module.symbols_eq` how they are named;
* `Module.Unambiguous` lists the clashes that are possible, and `Module.nodup_symbols_iff` says that there
  are no others;
* `Module.SingleWorded` is a rule for names that rules all of them out: `Module.SingleWorded.unambiguous`;
* `Module.symbols_nodup_iff` is the main statement.
-/

namespace WireStub

namespace Item

/-- The names of the functions that items declare. -/
def prototypeNames (items : List Item) : List String := (prototypes items).map (·.signature.name)

/-- The names of the functions that items define. -/
def functionNames (items : List Item) : List String := (functions items).map (·.signature.name)

/-- The names of the structs that stand for clients. -/
def clientNames (items : List Item) : List String :=
  items.filterMap fun i => match i with
    | clientStruct interface => some (interface ++ "_stub")
    | _ => none

end Item

/-- The functions that the units of a module introduce: the codec functions, the server functions, the
functions for requests and the stubs. -/
def CUnit.signatures (items : CUnit → List Item) : List Signature :=
  (Item.prototypes (items .codecHeader)).map (·.signature) ++
    (Item.prototypes (items .declarations)).map (·.signature) ++
    (Item.functions (items .dispatchSource)).map (·.signature) ++
    (Item.prototypes (items .stubHeader)).map (·.signature)

/-- The names of these functions. -/
def CUnit.symbols (items : CUnit → List Item) : List String :=
  (CUnit.signatures items).map (·.name)

/-! ### Names in the units -/

namespace Definition

/-- The codec functions of a declaration are declared by its codec names. -/
theorem map_name_of_codecPrototypes {d : Definition} {ps : List Prototype}
    (h : d.codecPrototypes = .ok ps) : ps.map (·.signature.name) = d.codecNames := by
  obtain ⟨c, hc, h⟩ := bind_eq_ok.1 h
  have hcodec : c.codecPrefix = (CType.mk d.cName false).codecPrefix := by
    rw [CType.codecPrefix, name_of_cType hc]
    rfl
  rw [← Except.ok.inj h, codecNames, List.map_map]
  exact List.map_congr_left fun half _ => Half.functionName_eq_iff.2 ⟨rfl, hcodec⟩

theorem codecNames_eq {d : Definition} (h : d.path.AllValid) :
    d.codecNames = [d.cName ++ "_marshal", d.cName ++ "_unmarshal"] := by
  have hcodec : (CType.mk d.cName false).codecPrefix = d.cName :=
    CType.codecPrefix_eq_name (Identifier.space_not_mem_ofScopedName h)
  simp [codecNames, Half.both, Half.functionName, hcodec]

end Definition

namespace CUnit

variable {o : Options} {m : Module} {items : List Item}

/-- The types of declarations are no prototypes. -/
theorem prototypes_types {types : List Item} (h : m.declarations.mapM (·.item) = .ok types) :
    Item.prototypes types = [] := by
  refine Definition.filterMap_items_eq_nil (fun i hi => ?_) h
  cases i with
  | prototype p => cases hi
  | _ => rfl

theorem prototypes_declarations (h : declarations.items o m = .ok items) :
    m.endpoints.mapM (·.serverPrototype) = .ok (Item.prototypes items) := by
  obtain ⟨types, ps, htypes, hps, hitems⟩ := filterMap_declarations h
  have hview : Item.prototypes items = Item.prototypes types ++ Item.prototypes (ps.map .prototype) :=
    hitems ⟨fun _ => rfl, rfl, fun _ => rfl, fun _ => rfl⟩
  rw [hview, prototypes_types htypes, Item.prototypes_map_prototype, List.nil_append, hps]

/-- Where a prototype in the units of a module comes from: from one of the five schemes. -/
inductive Origin (o : Options) (m : Module) : Prototype → Prop
  | codec (half : Half) (c : CType) : Origin o m ⟨true, half.signature c, []⟩
  | server {e : Endpoint} {p : Prototype} : e ∈ m.endpoints → e.serverPrototype = .ok p → Origin o m p
  | dispatcher (isExtern isStatic : Bool) (name : String) :
      Origin o m ⟨isExtern, dispatcherSignature isStatic (o.statusType m.name) name, []⟩
  | handler {e : Endpoint} : e ∈ m.endpoints → Origin o m (e.handlerPrototype (o.statusType m.name))
  | stub {e : Endpoint} {p : Prototype} : e ∈ m.endpoints → e.stubPrototype o = .ok p → Origin o m p

theorem origin_of_mem {u : CUnit} (h : u.items o m = .ok items) {p : Prototype}
    (hp : p ∈ Item.prototypes items) : Origin o m p := by
  cases u with
  | declarations =>
    obtain ⟨e, he, hproto⟩ := exists_left_of_mapM (prototypes_declarations h) hp
    exact .server he hproto
  | stubHeader =>
    obtain ⟨e, he, hproto⟩ := exists_left_of_mapM (prototypes_stubHeader h) hp
    exact .stub he hproto
  | dispatchHeader =>
    rw [prototypes_dispatchHeader h] at hp
    cases List.mem_singleton.1 hp
    exact .dispatcher true false _
  | dispatchSource =>
    obtain ⟨ps, hps, hprototypes⟩ := prototypes_dispatchSource h
    rw [hprototypes, List.mem_append, List.mem_pair] at hp
    rcases hp with (rfl | rfl) | hp
    · exact .dispatcher false true _
    · exact .dispatcher false true _
    · obtain ⟨e, he, hproto⟩ := exists_left_of_mapM hps hp
      cases hproto
      exact .handler he
  | codecHeader =>
    obtain ⟨pss, hpss, hprototypes⟩ := prototypes_codecHeader h
    rw [hprototypes] at hp
    obtain ⟨ps, hps, hp⟩ := List.mem_flatten.1 hp
    obtain ⟨d, -, hd⟩ := exists_left_of_mapM hpss hps
    obtain ⟨c, -, hd⟩ := bind_eq_ok.1 hd
    rw [← Except.ok.inj hd] at hp
    obtain ⟨half, -, rfl⟩ := List.mem_map.1 hp
    exact .codec half c
  | stubSource | codecSource =>
    -- the sources of stubs and codecs hold functions only
    obtain ⟨_, hcontent, h⟩ := bind_eq_ok.1 h
    obtain ⟨fs, -, hcontent⟩ := bind_eq_ok.1 hcontent
    rw [← Except.ok.inj h, prototypes_frame, ← Except.ok.inj hcontent,
      Item.prototypes_map_function] at hp
    cases hp

theorem prototypeNames_codecHeader (h : codecHeader.items o m = .ok items) :
    Item.prototypeNames items = m.declarations.flatMap (·.codecNames) := by
  obtain ⟨pss, hpss, hprototypes⟩ := prototypes_codecHeader h
  have hnames := map_eq_map_of_mapM (fun _ _ => Definition.map_name_of_codecPrototypes) hpss
  rw [Item.prototypeNames, hprototypes, List.map_flatten, hnames, List.flatMap_def]

theorem prototypeNames_declarations (h : declarations.items o m = .ok items) :
    Item.prototypeNames items = m.endpoints.map (·.functionName) := by
  refine map_eq_map_of_mapM (fun e p hp => ?_) (prototypes_declarations h)
  obtain ⟨s, hs, rfl⟩ := Endpoint.serverPrototype_eq_ok hp
  obtain ⟨c, cs, -, -, rfl⟩ := Endpoint.serverSignature_eq_ok hs
  rfl

theorem functionNames_dispatchSource (h : dispatchSource.items o m = .ok items) :
    Item.functionNames items = dispatcherNames ++ m.endpoints.map (·.handlerName) := by
  obtain ⟨t, hs, -, hhs, hfunctions⟩ := functions_dispatchSource h
  rw [Item.functionNames, hfunctions, List.map_append,
    map_eq_map_of_mapM (fun _ _ => Endpoint.name_of_handler_eq_ok) hhs]
  rfl

theorem prototypeNames_stubHeader (h : stubHeader.items o m = .ok items) :
    Item.prototypeNames items = m.endpoints.map (·.stubName) := by
  refine map_eq_map_of_mapM (fun e p hp => ?_) (prototypes_stubHeader h)
  obtain ⟨s, hs, rfl⟩ := Endpoint.stubPrototype_eq_ok hp
  obtain ⟨c, cs, -, -, rfl⟩ := Endpoint.stubSignature_eq_ok hs
  rfl

theorem clientNames_stubHeader (h : stubHeader.items o m = .ok items) :
    Item.clientNames items = m.interfaces.map (·.name ++ "_stub") := by
  obtain ⟨content, hcontent, h⟩ := bind_eq_ok.1 h
  obtain ⟨protos, hprotos, hcontent⟩ := bind_eq_ok.1 hcontent
  obtain ⟨ps, -, hitems⟩ := prototypes_eq_ok hprotos
  have hnone : Item.clientNames protos = [] :=
    (hitems (fun _ => rfl) rfl).trans (Item.filterMap_map_eq_nil (fun _ => rfl) ps)
  have hclients : Item.clientNames (m.interfaces.map fun i => .clientStruct i.name) =
      m.interfaces.map (·.name ++ "_stub") := by
    rw [Item.clientNames, List.filterMap_map]
    exact congrFun List.filterMap_eq_map m.interfaces
  have hframe : Item.clientNames items = Item.clientNames content := by
    rw [← Except.ok.inj h]
    exact filterMap_frame ⟨fun _ => rfl, rfl, fun _ => rfl, fun _ => rfl⟩ _ o m content
  have hsplit : Item.clientNames content = Item.clientNames (m.interfaces.map fun i =>
      .clientStruct i.name) ++ Item.clientNames protos := by
    rw [← Except.ok.inj hcontent]
    exact List.filterMap_append
  rw [hframe, hsplit, hclients, hnone, List.append_nil]

end CUnit

/-! ### Clashes -/

namespace Endpoint

/-- No stub is named like a dispatcher: those have no `b`. -/
theorem stubName_not_mem_dispatcherNames (e : Endpoint) : e.stubName ∉ dispatcherNames := by
  have hletter : 'b' ∈ e.stubName.toList := by simp [stubName]
  have hnone : ∀ s ∈ dispatcherNames, 'b' ∉ s.toList := by decide
  exact fun hmem => hnone _ hmem hletter

end Endpoint

/-- A codec function is not named like a dispatcher: its name has more underscores. -/
theorem Definition.not_mem_dispatcherNames {d : Definition} (h : d.path.AllValid)
    (hscoped : '_' ∈ d.cName.toList) {s : String} (hs : s ∈ d.codecNames) : s ∉ dispatcherNames := by
  have hmany : 1 < s.toList.count '_' := by
    have hpos : 0 < d.cName.toList.count '_' := List.count_pos_iff.2 hscoped
    rw [codecNames_eq h, List.mem_pair] at hs
    rcases hs with rfl | rfl <;> simpa [List.count_append] using hpos
  have hfew : ∀ s ∈ dispatcherNames, s.toList.count '_' ≤ 1 := by decide
  exact fun hmem => absurd hmany (Nat.not_lt.2 (hfew s hmem))

/-- The handler of a server function that is named like a type is named like the reader of the type. -/
theorem Definition.handlerName_mem_codecNames_iff {d : Definition} {e : Endpoint}
    (h : d.path.AllValid) : e.handlerName ∈ d.codecNames ↔ d.cName = e.functionName := by
  have hne : e.handlerName ≠ d.cName ++ "_marshal" := (append_marshal_ne _ _).symm
  rw [codecNames_eq h, List.mem_pair, or_iff_right hne, eq_comm]
  exact String.append_left_inj "_unmarshal"

namespace Module

variable {o : Options} {m : Module}

/-- The clashes between names of functions that are left possible. -/
structure Unambiguous (m : Module) : Prop where
  /-- The types have different names. -/
  types : (m.declarations.map (·.cName)).Nodup
  /-- No server function and no stub is a codec function. -/
  codecs : ∀ d ∈ m.declarations, ∀ s ∈ d.codecNames, ∀ e ∈ m.endpoints,
    s ≠ e.functionName ∧ s ≠ e.stubName
  /-- No server function is named like a type; its handler would be the reader of the type. -/
  readers : ∀ d ∈ m.declarations, ∀ e ∈ m.endpoints, d.cName ≠ e.functionName
  /-- No server function is a dispatcher. -/
  dispatchers : ∀ e ∈ m.endpoints, e.functionName ∉ dispatcherNames
  /-- No server function and no stub is a handler. -/
  handlers : ∀ e ∈ m.endpoints, ∀ f ∈ m.endpoints,
    e.handlerName ≠ f.functionName ∧ e.handlerName ≠ f.stubName
  /-- No server function is a stub. -/
  servers : ∀ e ∈ m.endpoints, ∀ f ∈ m.endpoints, e.functionName ≠ f.stubName
  /-- Stubs of one name are stubs of one endpoint. -/
  stubs : ∀ e ∈ m.endpoints, ∀ f ∈ m.endpoints, e.stubName = f.stubName → e = f

section Names

variable (hsep : Separate m.endpoints)

include hsep

theorem nodup_endpoints : m.endpoints.Nodup := hsep.handlers.of_map

/-- Server functions are told apart by the names of their handlers. -/
theorem nodup_functionNames : (m.endpoints.map (·.functionName)).Nodup := by
  have hhandlers := hsep.handlers
  have hmap : m.endpoints.map (·.handlerName) =
      (m.endpoints.map (·.functionName)).map (· ++ "_unmarshal") := by
    rw [List.map_map]
    rfl
  rw [hmap] at hhandlers
  exact hhandlers.of_map

/-- The names of all functions are different exactly if there are none of the possible clashes. -/
theorem nodup_symbols_iff (hvalid : ∀ d ∈ m.declarations, d.path.AllValid)
    (hscoped : ∀ d ∈ m.declarations, '_' ∈ d.cName.toList) :
    (m.declarations.flatMap (·.codecNames) ++ m.endpoints.map (·.functionName) ++
        (dispatcherNames ++ m.endpoints.map (·.handlerName)) ++
        m.endpoints.map (·.stubName)).Nodup ↔ m.Unambiguous := by
  have hcodecs := nodup_codecNames_iff hvalid
  have hreader {d : Definition} (hd : d ∈ m.declarations) (e : Endpoint) :=
    Definition.handlerName_mem_codecNames_iff (e := e) (hvalid d hd)
  have hrequests := nodup_requestNames hsep
  have hnot (s : String) (q : Endpoint → String) :
      s ∉ m.endpoints.map q ↔ ∀ e ∈ m.endpoints, s ≠ q e := by
    simp [eq_comm]
  -- list by list: no name of the one is in the other
  simp only [List.nodup_append', List.disjoint_append_left] at hrequests ⊢
  simp only [List.disjoint_append_right] at hrequests ⊢
  simp only [List.disjoint_left, List.forall_mem_map, List.forall_mem_flatMap, hnot] at hrequests ⊢
  constructor
  · rintro ⟨⟨⟨hC, -, hCS⟩, -, ⟨-, hCH⟩, hSD, hSH⟩, hT, ⟨hCT, hST⟩, -, hHT⟩
    exact
      { types := hcodecs.1 hC
        codecs := fun d hd s hs e he => ⟨hCS d hd s hs e he, hCT d hd s hs e he⟩
        readers := fun d hd e he heq => hCH d hd _ ((hreader hd e).2 heq) e he rfl
        dispatchers := hSD
        handlers := fun e he f hf => ⟨(hSH f hf e he).symm, hHT e he f hf⟩
        servers := hST
        stubs := fun e he f hf heq => List.inj_on_of_nodup_map hT he hf heq }
  · intro h
    have hCD : ∀ d ∈ m.declarations, ∀ s ∈ d.codecNames, s ∉ dispatcherNames := fun d hd s hs =>
      Definition.not_mem_dispatcherNames (hvalid d hd) (hscoped d hd) hs
    have hCH : ∀ d ∈ m.declarations, ∀ s ∈ d.codecNames, ∀ e ∈ m.endpoints, s ≠ e.handlerName := by
      intro d hd s hs e he heq
      exact h.readers d hd e he ((hreader hd e).1 (heq ▸ hs))
    have hDT : ∀ s ∈ dispatcherNames, ∀ e ∈ m.endpoints, s ≠ e.stubName := by
      intro s hs e _ heq
      exact e.stubName_not_mem_dispatcherNames (heq ▸ hs)
    exact ⟨⟨⟨hcodecs.2 h.types, nodup_functionNames hsep,
          fun d hd s hs e he => (h.codecs d hd s hs e he).1⟩,
        hrequests, ⟨hCD, hCH⟩, h.dispatchers, fun e he f hf => (h.handlers f hf e he).1.symm⟩,
      (nodup_endpoints hsep).map_on h.stubs,
      ⟨fun d hd s hs e he => (h.codecs d hd s hs e he).2, h.servers⟩, hDT,
      fun e he f hf => (h.handlers e he f hf).2⟩

end Names

end Module

/-! ### Single words -/

/-- The words of a name: the texts between its underscores. -/
def wordsOf (s : String) : List (List Char) := s.toList.splitOn '_'

theorem wordsOf_eq_singleton {s : String} (h : '_' ∉ s.toList) : wordsOf s = [s.toList] :=
  List.splitOn_eq_singleton h

/-- An underscore divides the words before it from those behind it. -/
theorem wordsOf_append (s t : String) : wordsOf (s ++ ("_" ++ t)) = wordsOf s ++ wordsOf t := by
  simp [wordsOf, List.splitOn_append_cons_self]

theorem wordsOf_pair {s t : String} (hs : '_' ∉ s.toList) (ht : '_' ∉ t.toList) :
    wordsOf (s ++ ("_" ++ t)) = [s.toList, t.toList] := by
  rw [wordsOf_append, wordsOf_eq_singleton hs, wordsOf_eq_singleton ht]
  rfl

namespace Endpoint

variable {e : Endpoint}

/-- Getters and setters have a word before the operation. -/
theorem functionName_eq (e : Endpoint) : e.functionName = match e.role with
    | .plain => e.operation.name
    | .getter => "get" ++ ("_" ++ e.operation.name)
    | .setter => "set" ++ ("_" ++ e.operation.name) := by
  unfold functionName
  cases e.role <;> exact String.toList_inj.1 (by simp [Role.affix])

/-- The words of the name of a server function, by its role. -/
theorem wordsOf_functionName (h : '_' ∉ e.operation.name.toList) :
    wordsOf e.functionName = match e.role with
      | .plain => [e.operation.name.toList]
      | .getter => ["get".toList, e.operation.name.toList]
      | .setter => ["set".toList, e.operation.name.toList] := by
  rw [functionName_eq]
  cases e.role with
  | plain => exact wordsOf_eq_singleton h
  | getter => exact wordsOf_pair (by decide) h
  | setter => exact wordsOf_pair (by decide) h

theorem getLast?_wordsOf_functionName (h : '_' ∉ e.operation.name.toList) :
    (wordsOf e.functionName).getLast? = some e.operation.name.toList := by
  rw [wordsOf_functionName h]
  cases e.role <;> rfl

/-- Only getters and setters have a word before the operation. -/
theorem mem_affixes_of_wordsOf (h : '_' ∉ e.operation.name.toList) {s : String}
    {rest : List (List Char)} (hwords : wordsOf e.functionName = s.toList :: rest)
    (hrest : rest ≠ []) : s ∈ ["get", "set"] := by
  rw [wordsOf_functionName h] at hwords
  cases hrole : e.role with
  | plain =>
    rw [hrole] at hwords
    exact absurd (List.cons.inj hwords).2.symm hrest
  | getter =>
    rw [hrole] at hwords
    rw [← String.toList_inj.1 (List.cons.inj hwords).1]
    decide
  | setter =>
    rw [hrole] at hwords
    rw [← String.toList_inj.1 (List.cons.inj hwords).1]
    decide

theorem wordsOf_handlerName (e : Endpoint) :
    wordsOf e.handlerName = wordsOf e.functionName ++ ["unmarshal".toList] :=
  (wordsOf_append e.functionName "unmarshal").trans
    (congrArg _ (wordsOf_eq_singleton (by decide)))

theorem getLast?_wordsOf_handlerName (e : Endpoint) :
    (wordsOf e.handlerName).getLast? = some "unmarshal".toList := by
  rw [wordsOf_handlerName, List.getLast?_append]
  rfl

/-- The words of the name of a stub, by its role. -/
theorem wordsOf_stubName (hi : '_' ∉ e.interface.name.toList) (h : '_' ∉ e.operation.name.toList) :
    wordsOf e.stubName = e.interface.name.toList :: match e.role with
      | .plain => ["stub".toList ++ e.operation.name.toList]
      | .getter => ["stubget".toList, e.operation.name.toList]
      | .setter => ["stubset".toList, e.operation.name.toList] := by
  have hstub (rest : String) (hrest : "_stub" ++ e.functionName = "_" ++ rest) :
      wordsOf e.stubName = e.interface.name.toList :: wordsOf rest := by
    rw [stubName, String.append_assoc, hrest, wordsOf_append, wordsOf_eq_singleton hi]
    rfl
  unfold functionName at hstub
  cases hrole : e.role with
  | plain =>
    have hword : '_' ∉ ("stub" ++ e.operation.name).toList := by simpa using h
    rw [hstub ("stub" ++ e.operation.name) (String.toList_inj.1 (by simp [hrole, Role.affix])),
      wordsOf_eq_singleton hword, String.toList_append]
  | getter =>
    rw [hstub ("stubget" ++ ("_" ++ e.operation.name))
      (String.toList_inj.1 (by simp [hrole, Role.affix])), wordsOf_pair (by decide) h]
  | setter =>
    rw [hstub ("stubset" ++ ("_" ++ e.operation.name))
      (String.toList_inj.1 (by simp [hrole, Role.affix])), wordsOf_pair (by decide) h]

/-- The last word of the name of a stub is the operation, perhaps behind a word of the scheme. -/
theorem getLast?_wordsOf_stubName (hi : '_' ∉ e.interface.name.toList)
    (h : '_' ∉ e.operation.name.toList) :
    (wordsOf e.stubName).getLast? = some e.operation.name.toList ∨
      (wordsOf e.stubName).getLast? = some ("stub".toList ++ e.operation.name.toList) := by
  rw [wordsOf_stubName hi h]
  cases e.role with
  | plain => exact .inr rfl
  | getter => exact .inl rfl
  | setter => exact .inl rfl

/-- So it is no word that ends the names of codec functions and handlers. -/
theorem getLast?_wordsOf_stubName_ne (hi : '_' ∉ e.interface.name.toList)
    (h : '_' ∉ e.operation.name.toList) (hne : e.operation.name ∉ ["marshal", "unmarshal"])
    {half : String} (hhalf : half ∈ ["marshal", "unmarshal"]) :
    (wordsOf e.stubName).getLast? ≠ some half.toList := by
  intro hlast
  rcases getLast?_wordsOf_stubName hi h with hop | hop
  · exact hne (String.toList_inj.1 (Option.some.inj (hop.symm.trans hlast)) ▸ hhalf)
  · have heq := Option.some.inj (hop.symm.trans hlast)
    have hfirst : half.toList.head? = some 's' := by
      rw [← heq]
      rfl
    have hnone : ∀ half ∈ ["marshal", "unmarshal"], half.toList.head? ≠ some 's' := by decide
    exact hnone half hhalf hfirst

/-- Endpoints whose stubs have names of the same words have the same names. -/
theorem eq_of_wordsOf_stubName {f : Endpoint} (hi : '_' ∉ e.interface.name.toList)
    (h : '_' ∉ e.operation.name.toList) (hi' : '_' ∉ f.interface.name.toList)
    (h' : '_' ∉ f.operation.name.toList) (hwords : wordsOf e.stubName = wordsOf f.stubName) :
    e.functionName = f.functionName := by
  rw [wordsOf_stubName hi h, wordsOf_stubName hi' h'] at hwords
  have hrest := (List.cons.inj hwords).2
  unfold functionName
  cases hrole : e.role <;> cases hrole' : f.role <;>
    simp [hrole, hrole', String.toList_inj] at hrest <;> rw [hrest]

end Endpoint

namespace Module

/-- All names that functions are named after are single words, and none of them is a word that a scheme
adds at its place. -/
structure SingleWorded (m : Module) : Prop where
  name : '_' ∉ m.name.toList ∧ m.name ∉ ["get", "set"]
  declarations : ∀ d ∈ m.declarations, '_' ∉ d.name.toList
  interfaces : ∀ i ∈ m.interfaces, '_' ∉ i.name.toList ∧ i.name ∉ ["get", "set"]
  operations : ∀ i ∈ m.interfaces, ∀ o ∈ i.operations,
    '_' ∉ o.name.toList ∧ o.name ∉ ["marshal", "unmarshal"]

instance (m : Module) : Decidable m.SingleWorded :=
  decidable_of_iff (('_' ∉ m.name.toList ∧ m.name ∉ ["get", "set"]) ∧
      (∀ d ∈ m.declarations, '_' ∉ d.name.toList) ∧
      (∀ i ∈ m.interfaces, '_' ∉ i.name.toList ∧ i.name ∉ ["get", "set"]) ∧
      ∀ i ∈ m.interfaces, ∀ o ∈ i.operations,
        '_' ∉ o.name.toList ∧ o.name ∉ ["marshal", "unmarshal"])
    ⟨fun ⟨h, h', hi, ho⟩ => ⟨h, h', hi, ho⟩,
      fun h => ⟨h.name, h.declarations, h.interfaces, h.operations⟩⟩

namespace SingleWorded

variable {ms linked : List Module} {t u : SymbolTable} {d : Definition}

/-- The words of the C name of a declaration: the module, and at least the declaration itself. -/
theorem wordsOf_cName (hm : m.SingleWorded) (h : linkAll Module.link t ms = ⟨linked, u, .ok ()⟩)
    (hmem : m ∈ linked) (hvalid : d.path.AllValid) (hd : d ∈ m.declarations) :
    ∃ rest, rest ≠ [] ∧ wordsOf d.cName = m.name.toList :: rest := by
  obtain ⟨scope, hhead, hpath⟩ := exists_scope (q := fun n => n.segments.head? = some m.name) h hmem rfl
    (fun _ c _ hn => ScopedName.head?_child hn c.name) hd
  obtain ⟨rest, hsegments⟩ := List.head?_eq_some_iff.1 hhead
  have hwords : wordsOf d.cName = d.path.words :=
    Identifier.splitOn_ofScopedName hvalid (isRoot_path h hmem hd)
  have hnames : ∀ s ∈ d.path.segments, '_' ∉ s.toList :=
    forall_mem_segments_path h hmem hm.name.1 hm.declarations hd
  refine ⟨(rest ++ [d.name]).map String.toList, by simp, ?_⟩
  rw [hwords, ScopedName.words_eq_segments hnames, hpath, ScopedName.segments_child, hsegments]
  rfl

/-- The last word of the name of a codec function is its half. -/
theorem getLast?_wordsOf_codecName (hvalid : d.path.AllValid) {s : String} (hs : s ∈ d.codecNames) :
    ∃ half ∈ ["marshal", "unmarshal"], (wordsOf s).getLast? = some half.toList := by
  have hhalf (half : String) (hplain : '_' ∉ half.toList) :
      (wordsOf (d.cName ++ ("_" ++ half))).getLast? = some half.toList := by
    rw [wordsOf_append, wordsOf_eq_singleton hplain, List.getLast?_append]
    rfl
  rw [Definition.codecNames_eq hvalid, List.mem_pair] at hs
  rcases hs with rfl | rfl
  · exact ⟨"marshal", by decide, hhalf "marshal" (by decide)⟩
  · exact ⟨"unmarshal", by decide, hhalf "unmarshal" (by decide)⟩

/-- Paths of single words are told apart by their C names. -/
theorem nodup_cNames (hm : m.SingleWorded) (h : linkAll Module.link t ms = ⟨linked, u, .ok ()⟩)
    (hvalid : ∀ m ∈ linked, m.ValidlyNamed) (hmem : m ∈ linked) :
    (m.declarations.map (·.cName)).Nodup := by
  have hin {d : Definition} (hd : d ∈ m.declarations) : d ∈ linked.flatMap (·.declarations) :=
    List.mem_flatMap.2 ⟨m, hmem, hd⟩
  have hplain {c : Definition} (hc : c ∈ m.declarations) : ∀ s ∈ c.path.segments, '_' ∉ s.toList :=
    forall_mem_segments_path h hmem hm.name.1 hm.declarations hc
  have hpaths := (List.nodup_append.1 (nodup_path_declarations h)).2.1
  have hnodup : m.declarations.Nodup := (List.nodup_flatMap.1 hpaths.of_map).1 m hmem
  refine hnodup.map_on fun d hd e he heq => List.inj_on_of_nodup_map hpaths (hin hd) (hin he) ?_
  exact ScopedName.eq_of_words_eq (hplain hd) (hplain he)
    ((cName_eq_iff h hvalid (hin hd) (hin he)).1 heq)

/-- Single words leave no clash possible. -/
theorem unambiguous (hm : m.SingleWorded) (hsep : Separate m.endpoints)
    (h : linkAll Module.link t ms = ⟨linked, u, .ok ()⟩) (hvalid : ∀ m ∈ linked, m.ValidlyNamed)
    (hmem : m ∈ linked) : m.Unambiguous := by
  have hin {d : Definition} (hd : d ∈ m.declarations) : d ∈ linked.flatMap (·.declarations) :=
    List.mem_flatMap.2 ⟨m, hmem, hd⟩
  have hpath {d : Definition} (hd : d ∈ m.declarations) : d.path.AllValid :=
    allValid_path h hvalid (hin hd)
  have hinterface {e : Endpoint} (he : e ∈ m.endpoints) :=
    hm.interfaces e.interface (mem_endpoints.1 he).1
  have hoperation {e : Endpoint} (he : e ∈ m.endpoints) :=
    hm.operations e.interface (mem_endpoints.1 he).1 e.operation (mem_endpoints.1 he).2.1
  have hstub {e : Endpoint} (he : e ∈ m.endpoints) {half : String}
      (hhalf : half ∈ ["marshal", "unmarshal"]) :
      (wordsOf e.stubName).getLast? ≠ some half.toList :=
    Endpoint.getLast?_wordsOf_stubName_ne (hinterface he).1 (hoperation he).1 (hoperation he).2 hhalf
  have hfunction {e : Endpoint} (he : e ∈ m.endpoints) {half : String}
      (hhalf : half ∈ ["marshal", "unmarshal"]) :
      (wordsOf e.functionName).getLast? ≠ some half.toList := by
    rw [Endpoint.getLast?_wordsOf_functionName (hoperation he).1]
    intro hlast
    exact (hoperation he).2 (String.toList_inj.1 (Option.some.inj hlast) ▸ hhalf)
  have hunmarshal : "unmarshal" ∈ ["marshal", "unmarshal"] := by decide
  refine
    { types := hm.nodup_cNames h hvalid hmem
      codecs := fun d hd s hs e he => ?codecs
      readers := fun d hd e he heq => ?readers
      dispatchers := fun e he hdispatcher => ?dispatchers
      handlers := fun e he f hf => ?handlers
      servers := fun e he f hf heq => ?servers
      stubs := fun e he f hf heq => ?stubs }
  case codecs =>
    obtain ⟨half, hhalf, hlast⟩ := getLast?_wordsOf_codecName (hpath hd) hs
    exact ⟨fun heq => hfunction he hhalf (heq ▸ hlast), fun heq => hstub he hhalf (heq ▸ hlast)⟩
  case readers =>
    obtain ⟨rest, hrest, hwords⟩ := hm.wordsOf_cName h hmem (hpath hd) hd
    exact hm.name.2 (Endpoint.mem_affixes_of_wordsOf (hoperation he).1 (heq ▸ hwords) hrest)
  case dispatchers =>
    have hlast : ∀ s ∈ dispatcherNames, (wordsOf s).getLast? = some "unmarshal".toList := by decide
    exact hfunction he hunmarshal (hlast _ hdispatcher)
  case handlers =>
    have hlast := e.getLast?_wordsOf_handlerName
    exact ⟨fun heq => hfunction hf hunmarshal (heq ▸ hlast),
      fun heq => hstub hf hunmarshal (heq ▸ hlast)⟩
  case servers =>
    have hwords := Endpoint.wordsOf_stubName (hinterface hf).1 (hoperation hf).1
    rw [← heq] at hwords
    refine (hinterface hf).2 (Endpoint.mem_affixes_of_wordsOf (hoperation he).1 hwords ?_)
    cases f.role <;> exact List.cons_ne_nil _ _
  case stubs =>
    exact List.inj_on_of_nodup_map (nodup_functionNames hsep) he hf
      (Endpoint.eq_of_wordsOf_stubName (hinterface he).1 (hoperation he).1 (hinterface hf).1
        (hoperation hf).1 (congrArg wordsOf heq))

end SingleWorded

/-- The functions of a module, by the schemes of their names. -/
theorem symbols_eq {items : CUnit → List Item} (h : ∀ u : CUnit, u.items o m = .ok (items u)) :
    CUnit.symbols items =
      m.declarations.flatMap (·.codecNames) ++ m.endpoints.map (·.functionName) ++
        (dispatcherNames ++ m.endpoints.map (·.handlerName)) ++ m.endpoints.map (·.stubName) := by
  rw [← CUnit.prototypeNames_codecHeader (h .codecHeader),
    ← CUnit.prototypeNames_declarations (h .declarations),
    ← CUnit.functionNames_dispatchSource (h .dispatchSource),
    ← CUnit.prototypeNames_stubHeader (h .stubHeader)]
  simp only [CUnit.symbols, CUnit.signatures, List.map_append, List.map_map]
  rfl

/-- The structs that stand for clients are different if the interfaces have different names. -/
theorem nodup_clientNames_iff {items : List Item} (h : CUnit.stubHeader.items o m = .ok items) :
    (Item.clientNames items).Nodup ↔ (m.interfaces.map (·.name)).Nodup := by
  have hmap : m.interfaces.map (·.name ++ "_stub") = (m.interfaces.map (·.name)).map (· ++ "_stub") := by
    rw [List.map_map]
    rfl
  rw [CUnit.clientNames_stubHeader h, hmap]
  exact List.nodup_map_iff fun s t => (String.append_left_inj "_stub").1

/-- **Symbols of a module.**  In a schema that links, with names of modules and declarations that are
identifiers of C, the functions that the units of a generated module introduce are the codec functions of
all declarations, the server functions of all endpoints, the dispatchers, and the handlers and stubs of
all endpoints.  They have different names if and only if none of the clashes is there that
`Unambiguous` lists; names that are single words, and not the words that the schemes add, leave none.  The
structs that stand for clients are different if and only if the interfaces have different names. -/
theorem symbols_nodup_iff {ms linked : List Module} {t u : SymbolTable} {fs : List GeneratedFile}
    (h : linkAll Module.link t ms = ⟨linked, u, .ok ()⟩) (hvalid : ∀ m ∈ linked, m.ValidlyNamed)
    (hm : m ∈ linked) (hr : m.render o = .ok fs) :
    ∃ items : CUnit → List Item,
      (∀ u, u.items o m = .ok (items u) ∧
        ⟨u.fileName m.name, Layout.render o.indentText (Item.layoutAll (items u))⟩ ∈ fs) ∧
      CUnit.symbols items =
        m.declarations.flatMap (·.codecNames) ++ m.endpoints.map (·.functionName) ++
          (dispatcherNames ++ m.endpoints.map (·.handlerName)) ++ m.endpoints.map (·.stubName) ∧
      ((CUnit.symbols items).Nodup ↔ m.Unambiguous) ∧
      (m.SingleWorded → m.Unambiguous) ∧
      ((Item.clientNames (items .stubHeader)).Nodup ↔ (m.interfaces.map (·.name)).Nodup) := by
  obtain ⟨items, hitems⟩ := Classical.skolem.1 (exists_items_of_render hr)
  have hsymbols := symbols_eq fun u => (hitems u).1
  -- the table of the module is built, so the handlers are different
  obtain ⟨table, -, htable, -, -⟩ := CUnit.functions_dispatchSource (hitems .dispatchSource).1
  have hsep : Separate m.endpoints := (DispatchTable.build_eq_ok_iff.1 htable).1
  have hpaths : ∀ d ∈ m.declarations, d.path.AllValid := fun d hd =>
    allValid_path h hvalid (List.mem_flatMap.2 ⟨m, hm, hd⟩)
  have hscoped : ∀ d ∈ m.declarations, '_' ∈ d.cName.toList := by
    intro d hd
    obtain ⟨rest, hname⟩ := exists_cName_eq h hm hd
    simp [hname]
  refine ⟨items, hitems, hsymbols, ?_, fun hwords => hwords.unambiguous hsep h hvalid hm,
    nodup_clientNames_iff (hitems .stubHeader).1⟩
  rw [hsymbols]
  exact nodup_symbols_iff hsep hpaths hscoped

/-- A module with a type, a service and an attribute. -/
def boilerModule : Module :=
  ⟨"Boiler", [.struct ⟨"State", .root, [⟨"level", .primitive .long, []⟩]⟩],
    [⟨"Control", .root, [⟨"reset", .primitive .void, [⟨"zone", .primitive .octet, .input⟩], []⟩]⟩,
     ⟨"Attributes", .root, [⟨"level", .primitive .long, [⟨"value", .primitive .long, .inout⟩], []⟩]⟩]⟩

/-- All names of the module are single words, so its symbols are different. -/
theorem symbols_nodup_iff_boiler :
    ∃ linked u m fs items, linkAll Module.link .empty [boilerModule] = ⟨linked, u, .ok ()⟩ ∧
      (∀ m ∈ linked, m.ValidlyNamed) ∧ m ∈ linked ∧ m.render {} = .ok fs ∧
      (∀ c : CUnit, c.items {} m = .ok (items c)) ∧
      CUnit.symbols items =
        ["Boiler_State_marshal", "Boiler_State_unmarshal",
          "reset", "get_level", "set_level",
          "unmarshal", "get_unmarshal", "set_unmarshal",
          "reset_unmarshal", "get_level_unmarshal", "set_level_unmarshal",
          "Control_stubreset", "Attributes_stubget_level", "Attributes_stubset_level"] ∧
      (CUnit.symbols items).Nodup ∧
      (Item.clientNames (items .stubHeader)).Nodup := by
  have h : linkAll Module.link .empty [boilerModule] = ⟨_, _, .ok ()⟩ := rfl
  have hvalid : ∀ m ∈ (linkAll Module.link .empty [boilerModule]).part, m.ValidlyNamed := by decide
  have hm : _ ∈ (linkAll Module.link .empty [boilerModule]).part := List.mem_cons_self
  obtain ⟨items, hitems, hsymbols, hnodup, hwords, hclients⟩ :=
    symbols_nodup_iff (o := {}) h hvalid hm rfl
  exact ⟨_, _, _, _, items, h, hvalid, hm, rfl, fun c => (hitems c).1,
    hsymbols.trans (by decide), hnodup.2 (hwords (by decide)), hclients.2 (by decide)⟩

/-- A module with two services, one of which is named like the handler of the other, and with two
interfaces of one name. -/
def pumpModule : Module :=
  ⟨"Pump", [],
    [⟨"Control", .root, [⟨"reset", .void, [], []⟩]⟩,
     ⟨"Control", .root, [⟨"reset_unmarshal", .void, [], []⟩]⟩]⟩

/-- All names are identifiers of C, and the module links and is generated, but a server function and a
handler have one name, and two structs too. -/
theorem pump_reset_is_ambiguous :
    ∃ linked u m fs items, linkAll Module.link .empty [pumpModule] = ⟨linked, u, .ok ()⟩ ∧
      (∀ m ∈ linked, m.ValidlyNamed) ∧ m ∈ linked ∧ m.render {} = .ok fs ∧
      (∀ i ∈ m.interfaces, Identifier.IsValid i.name ∧
        ∀ o ∈ i.operations, Identifier.IsValid o.name) ∧
      (∀ c : CUnit, c.items {} m = .ok (items c)) ∧
      CUnit.symbols items =
        ["reset", "reset_unmarshal",
          "unmarshal", "get_unmarshal", "set_unmarshal",
          "reset_unmarshal", "reset_unmarshal_unmarshal",
          "Control_stubreset", "Control_stubreset_unmarshal"] ∧
      ¬(CUnit.symbols items).Nodup ∧
      Item.clientNames (items .stubHeader) = ["Control_stub", "Control_stub"] := by
  have h : linkAll Module.link .empty [pumpModule] = ⟨_, _, .ok ()⟩ := rfl
  have hvalid : ∀ m ∈ (linkAll Module.link .empty [pumpModule]).part, m.ValidlyNamed := by decide
  have hm : _ ∈ (linkAll Module.link .empty [pumpModule]).part := List.mem_cons_self
  have hrender : (linkAll Module.link .empty [pumpModule]).part[0].render {} = .ok _ := rfl
  obtain ⟨items, hitems⟩ := Classical.skolem.1 (exists_items_of_render hrender)
  have hsymbols := symbols_eq fun c => (hitems c).1
  exact ⟨_, _, _, _, items, h, hvalid, hm, hrender, by decide, fun c => (hitems c).1, hsymbols,
    by rw [hsymbols]; decide, CUnit.clientNames_stubHeader (hitems .stubHeader).1⟩

end Module

end WireStub
