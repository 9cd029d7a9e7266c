import WireStub.Proofs.Code.Items
import WireStub.Proofs.Code.Loops
import WireStub.Proofs.Codec.Mirror

/-!
# Extents

A declaration becomes a C type with dimensions, and its codec functions walk the values of that type
with loops over dimensions.  Both are the same dimensions in the same order, for every field of a
struct and for every typedef of an array, so the loops stay within the arrays and reach all elements.

* `Place.indexed` is an element of nested arrays, and `Place.text_indexed` compares it with the place
  that a step of a codec moves;
* `Statement.Walks` says what a step of a codec does with a place of a type with dimensions;
* `Definition.codecs_walk_item` is the main statement.
-/

namespace WireStub

/-! ### Elements of arrays -/

/-- An element of nested arrays, with one index for each of them, outermost first. -/
def Place.indexed (p : Place) (indices : List String) : Place := indices.foldl .element p

theorem Place.text_indexed (dims : List UInt32) : ∀ (depth : Nat) (p : Place),
    (p.indexed (Statement.counterNames depth dims.length)).text =
      indexedPlace depth p.text dims := by
  induction dims with
  | nil => exact fun depth p => rfl
  | cons n ns ih => exact fun depth p => ih (depth + 1) (p.element (Statement.indexName depth))

theorem innermost_nest {f : String → Statement} (hf : ∀ p, (f p).innermost = f p)
    (dims : List UInt32) : ∀ (depth : Nat) (place : String),
      (Statement.nest f depth place dims).innermost = f (indexedPlace depth place dims) := by
  induction dims with
  | nil => exact fun depth place => hf place
  | cons n ns ih => exact fun depth place => ih (depth + 1) _

/-! ### Steps -/

/-- The statement moves a value at a place, whose type has dimensions, by the codec of the type. -/
structure Statement.Walks (s : Statement) (h : Half) (counter : String) (p : Place)
    (d : Declarator) : Prop where
  /-- The loops are those of the dimensions, outermost first. -/
  bounds : s.bounds = d.dims
  /-- They have the counters `i0`, `i1` and so on. -/
  counters : s.counters = counterNames 0 d.dims.length
  distinct : s.counters.Nodup
  positive : ∀ n ∈ s.bounds, 0 < n.toNat
  /-- In the loops stands one call, for the element that the counters index. -/
  innermost : s.innermost =
    .advance counter (stepCall h counter d.type (p.indexed s.counters).text)
  /-- The lines of the statement. -/
  lines : ∀ level, Layout.lines level s.layout =
    written h (nestLines counter d.type level 0 p.text d.dims)
  /-- The indices are always below the dimensions, and all such indices come up. -/
  within : ∀ v, v ∈ s.indices ↔
    ∃ is, v = some is ∧ List.Forall₂ (fun i n => i < n.toNat) is d.dims
  once : s.indices.Nodup
  /-- Each time, the call is made. -/
  executed : s.unroll = List.replicate s.indices.length s.innermost

theorem walks_codecStep (h : Half) (counter : String) (p : Place) {d : Declarator}
    (hdims : emptyDim? d.dims = none) : (codecStep h counter p.text d).Walks h counter p d := by
  have hloops : (codecStep h counter p.text d).loops =
      (Statement.counterNames 0 d.dims.length).zip d.dims :=
    Statement.loops_nest (fun _ => rfl) d.dims 0 p.text
  have hlength : (Statement.counterNames 0 d.dims.length).length = d.dims.length := by
    simp [Statement.counterNames]
  have hcounters : (codecStep h counter p.text d).counters =
      Statement.counterNames 0 d.dims.length := by
    rw [Statement.counters, hloops, List.map_fst_zip hlength.le]
  have hbounds : (codecStep h counter p.text d).bounds = d.dims := by
    rw [Statement.bounds, hloops, List.map_snd_zip hlength.ge]
  have hdistinct : (codecStep h counter p.text d).counters.Nodup :=
    hcounters ▸ Statement.nodup_counterNames 0 d.dims.length
  refine ⟨hbounds, hcounters, hdistinct, ?_, ?_, lines_codecStep h counter p.text d, fun v => ?_,
    Statement.nodup_indices hdistinct, Statement.unroll_eq_replicate _⟩
  · intro n hn
    have hne : n ≠ 0 := by simpa using List.findIdx?_eq_none_iff.1 hdims n (hbounds ▸ hn)
    exact Nat.pos_of_ne_zero fun hzero => hne (UInt32.toNat_inj.1 hzero)
  · rw [hcounters, Place.text_indexed]
    exact innermost_nest (fun _ => rfl) d.dims 0 p.text
  · rw [Statement.mem_indices hdistinct, hbounds]

/-- The statement counts the bytes of a codec call, in loops or not. -/
def Statement.isStep (s : Statement) : Bool :=
  match s.innermost with
  | advance _ _ => true
  | _ => false

/-- The steps of a codec body. -/
def codecSteps (body : List Statement) : List Statement := body.filter (·.isStep)

theorem isStep_codecStep (h : Half) (counter place : String) (d : Declarator) :
    (codecStep h counter place d).isStep = true := by
  rw [Statement.isStep, codecStep, innermost_nest fun _ => rfl]

theorem codecSteps_structBody (h : Half) (fields : List Field) :
    codecSteps (structBody h fields) =
      fields.map fun f => codecStep h "structOffset" f.place f.declarator := by
  have hfields : (fields.map fun f => codecStep h "structOffset" f.place f.declarator).filter
      (·.isStep) = fields.map fun f => codecStep h "structOffset" f.place f.declarator := by
    refine List.filter_eq_self.2 fun s hs => ?_
    obtain ⟨f, -, rfl⟩ := List.mem_map.1 hs
    exact isStep_codecStep h "structOffset" f.place f.declarator
  rw [codecSteps, structBody, List.filter_append, List.filter_append, List.filter_append, hfields]
  cases h <;> simp [Statement.isStep, Statement.innermost]

theorem codecSteps_typedefBody (h : Half) {d : Declarator} (hdims : d.dims ≠ []) :
    codecSteps (typedefBody h d) = [codecStep h "typeOffset" "(*value)" d] := by
  rw [codecSteps, typedefBody, if_neg (by simpa using hdims), List.filter_cons,
    List.filter_cons_of_pos (isStep_codecStep h "typeOffset" "(*value)" d)]
  rfl

/-! ### Types -/

namespace Definition

variable {i : Item}

theorem item_struct_eq_ok {s : StructDecl} :
    (struct s).item = .ok i ↔ ∃ c fields, (struct s).cType = .ok c ∧
      s.fields (struct s).context = .ok fields ∧ i = .structType c.name fields := by
  simp only [item, bind_eq_ok, pure_eq_ok, Except.ok.injEq, exists_and_left,
    @eq_comm _ _ i]

theorem item_typedef_eq_ok {t : TypedefDecl} :
    (typedef t).item = .ok i ↔ ∃ c d, (typedef t).cType = .ok c ∧
      t.type.declarator (typedef t).context t.dims = .ok d ∧ i = .aliasType c.name d := by
  simp only [item, bind_eq_ok, pure_eq_ok, Except.ok.injEq, exists_and_left,
    @eq_comm _ _ i]

/-- A declaration has a C type exactly if it has codec functions. -/
theorem exists_item_iff (d : Definition) : (∃ i, d.item = .ok i) ↔ ∃ fs, d.codecs = .ok fs := by
  cases d with
  | struct s =>
    simp only [item_struct_eq_ok, codecs, codecBody, bind_eq_ok, Except.ok.injEq]
    constructor
    · rintro ⟨_, c, fields, hc, hfields, -⟩
      exact ⟨_, c, hc, _, ⟨fields, hfields, rfl⟩, rfl⟩
    · rintro ⟨_, c, hc, _, ⟨fields, hfields, -⟩, -⟩
      exact ⟨_, c, fields, hc, hfields, rfl⟩
  | enum e =>
    simp only [item, codecs, codecBody, bind_eq_ok, pure_eq_ok, Except.ok.injEq]
    constructor
    · rintro ⟨_, c, hc, -⟩
      exact ⟨_, c, hc, _, rfl, rfl⟩
    · rintro ⟨_, c, hc, -⟩
      exact ⟨_, c, hc, rfl⟩
  | typedef t =>
    simp only [item_typedef_eq_ok, codecs, codecBody, bind_eq_ok, Except.ok.injEq]
    constructor
    · rintro ⟨_, c, declarator, hc, hdeclarator, -⟩
      exact ⟨_, c, hc, _, ⟨declarator, hdeclarator, rfl⟩, rfl⟩
    · rintro ⟨_, c, hc, _, ⟨declarator, hdeclarator, -⟩, -⟩
      exact ⟨_, c, declarator, hc, hdeclarator, rfl⟩

end Definition

/-- The item is the C type of a struct, and the functions are its writer and its reader, which walk it:
the steps of both are those of the fields, one for each member, in the order of the members.  The
functions are written with their signatures and with all lines of their steps. -/
def StructDecl.Walked (s : StructDecl) (i : Item) (fs : List Function) : Prop :=
  ∃ (c : CType) (fields : List Field) (body : Half → List Statement),
    (Definition.struct s).cType = .ok c ∧
    List.Forall₂ (Member.Resolves (Definition.struct s).context) s.members fields ∧
    Layout.lines 0 i.layout =
      [(0, "typedef struct"), (0, "\x7b")] ++
        fields.map (fun f => (1, f.declarator.text f.name ++ ";")) ++
          [(0, "\x7d " ++ c.name ++ ";"), (0, "")] ∧
    fs = [⟨Half.marshal.signature c, body .marshal⟩, ⟨Half.unmarshal.signature c, body .unmarshal⟩] ∧
    (∀ f ∈ fs, Layout.lines 0 f.layout = f.lines) ∧
    ∀ h, List.Forall₂
      (fun (f : Field) (step : Statement) =>
        step.Walks h "structOffset" (.field (.name "value") f.name) f.declarator)
      fields (codecSteps (body h))

/-- The item is the C type of a typedef with dimensions, and the functions are its writer and its reader,
which walk it in one step. -/
def TypedefDecl.Walked (t : TypedefDecl) (i : Item) (fs : List Function) : Prop :=
  ∃ (c : CType) (d : Declarator) (body : Half → List Statement),
    (Definition.typedef t).cType = .ok c ∧
    t.type.valueType (Definition.typedef t).context = .ok d.type ∧ d.dims = t.dims ∧
    Layout.lines 0 i.layout = [(0, "typedef " ++ d.text c.name ++ ";"), (0, "")] ∧
    fs = [⟨Half.marshal.signature c, body .marshal⟩, ⟨Half.unmarshal.signature c, body .unmarshal⟩] ∧
    (∀ f ∈ fs, Layout.lines 0 f.layout = f.lines) ∧
    ∀ h, ∃ step, codecSteps (body h) = [step] ∧
      step.Walks h "typeOffset" (.contents (.name "value")) d

namespace Definition

/-- **Codecs walk what is declared.**  A declaration has a C type exactly if it has codec functions.
Then these are a writer and a reader.  Both functions of a struct have one step for each field, and those
of a typedef with dimensions one step, with the dimensions of the type for bounds: the steps reach all
elements and nothing else. -/
theorem codecs_walk_item :
    (∀ d : Definition, (∃ i, d.item = .ok i) ↔ ∃ fs, d.codecs = .ok fs) ∧
      (∀ (s : StructDecl) (i : Item) (fs : List Function),
        (struct s).item = .ok i → (struct s).codecs = .ok fs → s.Walked i fs) ∧
      ∀ (t : TypedefDecl) (i : Item) (fs : List Function), t.dims ≠ [] →
        (typedef t).item = .ok i → (typedef t).codecs = .ok fs → t.Walked i fs := by
  refine ⟨exists_item_iff, fun s i fs hi hfs => ?_, fun t i fs hdims hi hfs => ?_⟩
  · obtain ⟨c, fields, hc, hfields, rfl⟩ := item_struct_eq_ok.1 hi
    obtain ⟨c', fields', hc', hfields', rfl⟩ := codecs_struct_eq_ok hfs
    cases hc.symm.trans hc'
    cases hfields.symm.trans hfields'
    have hresolves := StructDecl.fields_eq_ok_iff.1 hfields
    refine ⟨c, fields, fun h => structBody h fields, hc, hresolves, Item.lines_layout _, rfl,
      fun f _ => f.lines_layout, fun h => ?_⟩
    rw [codecSteps_structBody, List.forall₂_map_right_iff, List.forall₂_same]
    intro f hf
    obtain ⟨x, -, hx, -⟩ := exists_left_of_forall₂ hresolves hf
    obtain ⟨-, hpositive, hdims⟩ := TypeExpr.declarator_eq_ok_iff.1 hx
    exact walks_codecStep h "structOffset" (.field (.name "value") f.name) (hdims ▸ hpositive)
  · obtain ⟨c, d, hc, hd, rfl⟩ := item_typedef_eq_ok.1 hi
    obtain ⟨c', d', hc', hd', rfl⟩ := codecs_typedef_eq_ok hfs
    cases hc.symm.trans hc'
    cases hd.symm.trans hd'
    obtain ⟨htype, hpositive, hsame⟩ := TypeExpr.declarator_eq_ok_iff.1 hd
    refine ⟨c, d, fun h => typedefBody h d, hc, htype, hsame, Item.lines_layout _, rfl,
      fun f _ => f.lines_layout, fun h => ⟨_, codecSteps_typedefBody h (hsame ▸ hdims), ?_⟩⟩
    exact walks_codecStep h "typeOffset" (.contents (.name "value")) (hsame ▸ hpositive)

/-- A grid of cells, and a mark. -/
def gridStruct : StructDecl :=
  ⟨"Grid", ⟨["Demo", "Grid"]⟩,
    [⟨"int", .primitive .octet, [3, 2]⟩, ⟨"mark", .primitive .boolean, []⟩]⟩

/-- Rows of grids. -/
def gridsTypedef : TypedefDecl :=
  ⟨"Grids", ⟨["Demo", "Grids"]⟩, .declared ⟨"Grid", some ⟨["Demo", "Grid"]⟩, some .struct⟩, [4, 5]⟩

theorem codecs_walk_item_grid :
    ∃ i fs j gs, (struct gridStruct).item = .ok i ∧ (struct gridStruct).codecs = .ok fs ∧
      (typedef gridsTypedef).item = .ok j ∧ (typedef gridsTypedef).codecs = .ok gs ∧
      gridStruct.Walked i fs ∧ gridsTypedef.Walked j gs :=
  ⟨_, _, _, _, rfl, rfl, rfl, rfl, codecs_walk_item.2.1 gridStruct _ _ rfl rfl,
    codecs_walk_item.2.2 gridsTypedef _ _ (by decide) rfl rfl⟩

end Definition

end WireStub
