import WireStub.Generate.Declaration
import WireStub.Proofs.Code.CNames
import WireStub.Proofs.Linking.TypeNames

/-!
# C names in files

A declaration has one C name, that of its path.  Its type and its codec functions are named after it,
in whatever file they stand.

* `Definition.cName` is the C name of a declaration, and `Definition.codecNames` are the names of its
  codec functions;
* `Definition.typeName?_of_item` and `Definition.map_name_of_codecs`: these are the names in the files;
* `Definition.exists_mem_codecNames_iff`: declarations share a codec name exactly if they have the same
  C name.
-/

namespace WireStub

namespace Definition

/-- The C name of a declaration. -/
def cName (d : Definition) : String := Identifier.ofScopedName d.path

/-- The names of the codec functions of a declaration. -/
def codecNames (d : Definition) : List String :=
  Half.both.map fun h => h.functionName ⟨d.cName, false⟩

end Definition

/-- The type that an item gives a name to. -/
def Item.typeName? : Item → Option String
  | .structType name _ | .enumType name _ | .aliasType name _ => some name
  | _ => none

/-- The C names that the types of a file have. -/
def Item.typeNames (items : List Item) : List String := items.filterMap typeName?

namespace Definition

variable {d : Definition}

/-- The C type of a declaration has its C name. -/
theorem name_of_cType {c : CType} (h : d.cType = .ok c) : c.name = d.cName := by
  cases d with
  | struct s =>
    simp only [cType] at h
    split at h
    · cases h
    · rw [(map_declarationName_eq_ok.1 h).2]
      rfl
  | enum e =>
    simp only [cType] at h
    split at h
    · cases h
    · rw [(map_declarationName_eq_ok.1 h).2]
      rfl
  | typedef t =>
    obtain ⟨_, -, -, rfl⟩ := cType_typedef_eq_ok h
    rfl

/-- The item of a declaration gives its C name to a type. -/
theorem typeName?_of_item {i : Item} (h : d.item = .ok i) : i.typeName? = some d.cName := by
  obtain ⟨c, hc, h⟩ := bind_eq_ok.1 h
  rw [← name_of_cType hc]
  cases d with
  | struct s =>
    obtain ⟨fields, -, h⟩ := bind_eq_ok.1 h
    rw [← Except.ok.inj h]
    rfl
  | enum e =>
    rw [← Except.ok.inj h]
    rfl
  | typedef t =>
    obtain ⟨declarator, -, h⟩ := bind_eq_ok.1 h
    rw [← Except.ok.inj h]
    rfl

/-- What looks for anything but types finds nothing in the items of declarations. -/
theorem filterMap_items_eq_nil {β : Type} {g : Item → Option β}
    (hg : ∀ i, i.typeName?.isSome → g i = none) {ds : List Definition} {types : List Item}
    (h : ds.mapM (·.item) = .ok types) : types.filterMap g = [] := by
  refine List.filterMap_eq_nil_iff.2 fun i hi => hg i ?_
  obtain ⟨d, -, hd⟩ := exists_left_of_mapM h hi
  rw [typeName?_of_item hd]
  rfl

/-- The codec functions of a declaration have its codec names. -/
theorem map_name_of_codecs {fs : List Function} (h : d.codecs = .ok fs) :
    fs.map (·.signature.name) = d.codecNames := by
  obtain ⟨c, hc, h⟩ := bind_eq_ok.1 h
  obtain ⟨body, -, h⟩ := bind_eq_ok.1 h
  have hcodec : c.codecPrefix = (CType.mk d.cName false).codecPrefix := by
    rw [CType.codecPrefix, name_of_cType hc]
    rfl
  rw [← Except.ok.inj h, codecNames, List.map_map]
  exact List.map_congr_left fun half _ => Half.functionName_eq_iff.2 ⟨rfl, hcodec⟩

/-- Two declarations share a codec name exactly if they have the same C name. -/
theorem exists_mem_codecNames_iff {e : Definition} (hd : d.path.AllValid) (he : e.path.AllValid) :
    (∃ s, s ∈ d.codecNames ∧ s ∈ e.codecNames) ↔ d.cName = e.cName := by
  have hcodec {c : Definition} (hc : c.path.AllValid) :
      (CType.mk c.cName false).codecPrefix = c.cName :=
    CType.codecPrefix_eq_name (Identifier.space_not_mem_ofScopedName hc)
  constructor
  · rintro ⟨s, hs, hs'⟩
    obtain ⟨half, -, rfl⟩ := List.mem_map.1 hs
    obtain ⟨half', -, h⟩ := List.mem_map.1 hs'
    have hsame := (Half.functionName_eq_iff.1 h).2
    rw [hcodec hd, hcodec he] at hsame
    exact hsame.symm
  · intro h
    refine ⟨_, List.mem_map_of_mem (by decide : Half.marshal ∈ Half.both), ?_⟩
    rw [codecNames, ← h]
    exact List.mem_map_of_mem (by decide)

theorem nodup_codecNames (d : Definition) : d.codecNames.Nodup :=
  (by decide : Half.both.Nodup).map fun _ _ h => (Half.functionName_eq_iff.1 h).1

end Definition

end WireStub
