import WireStub.Generate.CUnit
import WireStub.Proofs.Generate.CNames
import WireStub.Proofs.Linking.Homes

/-!
# C names of declarations

Linking refuses a path that is taken, and the generator makes the names of types and codec functions
from the paths.  Where modules and declarations have names that are identifiers of C, two declarations
have the same C name exactly if their paths have the same words: `A::B::C` and `A::B_C` are different
paths with one C name.

* `Module.ValidlyNamed` is what the names in a module have to be like;
* `cName_eq_iff` compares the C names of declarations, and `nodup_codecNames_iff` their codec names;
* `cNames_nodup_iff` is the main statement.
-/

namespace WireStub

open ScopedName

/-! ### Names of modules that link -/

/-- The names of a module and of its declarations are identifiers of C. -/
structure Module.ValidlyNamed (m : Module) : Prop where
  name : Identifier.IsValid m.name
  declarations : ∀ d ∈ m.declarations, Identifier.IsValid d.name

instance (m : Module) : Decidable m.ValidlyNamed :=
  decidable_of_iff (Identifier.IsValid m.name ∧ ∀ d ∈ m.declarations, Identifier.IsValid d.name)
    ⟨fun ⟨h, h'⟩ => ⟨h, h'⟩, fun h => ⟨h.name, h.declarations⟩⟩

section Modules

variable {ms linked : List Module} {t u : SymbolTable}

/-- A condition on segments that the names of the module and of its declarations meet is met by the
segments of the path of every declaration. -/
theorem forall_mem_segments_path {q : String → Prop} {m : Module} {d : Definition}
    (h : linkAll Module.link t ms = ⟨linked, u, .ok ()⟩) (hm : m ∈ linked) (hmodule : q m.name)
    (hnames : ∀ d ∈ m.declarations, q d.name) (hd : d ∈ m.declarations) :
    ∀ s ∈ d.path.segments, q s := by
  refine path_of_scope (q := fun p => ∀ s ∈ p.segments, q s) h hm ?_ (fun p e he hp s hs => ?_) hd
  · intro s hs
    obtain rfl := List.mem_singleton.1 hs
    exact hmodule
  · rw [segments_child, List.mem_append, List.mem_singleton] at hs
    rcases hs with hs | rfl
    · exact hp s hs
    · exact hnames e he

/-- A module that links has a name, and flattening leaves one. -/
theorem flattenSegment_name_ne {m : Module} (h : linkAll Module.link t ms = ⟨linked, u, .ok ()⟩)
    (hm : m ∈ linked) : Identifier.flattenSegment m.name ≠ "" := by
  have hname : m.name ≠ "" := by simpa using (nameable_linkAll h m hm).name
  intro hflat
  simpa [Identifier.flattenSegment, hname] using congrArg String.toList hflat

/-- The C name of a declaration begins with the module and ends with the declaration itself. -/
theorem exists_cName_eq {m : Module} {d : Definition}
    (h : linkAll Module.link t ms = ⟨linked, u, .ok ()⟩) (hm : m ∈ linked) (hd : d ∈ m.declarations) :
    ∃ rest, d.cName = Identifier.flattenSegment m.name ++ rest ++
      ("_" ++ Identifier.flattenSegment d.name) := by
  have hmodule : Identifier.ofScopedName (.child .root m.name) =
      Identifier.flattenSegment m.name ++ "" := by
    rw [String.append_empty]
    exact String.intercalate_singleton
  have hbegins : ∀ s, ∀ d ∈ m.declarations,
      (s.isRoot = false ∧ ∃ rest, Identifier.ofScopedName s = Identifier.flattenSegment m.name ++ rest) →
        (s.child d.name).isRoot = false ∧
          ∃ rest, Identifier.ofScopedName (s.child d.name) =
            Identifier.flattenSegment m.name ++ rest := by
    intro s d _ hs
    obtain ⟨rest, hrest⟩ := hs.2
    refine ⟨by simp [isRoot], rest ++ ("_" ++ Identifier.flattenSegment d.name), ?_⟩
    rw [Identifier.ofScopedName_child hs.1, hrest, String.append_assoc]
  obtain ⟨s, ⟨hroot, rest, hrest⟩, hpath⟩ := exists_scope h hm ⟨rfl, "", hmodule⟩ hbegins hd
  exact ⟨rest, by rw [Definition.cName, hpath, Identifier.ofScopedName_child hroot, hrest]⟩

/-- In validly named modules that link, the paths of the declarations are valid. -/
theorem allValid_path (h : linkAll Module.link t ms = ⟨linked, u, .ok ()⟩)
    (hvalid : ∀ m ∈ linked, m.ValidlyNamed) {d : Definition}
    (hd : d ∈ linked.flatMap (·.declarations)) : d.path.AllValid := by
  obtain ⟨m, hm, hd⟩ := List.mem_flatMap.1 hd
  exact forall_mem_segments_path h hm (hvalid m hm).name (hvalid m hm).declarations hd

/-- So C names are compared by words. -/
theorem cName_eq_iff (h : linkAll Module.link t ms = ⟨linked, u, .ok ()⟩)
    (hvalid : ∀ m ∈ linked, m.ValidlyNamed) {d e : Definition}
    (hd : d ∈ linked.flatMap (·.declarations)) (he : e ∈ linked.flatMap (·.declarations)) :
    d.cName = e.cName ↔ d.path.words = e.path.words := by
  have hroot {c : Definition} (hc : c ∈ linked.flatMap (·.declarations)) : c.path.isRoot = false := by
    obtain ⟨m, hm, hc⟩ := List.mem_flatMap.1 hc
    exact isRoot_path h hm hc
  exact Identifier.ofScopedName_eq_iff (allValid_path h hvalid hd) (allValid_path h hvalid he)
    (hroot hd) (hroot he)

/-- The codec names of declarations are different exactly if their C names are. -/
theorem nodup_codecNames_iff {ds : List Definition} (hvalid : ∀ d ∈ ds, d.path.AllValid) :
    (ds.flatMap (·.codecNames)).Nodup ↔ (ds.map (·.cName)).Nodup := by
  rw [List.nodup_flatMap, and_iff_right fun d _ => d.nodup_codecNames, List.Nodup, List.pairwise_map]
  refine List.Pairwise.iff_of_mem fun {d e} hd he => ?_
  rw [← not_iff_not, ne_eq, not_not,
    ← Definition.exists_mem_codecNames_iff (hvalid d hd) (hvalid e he)]
  simp [List.Disjoint]

end Modules

/-- **C names.**  The type of a declaration has its C name and the codec functions have its codec names.
In modules that link, with names that are identifiers of C, two declarations have the same C name if and
only if their paths have the same words.  So the types of a schema have different names, and the codec
functions too, if and only if the paths have different words.  Without underscores in the names of
modules and declarations, they do. -/
theorem cNames_nodup_iff {ms linked : List Module} {t u : SymbolTable}
    (h : linkAll Module.link t ms = ⟨linked, u, .ok ()⟩)
    (hvalid : ∀ m ∈ linked, m.ValidlyNamed) :
    (∀ d ∈ linked.flatMap (·.declarations),
        (∀ i, d.item = .ok i → i.typeName? = some d.cName) ∧
          ∀ fs, d.codecs = .ok fs → fs.map (·.signature.name) = d.codecNames) ∧
      (∀ d ∈ linked.flatMap (·.declarations), ∀ e ∈ linked.flatMap (·.declarations),
        d.cName = e.cName ↔ d.path.words = e.path.words) ∧
      (((linked.flatMap (·.declarations)).map (·.cName)).Nodup ↔
        ((linked.flatMap (·.declarations)).map (·.path.words)).Nodup) ∧
      (((linked.flatMap (·.declarations)).flatMap (·.codecNames)).Nodup ↔
        ((linked.flatMap (·.declarations)).map (·.path.words)).Nodup) ∧
      ((∀ m ∈ linked, '_' ∉ m.name.toList ∧ ∀ d ∈ m.declarations, '_' ∉ d.name.toList) →
        ((linked.flatMap (·.declarations)).map (·.path.words)).Nodup) := by
  obtain ⟨ds, hds⟩ : ∃ ds, ds = linked.flatMap (·.declarations) := ⟨_, rfl⟩
  have hcompare : ∀ d ∈ ds, ∀ e ∈ ds, d.cName = e.cName ↔ d.path.words = e.path.words := by
    rw [hds]
    exact fun d hd e he => cName_eq_iff h hvalid hd he
  have hpaths : (ds.map (·.path)).Nodup := hds ▸ (List.nodup_append.1 (nodup_path_declarations h)).2.1
  have htypes : (ds.map (·.cName)).Nodup ↔ (ds.map (·.path.words)).Nodup := by
    rw [List.nodup_map_iff_inj_on hpaths.of_map, List.nodup_map_iff_inj_on hpaths.of_map]
    exact forall₄_congr fun d hd e he => by rw [hcompare d hd e he]
  have hcodecs : (ds.flatMap (·.codecNames)).Nodup ↔ (ds.map (·.cName)).Nodup :=
    nodup_codecNames_iff fun d hd => allValid_path h hvalid (hds ▸ hd)
  rw [← hds]
  refine ⟨fun d _ => ⟨fun _ => d.typeName?_of_item, fun _ => d.map_name_of_codecs⟩, hcompare, htypes,
    hcodecs.trans htypes, fun hplain => ?_⟩
  -- without underscores the words are the path, and no two paths are equal
  have hsegments : ∀ d ∈ ds, ∀ s ∈ d.path.segments, '_' ∉ s.toList := by
    intro d hd
    obtain ⟨m, hm, hd⟩ := List.mem_flatMap.1 (hds ▸ hd)
    exact forall_mem_segments_path h hm (hplain m hm).1 (hplain m hm).2 hd
  rw [List.nodup_map_iff_inj_on hpaths.of_map]
  intro d hd e he hwords
  exact List.inj_on_of_nodup_map hpaths hd he
    (eq_of_words_eq (hsegments d hd) (hsegments e he) hwords)

/-- A struct with a struct in it. -/
def tankModule : Module :=
  ⟨"Plant", [.struct ⟨"Tank", .root,
    [⟨"level", .struct ⟨"Level", .root, [⟨"height", .primitive .long, []⟩]⟩, []⟩]⟩], []⟩

theorem cNames_nodup_iff_tank :
    ∃ linked u, linkAll Module.link .empty [tankModule] = ⟨linked, u, .ok ()⟩ ∧
      (∀ m ∈ linked, m.ValidlyNamed) ∧
      ((linked.flatMap (·.declarations)).map (·.cName)).Nodup ∧
      ((linked.flatMap (·.declarations)).flatMap (·.codecNames)).Nodup := by
  have h : linkAll Module.link .empty [tankModule] = ⟨_, _, .ok ()⟩ := rfl
  have hvalid : ∀ m ∈ (linkAll Module.link .empty [tankModule]).part, m.ValidlyNamed := by decide
  obtain ⟨-, -, htypes, hcodecs, hplain⟩ := cNames_nodup_iff h hvalid
  have hwords := hplain (by decide)
  exact ⟨_, _, h, hvalid, htypes.2 hwords, hcodecs.2 hwords⟩

/-- A struct with a struct in it, and a struct that is named like both with an underscore between the
names. -/
def valveModule : Module :=
  ⟨"Plant", [
    .struct ⟨"Valve", .root,
      [⟨"state", .struct ⟨"State", .root, [⟨"open", .primitive .boolean, []⟩]⟩, []⟩]⟩,
    .struct ⟨"Valve_State", .root, [⟨"level", .primitive .octet, []⟩]⟩], []⟩

/-- All names are identifiers of C, and the module links and is generated, but two types have one name,
and so do their codec functions. -/
theorem valve_states_share_cName :
    ∃ linked u m types functions,
      linkAll Module.link .empty [valveModule] = ⟨linked, u, .ok ()⟩ ∧
      (∀ m ∈ linked, m.ValidlyNamed) ∧ m ∈ linked ∧
      m.declarations.map (·.path.display) =
        ["Plant::Valve::State", "Plant::Valve", "Plant::Valve_State"] ∧
      CUnit.declarations.items {} m = .ok types ∧
      Item.typeNames types = ["Plant_Valve_State", "Plant_Valve", "Plant_Valve_State"] ∧
      CUnit.codecSource.items {} m = .ok functions ∧
      (Item.functions functions).map (·.signature.name) =
        ["Plant_Valve_State_marshal", "Plant_Valve_State_unmarshal",
          "Plant_Valve_marshal", "Plant_Valve_unmarshal",
          "Plant_Valve_State_marshal", "Plant_Valve_State_unmarshal"] := by
  have h : linkAll Module.link .empty [valveModule] = ⟨_, _, .ok ()⟩ := rfl
  have hvalid : ∀ m ∈ (linkAll Module.link .empty [valveModule]).part, m.ValidlyNamed := by decide
  exact ⟨_, _, _, _, _, h, hvalid, List.mem_cons_self, by decide, rfl, by decide, rfl, by decide⟩

end WireStub
