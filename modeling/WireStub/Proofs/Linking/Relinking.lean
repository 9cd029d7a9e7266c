import WireStub.Proofs.Linking.Paths
import WireStub.Proofs.Linking.Rebinding
import WireStub.Proofs.Linking.Renaming
import WireStub.Proofs.Linking.Retracing
import WireStub.Proofs.Linking.Scopes
import WireStub.Proofs.Linking.Scoping
import WireStub.Proofs.Schema.RoundTrip
import WireStub.Proofs.ScopedName

/-!
# Linking what was written

A linked schema is written with the paths of the targets in place of the references, and it can be
read back and linked again, with the same paths for all declarations.  The written paths have no
leading `::`, so each is looked up from the scope of its reference outwards, and another declaration
may *capture* it: one that has the same path within a scope around the reference.  Where nothing is
captured, and only there, linking binds everything as before.

* `Captures` says that one of some names captures a path, and `SymbolTable.lookup?_display_iff` that a
  written path leads back to its declaration unless it is captured;
* `Module.PlainlyNamed` is what the names in a module have to be like for paths to be read back, and
  `exists_plain_target` what targets are like then;
* `exists_relinked`: what was written links, and only its references can differ;
* `relinks_iff_not_captures` is the main statement.
-/

namespace WireStub

open Occurrence ScopedName

/-- One of the names captures the path when it is read from the scope: within the scope or one around
it, but not at the root, there is a name for the path. -/
def Captures (names : List ScopedName) (scope path : ScopedName) : Prop :=
  ∃ Q : ScopedName, Q ≠ .root ∧ Q.segments <+: scope.segments ∧ Q.join path ∈ names

/-- A written path leads back to its declaration, unless it is captured. -/
theorem SymbolTable.lookup?_display_iff {t : SymbolTable} {n scope : ScopedName} {k : Kind}
    (hn : n.WellFormed) (hroot : n.isRoot = false) (hk : (n, k) ∈ t.entries) :
    t.lookup? n.display scope = some (n, k) ↔ ¬Captures t.names scope n := by
  rw [lookup?_eq_some_iff, parse_display hn]
  have hrelative := isAbsolute_display hn hroot
  constructor
  · rintro ⟨-, hdenotes⟩ ⟨Q, hQ, hprefix, hmem⟩
    obtain ⟨P, -, htarget, -, houter⟩ := hdenotes.relative hrelative
    rw [parse_display hn] at htarget houter
    -- the path is found at the root, so every other scope is an inner one
    have hP : P.segments = [] := by
      have hlength := congrArg (fun m : ScopedName => m.segments.length) htarget
      simpa using hlength
    have hlonger : P.segments.length < Q.segments.length := by
      rw [hP]
      exact List.length_pos_iff.2 fun hnil => hQ (congrArg ScopedName.mk hnil)
    exact houter Q hprefix hlonger hmem
  · intro hfree
    refine ⟨hroot, hk, fun h => absurd (hrelative.symm.trans h) (by simp), fun _ => ?_⟩
    rw [parse_display hn]
    refine ⟨.root, List.nil_prefix, rfl, List.mem_map_of_mem hk, fun Q hQ hlonger hmem => ?_⟩
    refine hfree ⟨Q, ?_, hQ, hmem⟩
    rintro rfl
    exact absurd hlonger (Nat.lt_irrefl _)

/-- A written path leads to some declaration, if it is the path of one. -/
theorem SymbolTable.exists_lookup?_display {t : SymbolTable} {n scope : ScopedName}
    (hn : n.WellFormed) (hroot : n.isRoot = false) (hmem : n ∈ t.names) :
    ∃ found, t.lookup? n.display scope = some found := by
  have hfound : scope.enclosing.findSome? (t.within? n) ≠ none := by
    intro hnone
    have hnot := List.findSome?_eq_none_iff.1 hnone .root (mem_enclosing.2 List.nil_prefix)
    exact within?_eq_none_iff.1 hnot hmem
  obtain ⟨found, hfound⟩ := Option.ne_none_iff_exists'.1 hfound
  refine ⟨found, ?_⟩
  simp [lookup?, parse_display hn, hroot, isAbsolute_display hn hroot, hfound]

/-! ### Plain names -/

/-- The module, its declarations and its interfaces have plain names. -/
structure Module.PlainlyNamed (m : Module) : Prop where
  name : IsPlain m.name
  declarations : ∀ d ∈ m.declarations, IsPlain d.name
  interfaces : ∀ i ∈ m.interfaces, IsPlain i.name

instance (m : Module) : Decidable m.PlainlyNamed :=
  decidable_of_iff (IsPlain m.name ∧ (∀ d ∈ m.declarations, IsPlain d.name) ∧
      ∀ i ∈ m.interfaces, IsPlain i.name)
    ⟨fun ⟨h, h', h''⟩ => ⟨h, h', h''⟩, fun h => ⟨h.name, h.declarations, h.interfaces⟩⟩

section Plain

variable {ms linked : List Module} {u : SymbolTable}

/-- In plainly named modules that link, the paths of the declarations are plain. -/
theorem allPlain_path (h : linkAll Module.link .empty ms = ⟨linked, u, .ok ()⟩)
    (hplain : ∀ m ∈ linked, m.PlainlyNamed) {s : ScopedName} {d : Definition}
    (hd : .declares s d ∈ linked.flatMap (·.occurrences)) : d.path.AllPlain := by
  have hrun := run_link_modules h
  obtain ⟨m, hm, hdm⟩ := List.mem_flatMap.1 hd
  have hname := (hplain m hm).declarations
  have hoperations := (located_linkAll h m hm).operations
  have hinherited : Inherited AllPlain m.occurrences := by
    intro s d hd hs
    rw [hrun.path_eq (List.mem_flatMap.2 ⟨m, hm, hd⟩)]
    exact hs.child (hname d (Module.mem_declarations_of_occurs hoperations hd))
  have hmodule : AllPlain (.child .root m.name) := AllPlain.root.child (hplain m hm).name
  have hinterfaces : ∀ i ∈ m.interfaces, i.path.AllPlain := by
    intro i hi
    rw [((nameable_linkAll h m hm).interfaces i hi).2]
    exact hmodule.child ((hplain m hm).interfaces i hi)
  exact hinherited s d hdm (Module.scope_of_occurs hmodule hinterfaces hinherited _ hdm)

/-- In plainly named modules that link, references lead to plain paths. -/
theorem exists_plain_target (h : linkAll Module.link .empty ms = ⟨linked, u, .ok ()⟩)
    (hplain : ∀ m ∈ linked, m.PlainlyNamed) {before after : List Occurrence} {scope : ScopedName}
    {r : Reference} (hsplit : linked.flatMap (·.occurrences) = before ++ .refers scope r :: after) :
    ∃ target kind, r.target = some target ∧ r.kind = some kind ∧ (target, kind) ∈ entries before ∧
      target.AllPlain ∧ target.isRoot = false := by
  obtain ⟨-, hdenotes, -⟩ := references_bind_innermost h
  obtain ⟨target, kind, htarget, hkind, hdenotes⟩ := hdenotes before scope r after hsplit
  obtain ⟨x, hx, hentry⟩ := List.mem_filterMap.1 hdenotes.declared
  cases x with
  | refers => cases hentry
  | declares s d =>
    obtain ⟨k, -, hentry⟩ := Option.map_eq_some_iff.1 hentry
    obtain ⟨rfl, -⟩ := Prod.mk.inj hentry
    have hd : .declares s d ∈ linked.flatMap (·.occurrences) := by
      rw [hsplit]
      exact List.mem_append_left _ hx
    exact ⟨_, _, htarget, hkind, hdenotes.declared, allPlain_path h hplain hd,
      (run_link_modules h).isRoot_eq_false hd⟩

/-- What is written of plainly named modules links again, and up to references it is the same. -/
theorem exists_relinked (h : linkAll Module.link .empty ms = ⟨linked, u, .ok ()⟩)
    (hplain : ∀ m ∈ linked, m.PlainlyNamed) :
    ∃ relinked v,
      linkAll Module.link .empty (linked.map (·.relabel (fun _ => .root) .reread)) =
        ⟨relinked, v, .ok ()⟩ ∧
      relinked.map (·.relabel id .erased) = linked.map (·.relabel id .erased) := by
  have hfindable : ∀ m ∈ linked, ∀ r ∈ m.references, r.Findable .reread := by
    intro m hm r hr target htarget t scope hmem
    have hoccurs : r ∈ (linked.flatMap (·.occurrences)).filterMap reference? := by
      rw [(references_bind_innermost h).1]
      exact List.mem_flatMap.2 ⟨m, hm, hr⟩
    obtain ⟨x, hx, hxr⟩ := List.mem_filterMap.1 hoccurs
    cases x with
    | declares => cases hxr
    | refers s q =>
      cases hxr
      obtain ⟨before, after, hsplit⟩ := List.append_of_mem hx
      obtain ⟨_, _, htarget', -, -, hpath, hroot⟩ := exists_plain_target h hplain hsplit
      cases htarget.symm.trans htarget'
      have hname : r.reread.name = target.display := by
        simp [Reference.reread, Reference.unlinked, Reference.written, htarget]
      rw [hname]
      exact SymbolTable.exists_lookup?_display hpath.wellFormed hroot hmem
  have halike := linkAll_alike (l := Module.link)
    (p := fun m : Module => ∀ r ∈ m.references, r.Findable .reread)
    (fun _ _ _ _ ht h hr => Module.alike_link (fun _ => .root) .reread ht h hr)
    (rfl : SymbolTable.empty.names = SymbolTable.empty.names) (congrArg Linked.outcome h)
    (h ▸ hfindable)
  rw [h] at halike
  obtain ⟨b, hb⟩ := halike.succeeds
  exact ⟨_, _, congrArg (Linked.mk _ _) hb, halike.part⟩

end Plain

/-! ### Linking again -/

/-- A linked reference under the name under which it is written. -/
def Reference.respelled (r : Reference) : Reference := { r with name := r.written }

theorem Reference.kind_respelled (r : Reference) : r.respelled.kind = r.kind := rfl

/-- A linked module with its references under the names under which they are written. -/
def Module.respelled (m : Module) : Module := m.relabel id Reference.respelled

/-- A respelled reference is bound to its target again, unless this is captured. -/
theorem Occurrence.act_respelled_iff {t : SymbolTable} {scope target : ScopedName} {r : Reference}
    {k : Kind} (htarget : r.target = some target) (hkind : r.kind = some k)
    (hk : (target, k) ∈ t.entries) (hplain : target.AllPlain) (hroot : target.isRoot = false) :
    Act t (.refers scope r.respelled) t ↔ ¬Captures t.names scope target := by
  have hname : r.respelled.name = target.display := by
    simp [Reference.respelled, Reference.written, htarget]
  rw [← SymbolTable.lookup?_display_iff hplain.wellFormed hroot hk, ← hname]
  constructor
  · rintro (_ | ⟨hlookup, htarget', hkind'⟩)
    cases htarget.symm.trans htarget'
    cases hkind.symm.trans hkind'
    exact hlookup
  · exact fun hlookup => .refers hlookup htarget hkind

theorem occurrences_respelled (ms : List Module) :
    (ms.map Module.respelled).flatMap (·.occurrences) =
      (ms.flatMap (·.occurrences)).map (rebind Reference.respelled) := by
  simp only [List.flatMap_map, List.map_flatMap, Module.respelled, Module.occurrences_relabel]

/-- What is read back of a module is its respelled form before linking. -/
theorem Module.unlinked_respelled (m : Module) :
    m.respelled.unlinked = m.relabel (fun _ => .root) Reference.reread :=
  m.relabel_relabel id Reference.respelled (fun _ => .root) fun r => .unlinked r.name

theorem Module.unlinked_reread (m : Module) :
    (m.relabel (fun _ => .root) Reference.reread).unlinked =
      m.relabel (fun _ => .root) Reference.reread :=
  m.relabel_relabel (fun _ => .root) Reference.reread (fun _ => .root) fun r => .unlinked r.name

/-- **Linking what was written.**  Modules that link and have plain names are written, and all that is
written can be read back and linked again.  Up to references, the same modules come out of it.  All
references have the same targets and kinds too, under the written names, if and only if no target is
captured by a declaration that is visited before its reference. -/
theorem relinks_iff_not_captures {ms linked : List Module} {u : SymbolTable}
    (h : linkAll Module.link .empty ms = ⟨linked, u, .ok ()⟩)
    (hplain : ∀ m ∈ linked, m.PlainlyNamed) :
    ∃ back relinked v, linked.mapM (fun m => Module.read? m.write) = some back ∧
      linkAll Module.link .empty back = ⟨relinked, v, .ok ()⟩ ∧
      relinked.map (·.relabel id .erased) = linked.map (·.relabel id .erased) ∧
      (relinked = linked.map Module.respelled ↔
        ∀ before scope r after target,
          linked.flatMap (·.occurrences) = before ++ .refers scope r :: after →
            r.target = some target → ¬Captures ((entries before).map (·.1)) scope target) := by
  have hback := mapM_eq_some_map linked fun m _ => m.read?_write
  obtain ⟨relinked, v, hlink, hsame⟩ := exists_relinked h hplain
  refine ⟨_, relinked, v, hback, hlink, hsame, ?_, fun hfree => ?_⟩
  · rintro rfl before scope r after target hsplit htarget
    obtain ⟨_, kind, htarget', hkind, hdeclared, hpath, hroot⟩ := exists_plain_target h hplain hsplit
    cases htarget.symm.trans htarget'
    -- the run of the modules that are linked again comes to the respelled reference
    have hrun := run_link_modules hlink
    rw [occurrences_respelled, hsplit, List.map_append, List.map_cons] at hrun
    obtain ⟨t, t', hbefore, hact, -⟩ := hrun.act_at
    have hentries : t.entries = entries before := by
      rw [hbefore.entries_eq, entries_rebind Reference.kind_respelled]
      rfl
    have ht : t' = t := by
      cases hact
      rfl
    rw [← hentries] at hdeclared ⊢
    exact (act_respelled_iff htarget hkind hdeclared hpath hroot).1 (ht ▸ hact)
  · have hrun : Run .empty ((linked.map Module.respelled).flatMap (·.occurrences)) u := by
      rw [occurrences_respelled]
      refine (run_link_modules h).rebind Reference.kind_respelled
        fun before scope r after t hsplit hentries _ => ?_
      obtain ⟨target, kind, htarget, hkind, hdeclared, hpath, hroot⟩ :=
        exists_plain_target h hplain hsplit
      have hnot := hfree before scope r after target hsplit htarget
      have hentries : t.entries = entries before := hentries
      rw [← hentries] at hdeclared hnot
      exact (act_respelled_iff htarget hkind hdeclared hpath hroot).2 hnot
    have hrespelled : linkAll Module.link .empty (linked.map (·.relabel (fun _ => .root) .reread)) =
        ⟨linked.map Module.respelled, u, .ok ()⟩ := by
      refine linkAll_of_run (l := Module.link) (g := Module.unlinked) (p := Module.Nameable)
        (fun t u e m he hm hrun => ⟨(), Module.link_of_run he hm hrun⟩) ?_ ?_ hrun
      · simp [Module.unlinked_reread, Module.unlinked_respelled]
      · intro m hm
        obtain ⟨n, hn, rfl⟩ := List.mem_map.1 hm
        exact (nameable_linkAll h n hn).relabel Reference.respelled
    exact congrArg Linked.part (hlink.symm.trans hrespelled)

/-- A module with an enum, a struct that is named like the module and has a struct named like the enum
in it, and a reference to the enum. -/
def shadowModule : Module :=
  let level : StructDecl := ⟨"X", .root, [⟨"level", .primitive .long, []⟩]⟩
  ⟨"A", [.enum ⟨"X", .root, ["OFF", "ON"]⟩,
    .struct ⟨"A", .root, [⟨"inner", .struct level, []⟩]⟩,
    .struct ⟨"C", .root, [⟨"x", .declared (.unlinked "X"), []⟩]⟩], []⟩

/-- The target of the reference is captured, so linking again does not give the module back. -/
theorem relinks_iff_not_captures_shadow :
    ∃ linked u back relinked v, linkAll Module.link .empty [shadowModule] = ⟨linked, u, .ok ()⟩ ∧
      (∀ m ∈ linked, m.PlainlyNamed) ∧
      linked.mapM (fun m => Module.read? m.write) = some back ∧
      linkAll Module.link .empty back = ⟨relinked, v, .ok ()⟩ ∧
      relinked.map (·.relabel id .erased) = linked.map (·.relabel id .erased) ∧
      relinked ≠ linked.map Module.respelled := by
  have h : linkAll Module.link .empty [shadowModule] = ⟨_, _, .ok ()⟩ := rfl
  have hplain : ∀ m ∈ (linkAll Module.link .empty [shadowModule]).part, m.PlainlyNamed := by decide
  obtain ⟨back, relinked, v, hback, hlink, hsame, hiff⟩ := relinks_iff_not_captures h hplain
  refine ⟨_, _, back, relinked, v, h, hplain, hback, hlink, hsame, fun hall => ?_⟩
  have hsplit := List.take_append_drop 4
    ((linkAll Module.link .empty [shadowModule]).part.flatMap (·.occurrences))
  exact hiff.1 hall _ ⟨["A", "C"]⟩ _ _ ⟨["A", "X"]⟩ hsplit.symm rfl
    ⟨⟨["A"]⟩, by decide, by decide, by decide⟩

/-- What is written of a module may link to something else: a reference to an enum becomes one to a
struct. -/
theorem relinked_reference_changes :
    ∃ linked u back relinked v, linkAll Module.link .empty [shadowModule] = ⟨linked, u, .ok ()⟩ ∧
      (∀ m ∈ linked, m.PlainlyNamed) ∧
      linked.mapM (fun m => Module.read? m.write) = some back ∧
      linkAll Module.link .empty back = ⟨relinked, v, .ok ()⟩ ∧
      (linked.flatMap (·.references)).map (fun r => (r.target, r.kind)) =
        [(some ⟨["A", "X"]⟩, some .enum)] ∧
      (relinked.flatMap (·.references)).map (fun r => (r.target, r.kind)) =
        [(some ⟨["A", "A", "X"]⟩, some .struct)] := by
  have hback := mapM_eq_some_map (linkAll Module.link .empty [shadowModule]).part
    fun m _ => m.read?_write
  exact ⟨_, _, _, _, _, rfl, by decide, hback, rfl, rfl, rfl⟩

end WireStub
