import WireStub.Proofs.Linking.Visiting

/-!
# What references mean

A reference means the declaration in the innermost scope around it that has one for its path, among
the declarations that are visited before it.  A reference that starts with `::` is read from the
root.

* `Innermost` says it of scopes, as prefixes of the scope of the reference, and `Denotes` of
  references;
* `SymbolTable.lookup?_eq_some_iff`: a lookup finds exactly what a reference denotes;
* `references_bind_innermost` is the main statement: in modules that link, every reference has
  what it denotes.
-/

namespace WireStub

/-- `target` is the path read in the innermost scope, `scope` or one around it, in which this gives
one of the names. -/
def Innermost (names : List ScopedName) (scope path target : ScopedName) : Prop :=
  ∃ P : ScopedName, P.segments <+: scope.segments ∧ target = P.join path ∧ target ∈ names ∧
    ∀ Q : ScopedName, Q.segments <+: scope.segments → P.segments.length < Q.segments.length →
      Q.join path ∉ names

/-- The declaration that a written reference means from a scope, among declared names with their
kinds. -/
structure Denotes (known : List (ScopedName × Kind)) (scope : ScopedName) (written : String)
    (target : ScopedName) (kind : Kind) : Prop where
  /-- The target is declared, with this kind. -/
  declared : (target, kind) ∈ known
  absolute : ScopedName.isAbsolute written = true → target = .parse written
  relative : ScopedName.isAbsolute written = false →
    Innermost (known.map (·.1)) scope (.parse written) target

/-- Inner scopes are listed before outer ones. -/
theorem ScopedName.pairwise_enclosing (n : ScopedName) :
    n.enclosing.Pairwise fun P Q => Q.segments.length < P.segments.length := by
  rw [enclosing, List.pairwise_map, List.pairwise_reverse]
  refine List.pairwise_lt_range.imp_of_mem fun {a b} _ hb hab => ?_
  rw [List.length_take, List.length_take]
  have := List.mem_range.1 hb
  omega

namespace SymbolTable

variable {t : SymbolTable} {n scope path : ScopedName} {k : Kind}

theorem kind?_eq_some_iff : t.kind? n = some k ↔ (n, k) ∈ t.entries := by
  refine ⟨mem_entries_of_kind?, fun h => ?_⟩
  cases hk : t.kind? n with
  | none => exact absurd (List.mem_map_of_mem h) ((kind?_eq_none_iff t n).1 hk)
  | some k' => rw [kind_eq (mem_entries_of_kind? hk) h]

theorem within?_eq_some_iff :
    t.within? path scope = some (n, k) ↔ n = scope.join path ∧ (n, k) ∈ t.entries := by
  rw [within?, Option.map_eq_some_iff]
  constructor
  · rintro ⟨k', hk, heq⟩
    cases heq
    exact ⟨rfl, kind?_eq_some_iff.1 hk⟩
  · rintro ⟨rfl, hk⟩
    exact ⟨k, kind?_eq_some_iff.2 hk, rfl⟩

theorem within?_eq_none_iff : t.within? path scope = none ↔ scope.join path ∉ t.names := by
  rw [within?, Option.map_eq_none_iff, kind?_eq_none_iff]

/-- Trying the scopes from inside to outside finds the innermost one. -/
theorem findSome?_within?_eq_some_iff :
    scope.enclosing.findSome? (t.within? path) = some (n, k) ↔
      (n, k) ∈ t.entries ∧ Innermost t.names scope path n := by
  have hsorted := scope.pairwise_enclosing
  constructor
  · intro h
    obtain ⟨inner, P, outer, hsplit, hP, hinner⟩ := List.findSome?_eq_some_iff.1 h
    obtain ⟨rfl, hk⟩ := within?_eq_some_iff.1 hP
    have hmem (Q : ScopedName) : Q.segments <+: scope.segments ↔ Q ∈ inner ++ P :: outer := by
      rw [← hsplit, ScopedName.mem_enclosing]
    rw [hsplit, List.pairwise_append, List.pairwise_cons] at hsorted
    refine ⟨hk, P, (hmem P).2 (by simp), rfl, List.mem_map_of_mem hk, fun Q hQ hlonger => ?_⟩
    rcases List.mem_append.1 ((hmem Q).1 hQ) with hQ | hQ
    · exact within?_eq_none_iff.1 (hinner Q hQ)
    · -- the scopes behind the first hit are not longer
      rcases List.mem_cons.1 hQ with rfl | hQ
      · omega
      · have := hsorted.2.1.1 Q hQ
        omega
  · rintro ⟨hk, P, hP, rfl, -, houter⟩
    obtain ⟨inner, outer, hsplit⟩ := List.append_of_mem (ScopedName.mem_enclosing.2 hP)
    rw [hsplit, List.pairwise_append] at hsorted
    refine List.findSome?_eq_some_iff.2
      ⟨inner, P, outer, hsplit, within?_eq_some_iff.2 ⟨rfl, hk⟩, fun Q hQ => ?_⟩
    have hprefix : Q.segments <+: scope.segments :=
      ScopedName.mem_enclosing.1 (hsplit ▸ List.mem_append_left _ hQ)
    exact within?_eq_none_iff.2 (houter Q hprefix (hsorted.2.2 Q hQ P List.mem_cons_self))

/-- A lookup finds exactly what a reference denotes among the declared names. -/
theorem lookup?_eq_some_iff {written : String} :
    t.lookup? written scope = some (n, k) ↔
      (ScopedName.parse written).isRoot = false ∧ Denotes t.entries scope written n k := by
  unfold lookup?
  simp only
  cases hroot : (ScopedName.parse written).isRoot with
  | true => simp
  | false =>
    cases habsolute : ScopedName.isAbsolute written with
    | true =>
      simp only [Bool.false_eq_true, if_false, if_true, within?_eq_some_iff, true_and,
        ScopedName.root_join]
      constructor
      · rintro ⟨rfl, hk⟩
        exact ⟨hk, fun _ => rfl, fun h => absurd (habsolute.symm.trans h) (by simp)⟩
      · exact fun h => ⟨h.absolute habsolute, h.declared⟩
    | false =>
      simp only [Bool.false_eq_true, if_false, findSome?_within?_eq_some_iff, true_and]
      constructor
      · rintro ⟨hk, hinnermost⟩
        exact ⟨hk, fun h => absurd (habsolute.symm.trans h) (by simp), fun _ => hinnermost⟩
      · exact fun h => ⟨h.declared, h.relative habsolute⟩

end SymbolTable

/-- **References bind to the innermost visible declaration.**  In modules that link, all references
are among the occurrences, and each has a target and a kind: those of the declaration that it denotes
among the ones that are visited before it.  Every declaration and every interface is named by its
scope and its own name, and the symbol table holds the declarations in the order of their visits,
with these kinds. -/
theorem references_bind_innermost {ms linked : List Module} {u : SymbolTable}
    (h : linkAll Module.link .empty ms = ⟨linked, u, .ok ()⟩) :
    (linked.flatMap (·.occurrences)).filterMap Occurrence.reference? =
        linked.flatMap (·.references) ∧
      (∀ before scope r after,
        linked.flatMap (·.occurrences) = before ++ .refers scope r :: after →
          ∃ target kind, r.target = some target ∧ r.kind = some kind ∧
            Denotes (Occurrence.entries before) scope r.name target kind) ∧
      (∀ scope d, .declares scope d ∈ linked.flatMap (·.occurrences) →
        d.path = scope.child d.name ∧ ∃ kind, d.kind? = some kind ∧ (d.path, kind) ∈ u.entries) ∧
      (∀ m ∈ linked, ∀ i ∈ m.interfaces, i.path = .child (.child .root m.name) i.name) ∧
      u.entries = Occurrence.entries (linked.flatMap (·.occurrences)) := by
  have hrun := run_link_modules h
  have hinterfaces := forall_mem_linkAll
    (p := fun _ (m : Module) =>
      ∀ i ∈ m.interfaces, i.path = .child (.child .root m.name) i.name)
    Module.le_link (fun _ _ _ _ hm => hm) (fun _ _ _ hm => Module.interface_path_link hm)
    (congrArg Linked.outcome h)
  rw [h] at hinterfaces
  refine ⟨?_, fun before scope r after hsplit => ?_, fun scope d hd => ?_, hinterfaces,
    hrun.entries_eq⟩
  · simp only [List.filterMap_flatMap, Module.filterMap_reference?_occurrences]
  · rw [hsplit] at hrun
    obtain ⟨t, t', hbefore, hact, -⟩ := hrun.act_at
    obtain _ | ⟨hlookup, htarget, hkind⟩ := hact
    -- where the run stops, the table holds what was declared before
    have hentries : t.entries = Occurrence.entries before := hbefore.entries_eq
    have hdenotes := (SymbolTable.lookup?_eq_some_iff.1 hlookup).2
    rw [hentries] at hdenotes
    exact ⟨_, _, htarget, hkind, hdenotes⟩
  · obtain ⟨before, after, hsplit⟩ := List.append_of_mem hd
    rw [hsplit] at hrun
    obtain ⟨t, t', -, hact, hafter⟩ := hrun.act_at
    obtain ⟨hpath, hkind, hdeclare⟩ := hact
    exact ⟨hpath, _, hkind,
      SymbolTable.mem_entries_of_le hafter.le (SymbolTable.mem_of_declare? hdeclare)⟩

/-- Two modules with an enum of one name at three levels, and a struct that refers to each. -/
def gaugeModules : List Module :=
  let mode : EnumDecl := ⟨"Mode", .root, ["OFF", "ON"]⟩
  let ref (name : String) : TypeExpr := .declared (.unlinked name)
  [⟨"Base", [.enum mode], []⟩,
    ⟨"Plant", [.enum mode,
      .struct ⟨"Gauge", .root,
        [⟨"before", ref "Mode", []⟩, ⟨"own", .sequence (.enum mode), []⟩,
          ⟨"after", ref "Mode", []⟩, ⟨"plant", ref " ::Plant::Mode", []⟩,
          ⟨"base", ref "Base :: Mode", []⟩]⟩], []⟩]

theorem references_bind_innermost_gauge :
    ∃ linked u before r after, linkAll Module.link .empty gaugeModules = ⟨linked, u, .ok ()⟩ ∧
      linked.flatMap (·.occurrences) = before ++ .refers ⟨["Plant", "Gauge"]⟩ r :: after ∧
      (linked.flatMap (·.references)).map (·.target) =
        [some ⟨["Plant", "Mode"]⟩, some ⟨["Plant", "Gauge", "Mode"]⟩, some ⟨["Plant", "Mode"]⟩,
          some ⟨["Base", "Mode"]⟩] ∧
      r.name = "Mode" ∧ r.target = some ⟨["Plant", "Gauge", "Mode"]⟩ ∧
      Denotes (Occurrence.entries before) ⟨["Plant", "Gauge"]⟩ "Mode" ⟨["Plant", "Gauge", "Mode"]⟩
        .enum := by
  have h : linkAll Module.link .empty gaugeModules = ⟨_, _, .ok ()⟩ := rfl
  -- the second reference of the struct stands behind the enum that is declared in place
  have hsplit := List.take_append_drop 5
    ((linkAll Module.link .empty gaugeModules).part.flatMap (·.occurrences))
  obtain ⟨target, kind, htarget, hkind, hdenotes⟩ :=
    (references_bind_innermost h).2.1 _ ⟨["Plant", "Gauge"]⟩ _ _ hsplit.symm
  cases htarget
  cases hkind
  exact ⟨_, _, _, _, _, h, hsplit.symm, rfl, rfl, rfl, hdenotes⟩

end WireStub
