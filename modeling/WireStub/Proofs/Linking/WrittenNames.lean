import WireStub.Proofs.Linking.Lifetime
import WireStub.Proofs.Linking.Relinking

/-!
# Written names

Whatever is declared can be referred to by its path.  Linking declares names within modules only, so
none of them is the root, and a well-formed name is read back from its text.  Behind a leading `::` the
text leads to the declaration from everywhere; without it, an inner scope may have a declaration for the
same path, which is found first.

* `Module.prefix_of_declares`: what a module declares lies in its scope, with one lemma per part;
* `root_not_mem_tableBehind`: the root is not declared, whatever is linked and whether or not it fails;
* `SymbolTable.lookup?_absolute_display` and `SymbolTable.exists_innermost_display` are the lookups with
  and without a leading `::`;
* `declared_names_are_found` is the main statement.
-/

namespace WireStub

/-! ### What a module declares -/

theorem ScopedName.prefix_child (n : ScopedName) (s : String) :
    n.segments <+: (n.child s).segments := List.prefix_append _ _

theorem EnumDecl.prefix_of_declares {scope path : ScopedName} {d : EnumDecl}
    (h : .declares path ∈ d.obligations scope) : scope.segments <+: path.segments := by
  rcases List.mem_pair.1 h with h | h
  · cases h
  · cases h
    exact scope.prefix_child d.name

mutual

/-- What a type declares in place lies in the scope for such types. -/
theorem TypeExpr.prefix_of_declares {s : Site} {scope path : ScopedName}
    (hs : s.inlineScope = some scope) :
    ∀ {e : TypeExpr}, .declares path ∈ e.obligations s → scope.segments <+: path.segments
  | .sequence e, h => TypeExpr.prefix_of_declares hs (e := e) h
  | .struct d, h => by
    simp only [TypeExpr.obligations, hs] at h
    exact StructDecl.prefix_of_declares h
  | .enum d, h => by
    simp only [TypeExpr.obligations, hs] at h
    exact EnumDecl.prefix_of_declares h
  | .declared _, h => nomatch List.mem_singleton.1 h
  | .primitive _, h | .string, h => nomatch h

theorem StructDecl.prefix_of_declares {scope path : ScopedName} :
    ∀ {d : StructDecl}, .declares path ∈ d.obligations scope → scope.segments <+: path.segments
  | ⟨name, _, ms⟩, h => by
    rcases List.mem_cons.1 h with h | h
    · cases h
    rcases List.mem_cons.1 h with h | h
    · cases h
      exact scope.prefix_child name
    · exact (scope.prefix_child name).trans (Member.prefix_of_declares h)

theorem Member.prefix_of_declares {scope path : ScopedName} :
    ∀ {ms : List Member}, .declares path ∈ Member.obligations scope ms →
      scope.segments <+: path.segments
  | [], h => nomatch h
  | ⟨name, e, _⟩ :: ms, h => by
    rcases List.mem_append.1 h with h | h
    · exact TypeExpr.prefix_of_declares (s := .member scope name) rfl h
    · exact Member.prefix_of_declares h

end

theorem Definition.prefix_of_declares {scope path : ScopedName} {d : Definition}
    (h : .declares path ∈ d.obligations scope) : scope.segments <+: path.segments := by
  cases d with
  | struct d => exact StructDecl.prefix_of_declares h
  | enum d => exact EnumDecl.prefix_of_declares h
  | typedef d =>
    rcases List.mem_cons.1 h with h | h
    · cases h
    rcases List.mem_append.1 h with h | h
    · exact TypeExpr.prefix_of_declares (s := .typedef scope d.name) rfl h
    · cases List.mem_singleton.1 h
      exact scope.prefix_child d.name

/-- What a module declares lies in its scope. -/
theorem Module.prefix_of_declares {m : Module} {path : ScopedName}
    (h : .declares path ∈ m.obligations) : [m.name] <+: path.segments := by
  rcases List.mem_cons.1 h with h | h
  · cases h
  rcases List.mem_append.1 h with h | h
  · obtain ⟨d, -, h⟩ := List.mem_flatMap.1 h
    exact Definition.prefix_of_declares h
  · -- interfaces declare nothing
    obtain ⟨i, -, h⟩ := List.mem_flatMap.1 h
    rcases List.mem_cons.1 h with h | h
    · cases h
    · obtain ⟨o, -, h⟩ := List.mem_flatMap.1 h
      exact (o.refuses _ _ h).elim

/-- Linking a module adds names within the module only, also where it fails. -/
theorem Module.prefix_of_mem_names_link {t : SymbolTable} {m : Module} {n : ScopedName}
    (h : n ∈ (m.link t).table.names) : n ∈ t.names ∨ [m.name] <+: n.segments := by
  obtain ⟨met, ahead, _, _, hlinks, -⟩ := m.exists_linksUpTo t
  rw [hlinks.names, List.mem_append] at h
  refine h.imp_right fun hmet => ?_
  obtain ⟨o, ho, hpath⟩ := List.mem_filterMap.1 hmet
  have hmem : o ∈ m.obligations := hlinks.obligations ▸ List.mem_append_left ahead ho
  cases o with
  | declares path =>
    cases hpath
    exact prefix_of_declares hmem
  | moduleNamed | named | inPlace | refers => cases hpath

/-- The root is never declared. -/
theorem root_not_mem_tableBehind {t : SymbolTable} (h : .root ∉ t.names) (ms : List Module) :
    .root ∉ (tableBehind t ms).names := by
  induction ms generalizing t with
  | nil => exact h
  | cons m ms ih =>
    refine ih fun hroot => ?_
    rcases Module.prefix_of_mem_names_link hroot with hroot | hprefix
    · exact h hroot
    · exact absurd hprefix.length_le (Nat.not_succ_le_zero 0)

/-! ### Lookups -/

namespace SymbolTable

variable {t : SymbolTable} {n : ScopedName} {k : Kind}

theorem isRoot_of_kind? (hroot : .root ∉ t.names) (hk : t.kind? n = some k) : n.isRoot = false := by
  refine eq_false_of_ne_true fun hempty => hroot ?_
  obtain rfl : n = .root := congrArg ScopedName.mk (List.isEmpty_iff.1 hempty)
  exact List.mem_map_of_mem (kind?_eq_some_iff.1 hk)

/-- Behind a leading `::`, the text of a declared name leads to it from everywhere. -/
theorem lookup?_absolute_display (hn : n.WellFormed) (hroot : n.isRoot = false)
    (hk : t.kind? n = some k) (scope : ScopedName) :
    t.lookup? ("::" ++ n.display) scope = some (n, k) := by
  have hparse : ScopedName.parse ("::" ++ n.display) = n := by
    rw [ScopedName.parse_absolute, ScopedName.parse_display hn]
  have habsolute := ScopedName.isAbsolute_absolute n.display
  refine lookup?_eq_some_iff.2 ⟨hparse.symm ▸ hroot, kind?_eq_some_iff.1 hk, fun _ => hparse.symm,
    fun h => absurd (habsolute.symm.trans h) (by simp)⟩

/-- Without it, the text leads to the innermost declaration for the path. -/
theorem exists_innermost_display (hn : n.WellFormed) (hroot : n.isRoot = false)
    (hk : t.kind? n = some k) (scope : ScopedName) :
    ∃ target kind, t.lookup? n.display scope = some (target, kind) ∧
      Innermost t.names scope n target := by
  have hmem : n ∈ t.names := List.mem_map_of_mem (kind?_eq_some_iff.1 hk)
  have hfound : ∃ found, t.lookup? n.display scope = some found :=
    exists_lookup?_display hn hroot hmem
  obtain ⟨⟨target, kind⟩, hlookup⟩ := hfound
  have hdenotes := (lookup?_eq_some_iff.1 hlookup).2
  have hinnermost := hdenotes.relative (ScopedName.isAbsolute_display hn hroot)
  rw [ScopedName.parse_display hn] at hinnermost
  exact ⟨target, kind, hlookup, hinnermost⟩

end SymbolTable

/-- **Declared names are found by their texts.**  A name whose segments are not empty and have neither
colons nor white space at their ends is read back from its text, with a leading `::` or without.  So in
whatever state calls of linking have brought a new symbol table, also in the middle of a call: the text
of a declared name behind `::` leads from every scope to the name and its kind.  The text alone leads to
the innermost declaration for the path, which is the name itself exactly if no other scope around the
place, the root left aside, has a declaration for the path. -/
theorem declared_names_are_found {n : ScopedName} (hn : n.WellFormed) :
    ScopedName.parse n.display = n ∧ ScopedName.parse ("::" ++ n.display) = n ∧
      ∀ (ms : List Module) (t : SymbolTable), t ≤ tableBehind .empty ms →
        ∀ (k : Kind) (scope : ScopedName), t.kind? n = some k →
          t.lookup? ("::" ++ n.display) scope = some (n, k) ∧
          (∃ target kind, t.lookup? n.display scope = some (target, kind) ∧
            Innermost t.names scope n target) ∧
          (t.lookup? n.display scope = some (n, k) ↔ ¬Captures t.names scope n) := by
  refine ⟨ScopedName.parse_display hn, ?_, fun ms t hgrows k scope hk => ?_⟩
  · rw [ScopedName.parse_absolute, ScopedName.parse_display hn]
  · have hfinal : .root ∉ (tableBehind .empty ms).names := root_not_mem_tableBehind (by decide) ms
    have hroot : .root ∉ t.names := fun hmem => hfinal ((List.IsPrefix.map _ hgrows).subset hmem)
    have hnroot := SymbolTable.isRoot_of_kind? hroot hk
    exact ⟨SymbolTable.lookup?_absolute_display hn hnroot hk scope,
      SymbolTable.exists_innermost_display hn hnroot hk scope,
      SymbolTable.lookup?_display_iff hn hnroot (SymbolTable.kind?_eq_some_iff.1 hk)⟩

/-- A module with an enum, and a struct that is named like the module and has a struct in it that is named
like the enum. -/
def dockModule : Module :=
  let berth : StructDecl := ⟨"Main berth", .root, [⟨"depth", .primitive .long, []⟩]⟩
  ⟨"Dock", [.enum ⟨"Main berth", .root, ["FREE", "TAKEN"]⟩,
    .struct ⟨"Dock", .root, [⟨"berth", .struct berth, []⟩]⟩], []⟩

/-- The text of the enum leads to it from another module.  Within its own one it does so behind `::`
only. -/
theorem declared_names_are_found_dock :
    (ScopedName.mk ["Dock", "Main berth"]).WellFormed ∧
      (tableBehind .empty [dockModule]).kind? ⟨["Dock", "Main berth"]⟩ = some .enum ∧
      (tableBehind .empty [dockModule]).lookup? "Dock::Main berth" ⟨["Pier", "Crane"]⟩ =
        some (⟨["Dock", "Main berth"]⟩, .enum) ∧
      (tableBehind .empty [dockModule]).lookup? "Dock::Main berth" ⟨["Dock", "Crane"]⟩ ≠
        some (⟨["Dock", "Main berth"]⟩, .enum) ∧
      (tableBehind .empty [dockModule]).lookup? "::Dock::Main berth" ⟨["Dock", "Crane"]⟩ =
        some (⟨["Dock", "Main berth"]⟩, .enum) := by
  have hn : (ScopedName.mk ["Dock", "Main berth"]).WellFormed := by decide
  have hk : (tableBehind .empty [dockModule]).kind? ⟨["Dock", "Main berth"]⟩ = some .enum := rfl
  obtain ⟨-, -, hfound⟩ := declared_names_are_found hn
  obtain ⟨-, -, houtside⟩ := hfound [dockModule] _ (le_refl _) .enum ⟨["Pier", "Crane"]⟩ hk
  obtain ⟨habsolute, -, hinside⟩ := hfound [dockModule] _ (le_refl _) .enum ⟨["Dock", "Crane"]⟩ hk
  have hfree : ∀ Q ∈ (ScopedName.mk ["Pier", "Crane"]).enclosing, Q ≠ .root →
      Q.join ⟨["Dock", "Main berth"]⟩ ∉ (tableBehind .empty [dockModule]).names := by decide
  refine ⟨hn, hk, houtside.2 ?_, fun h => hinside.1 h ⟨⟨["Dock"]⟩, by decide, by decide, by decide⟩,
    habsolute⟩
  rintro ⟨Q, hQ, hprefix, hmem⟩
  exact hfree Q (ScopedName.mem_enclosing.2 hprefix) hQ hmem

end WireStub
