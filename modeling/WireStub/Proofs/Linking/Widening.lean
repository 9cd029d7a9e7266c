import WireStub.Proofs.Linking.Retracing
import WireStub.Proofs.Linking.Scopes
import WireStub.Proofs.Linking.Scoping

/-!
# Linking beside other modules

What a module means does not depend on what other modules are there.  More names of other modules in
the symbol table change nothing about a module that links without them: a reference is read from the
scopes within the module first, where no other module declares a name, and a new declaration is named
after the module.

* `SymbolTable.Widens name t u` says that `u` has the names of `t` and more of them outside the module
  `name`;
* `SymbolTable.Widens.lookup?_eq_some`: from within the module, lookups find the same;
* `Occurrence.Run.widen` carries a run from one table to the other;
* `Module.link_of_widens` is the main statement.
-/

namespace WireStub

/-- Behind a path that starts with a name, so does every path within it. -/
theorem ScopedName.head?_join {n : ScopedName} {name : String} (h : n.segments.head? = some name)
    (path : ScopedName) : (n.join path).segments.head? = some name := by
  rw [segments_join, List.head?_append, h, Option.some_or]

theorem ScopedName.head?_child {n : ScopedName} {name : String} (h : n.segments.head? = some name)
    (s : String) : (n.child s).segments.head? = some name := head?_join h ⟨[s]⟩

/-- A prefix of a path that starts with a name does so too, or is the root. -/
theorem ScopedName.eq_root_or_head? {n m : ScopedName} {name : String}
    (h : m.segments.head? = some name) (hn : n.segments <+: m.segments) :
    n = .root ∨ n.segments.head? = some name := by
  obtain ⟨segments⟩ := n
  obtain ⟨rest, hrest⟩ := hn
  cases segments with
  | nil => exact .inl rfl
  | cons s segments =>
    rw [← hrest, List.cons_append, List.head?_cons] at h
    exact .inr h

/-- The table `u` agrees with `t` on the names of `t`, and has further ones only outside the module
with a name. -/
structure SymbolTable.Widens (name : String) (t u : SymbolTable) : Prop where
  agrees : ∀ n ∈ t.names, u.kind? n = t.kind? n
  outside : ∀ n ∈ u.names, n ∉ t.names → n.segments.head? ≠ some name

namespace SymbolTable

variable {name : String} {t u : SymbolTable}

theorem mem_names_of_mem_entries {n : ScopedName} {k : Kind} (h : (n, k) ∈ t.entries) :
    n ∈ t.names := List.mem_map_of_mem h

theorem kind?_of_declare? {n : ScopedName} {k : Kind} (h : t.declare? n k = some u) (p : ScopedName) :
    u.kind? p = if p = n then some k else t.kind? p := by
  split
  · rename_i hp
    exact kind?_eq_some_iff.2 (hp ▸ mem_of_declare? h)
  · rename_i hp
    refine Option.ext fun k' => ?_
    simp [kind?_eq_some_iff, entries_of_declare? h, hp]

namespace Widens

theorem mem_entries (h : Widens name t u) {n : ScopedName} {k : Kind} (hn : (n, k) ∈ t.entries) :
    (n, k) ∈ u.entries := by
  rw [← kind?_eq_some_iff, h.agrees n (mem_names_of_mem_entries hn)]
  exact kind?_eq_some_iff.2 hn

theorem mem_names (h : Widens name t u) {n : ScopedName} (hn : n ∈ t.names) : n ∈ u.names := by
  obtain ⟨⟨n, k⟩, hentry, rfl⟩ := List.mem_map.1 hn
  exact mem_names_of_mem_entries (h.mem_entries hentry)

/-- Within the module, nothing is new. -/
theorem mem_names_iff (h : Widens name t u) {n : ScopedName} (hn : n.segments.head? = some name) :
    n ∈ u.names ↔ n ∈ t.names :=
  ⟨fun hu => by_contra fun ht => h.outside n hu ht hn, h.mem_names⟩

/-- From within the module, a reference means the same. -/
theorem lookup?_eq_some (h : Widens name t u) {scope target : ScopedName} {written : String}
    {k : Kind} (hscope : scope.segments.head? = some name)
    (hlookup : t.lookup? written scope = some (target, k)) :
    u.lookup? written scope = some (target, k) := by
  obtain ⟨hroot, hdenotes⟩ := lookup?_eq_some_iff.1 hlookup
  refine lookup?_eq_some_iff.2 ⟨hroot, h.mem_entries hdenotes.declared, hdenotes.absolute,
    fun hrelative => ?_⟩
  obtain ⟨P, hP, rfl, hmem, houter⟩ := hdenotes.relative hrelative
  refine ⟨P, hP, rfl, h.mem_names hmem, fun Q hQ hlonger hnew => ?_⟩
  -- a scope inside another one is not the root, so it lies in the module
  have hQhead : Q.segments.head? = some name := by
    refine (ScopedName.eq_root_or_head? hscope hQ).resolve_left ?_
    rintro rfl
    exact absurd hlonger (Nat.not_lt_zero _)
  have hjoin := ScopedName.head?_join hQhead (.parse written)
  exact houter Q hQ hlonger ((h.mem_names_iff hjoin).1 hnew)

/-- A declaration of the module can be added to both tables, and they stay related. -/
theorem declare? (h : Widens name t u) {n : ScopedName} {k : Kind} {t' : SymbolTable}
    (hn : n.segments.head? = some name) (hdeclare : t.declare? n k = some t') :
    ∃ u', u.declare? n k = some u' ∧ Widens name t' u' := by
  have hnew : n ∉ u.names := fun hu =>
    not_mem_names_of_declare? hdeclare ((h.mem_names_iff hn).1 hu)
  obtain ⟨u', hu'⟩ : ∃ u', u.declare? n k = some u' :=
    Option.ne_none_iff_exists'.1 fun hnone => hnew ((declare?_eq_none_iff u n k).1 hnone)
  refine ⟨u', hu', fun p hp => ?_, fun p hp hnot => ?_⟩
  · rw [kind?_of_declare? hdeclare, kind?_of_declare? hu']
    rw [names_declare? hdeclare, List.mem_append, List.mem_singleton] at hp
    split
    · rfl
    · rename_i hne
      exact h.agrees p (hp.resolve_right hne)
  · rw [names_declare? hu', List.mem_append, List.mem_singleton] at hp
    rw [names_declare? hdeclare, List.mem_append, List.mem_singleton, not_or] at hnot
    exact h.outside p (hp.resolve_right hnot.2) hnot.1

end Widens

end SymbolTable

namespace Occurrence

variable {name : String} {t t' u : SymbolTable}

/-- An act within the module is possible with the wider table, and the tables stay related. -/
theorem Act.widen {x : Occurrence} (h : Act t x t') (hw : t.Widens name u)
    (hx : x.scope.segments.head? = some name) : ∃ u', Act u x u' ∧ t'.Widens name u' := by
  cases h with
  | @declares _ _ d k hpath hkind hdeclare =>
    have hhead : d.path.segments.head? = some name := hpath ▸ ScopedName.head?_child hx d.name
    obtain ⟨u', hu', hw'⟩ := hw.declare? hhead hdeclare
    exact ⟨u', .declares hpath hkind hu', hw'⟩
  | refers hlookup htarget hkind =>
    exact ⟨u, .refers (hw.lookup?_eq_some hx hlookup) htarget hkind, hw⟩

/-- A run within the module is one from the wider table. -/
theorem Run.widen {xs : List Occurrence} (h : Run t xs t') (hw : t.Widens name u)
    (hxs : ∀ x ∈ xs, x.scope.segments.head? = some name) :
    ∃ u', Run u xs u' ∧ t'.Widens name u' := by
  induction h generalizing u with
  | nil => exact ⟨u, .nil u, hw⟩
  | cons hact _ ih =>
    obtain ⟨v, hv, hw⟩ := hact.widen hw (hxs _ List.mem_cons_self)
    obtain ⟨u', hu', hw⟩ := ih hw fun y hy => hxs y (List.mem_cons_of_mem _ hy)
    exact ⟨u', .cons hv hu', hw⟩

end Occurrence

/-- The scopes within a module that links start with its name. -/
theorem Module.head?_scope_link {m : Module} {t : SymbolTable} {b : Unit}
    (h : (m.link t).outcome = .ok b) :
    ∀ x ∈ (m.link t).part.occurrences, x.scope.segments.head? = some (m.link t).part.name := by
  refine Module.scope_of_occurs (q := fun s => s.segments.head? = some (m.link t).part.name) rfl
    (fun i hi => ?_) ((Module.run_link h).inherited fun s d _ hs => ScopedName.head?_child hs d.name)
  rw [Module.interface_path_link h i hi]
  rfl

/-- **Other modules do not change what a module means.**  A module that links from a table links in the
same way from every table that agrees with it on its names and has further names only outside the
module: it gets the same paths, targets and kinds, and adds the same entries to the table. -/
theorem Module.link_of_widens {m : Module} {t u : SymbolTable}
    (hagrees : ∀ n ∈ t.names, u.kind? n = t.kind? n)
    (houtside : ∀ n ∈ u.names, n ∉ t.names → n.segments.head? ≠ some m.name)
    (h : (m.link t).outcome = .ok ()) :
    (m.link u).outcome = .ok () ∧ (m.link u).part = (m.link t).part ∧
      ∃ declared, (m.link t).table.entries = t.entries ++ declared ∧
        (m.link u).table.entries = u.entries ++ declared := by
  have hrun := Module.run_link h
  have hname := congrArg Module.name (Module.unlinked_link t m)
  change (m.link t).part.name = m.name at hname
  obtain ⟨u', hrun', -⟩ := hrun.widen ⟨hagrees, houtside⟩ (hname ▸ Module.head?_scope_link h)
  have hlink := Module.link_of_run (Module.unlinked_link t m).symm (Module.nameable_link h) hrun'
  rw [hlink]
  exact ⟨rfl, rfl, _, hrun.entries_eq, hrun'.entries_eq⟩

/-- The names of the first gauge module. -/
def gaugeTable : SymbolTable := (gaugeModules[0].link .empty).table

/-- The names of the first gauge module and of one that is named like the struct in the second, with
an enum that is named like the enums there. -/
def widerGaugeTable : SymbolTable :=
  (Module.link gaugeTable ⟨"Gauge", [.enum ⟨"Mode", .root, []⟩], []⟩).table

theorem Module.link_of_widens_gauge :
    widerGaugeTable.names = gaugeTable.names ++ [⟨["Gauge", "Mode"]⟩] ∧
      (gaugeModules[1].link widerGaugeTable).outcome = .ok () ∧
      (gaugeModules[1].link widerGaugeTable).part = (gaugeModules[1].link gaugeTable).part ∧
      (gaugeModules[1].link widerGaugeTable).part.references.map (·.target) =
        [some ⟨["Plant", "Mode"]⟩, some ⟨["Plant", "Gauge", "Mode"]⟩, some ⟨["Plant", "Mode"]⟩,
          some ⟨["Base", "Mode"]⟩] := by
  obtain ⟨hok, hpart, -⟩ := Module.link_of_widens (m := gaugeModules[1]) (t := gaugeTable)
    (u := widerGaugeTable) (by decide) (by decide) rfl
  exact ⟨rfl, hok, hpart, rfl⟩

end WireStub
