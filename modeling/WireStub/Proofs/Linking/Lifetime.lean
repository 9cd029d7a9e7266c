import WireStub.Proofs.Linking.Progress

/-!
# The life of a symbol table

One symbol table serves any number of calls of linking, and a call that fails leaves in it what it had
declared by then.  Nothing is ever taken out of the table or changed in it, so whatever a call has bound
stays bound as it was, also where the call failed later on.

* `tableBehind` is the table behind a number of calls;
* `Module.LinksUpTo` says how far a call came, and what it left of the module and of the table;
* `bindings_outlast_calls` is the main statement.
-/

namespace WireStub

/-- A name that is declared keeps its kind. -/
theorem SymbolTable.kind?_of_le {t u : SymbolTable} (h : t ≤ u) {n : ScopedName} {k : Kind}
    (hk : t.kind? n = some k) : u.kind? n = some k :=
  kind?_eq_some_iff.2 (mem_entries_of_le h (kind?_eq_some_iff.1 hk))

/-- The table behind calls of linking, one after the other, whether they succeed or not. -/
def tableBehind (t : SymbolTable) (ms : List Module) : SymbolTable :=
  ms.foldl (fun t m => (m.link t).table) t

theorem tableBehind_append (t : SymbolTable) (ms ms' : List Module) :
    tableBehind t (ms ++ ms') = tableBehind (tableBehind t ms) ms' := List.foldl_append

/-- Calls of linking only add to the table. -/
theorem le_tableBehind (t : SymbolTable) (ms : List Module) : t ≤ tableBehind t ms := by
  induction ms generalizing t with
  | nil => exact le_refl t
  | cons m ms ih => exact (m.le_link t).trans (ih (m.link t).table)

/-- Linking a module from a table meets the obligations `met` and has those `ahead` before it when it
ends.  It has bound the references `bound`, and `rest` are left as they were. -/
structure Module.LinksUpTo (m : Module) (t : SymbolTable) (met ahead : List Obligation)
    (bound rest : List Reference) : Prop where
  obligations : m.obligations = met ++ ahead
  allMet : AllMet t.names met
  /-- The names that are added are those that were declared on the way. -/
  names : (m.link t).table.names = t.names ++ declaredNames met
  /-- Linking ends behind the last obligation. -/
  arrives : ahead = [] → rest = [] ∧ (m.link t).outcome = .ok ()
  /-- Or it ends in front of the first one that is not met. -/
  stops : ∀ o after, ahead = o :: after →
    ¬o.Met (t.names ++ declaredNames met) ∧ (m.link t).outcome = .error o.fault
  references : (m.link t).part.references = bound ++ rest
  /-- The references that are bound are those that were looked up on the way. -/
  written : bound.map (·.name) = met.filterMap (·.written?)
  untouched : ∃ old, m.references = old ++ rest ∧ old.map (·.name) = bound.map (·.name)

/-- Every call comes to an end somewhere, and what it has bound is declared then. -/
theorem Module.exists_linksUpTo (t : SymbolTable) (m : Module) :
    ∃ met ahead bound rest, m.LinksUpTo t met ahead bound rest ∧
      ∀ r ∈ bound, (TypeExpr.declared r).BoundIn (m.link t).table := by
  cases m.walks t with
  | arrives b hb hwalk =>
    obtain ⟨hold, hnew⟩ := hwalk.map_name
    refine ⟨m.obligations, [], (m.link t).part.references, [], ?_, hwalk.boundIn⟩
    exact {
      obligations := (List.append_nil _).symm
      allMet := hwalk.allMet
      names := hwalk.names
      arrives := fun _ => ⟨rfl, hb⟩
      stops := fun _ _ h => nomatch h
      references := (List.append_nil _).symm
      written := hnew
      untouched := ⟨m.references, (List.append_nil _).symm, hold.trans hnew.symm⟩ }
  | @stops met ahead o old new rest hos hrs hrs' hwalk hunmet he =>
    obtain ⟨hold, hnew⟩ := hwalk.map_name
    refine ⟨met, o :: ahead, new, rest, ?_, hwalk.boundIn⟩
    refine {
      obligations := hos
      allMet := hwalk.allMet
      names := hwalk.names
      arrives := fun h => nomatch h
      stops := fun p after h => ?_
      references := hrs'
      written := hnew
      untouched := ⟨old, hrs, hold.trans hnew.symm⟩ }
    cases h
    exact ⟨hwalk.names ▸ hunmet, he⟩

/-- **Bindings outlast the calls that made them.**  However many modules are linked with one symbol
table, before a module and behind it, and whichever of them fail: the table only grows, and a declared
name keeps its kind.  Linking the module meets its obligations up to some place, which is the end or the
first one that is not met and then reported; the names that it adds are those that are declared before
that place, where a struct is declared before its members and a typedef behind its type.  The references
looked up before that place are bound, and each of them has the kind that its target has in the table
behind all calls; those behind that place are left as they were. -/
theorem bindings_outlast_calls (t : SymbolTable) (earlier later : List Module) (m : Module) :
    tableBehind t earlier ≤ tableBehind t (earlier ++ m :: later) ∧
      (∀ n k, (tableBehind t earlier).kind? n = some k →
        (tableBehind t (earlier ++ m :: later)).kind? n = some k) ∧
      ∃ met ahead bound rest, m.LinksUpTo (tableBehind t earlier) met ahead bound rest ∧
        ∀ r ∈ bound, ∃ target kind, r.target = some target ∧ r.kind = some kind ∧
          (tableBehind t (earlier ++ m :: later)).kind? target = some kind := by
  have hgrows : tableBehind t earlier ≤ tableBehind t (earlier ++ m :: later) := by
    rw [tableBehind_append]
    exact le_tableBehind _ _
  have hcall : (m.link (tableBehind t earlier)).table ≤ tableBehind t (earlier ++ m :: later) := by
    rw [tableBehind_append]
    exact le_tableBehind _ later
  obtain ⟨met, ahead, bound, rest, hlinks, hbound⟩ := m.exists_linksUpTo (tableBehind t earlier)
  refine ⟨hgrows, fun n k => SymbolTable.kind?_of_le hgrows, met, ahead, bound, rest, hlinks,
    fun r hr => ?_⟩
  obtain ⟨target, kind, htarget, hkind, hmem⟩ := (hbound r hr).mono hcall
  exact ⟨target, kind, htarget, hkind, SymbolTable.kind?_eq_some_iff.2 hmem⟩

/-- A struct with an enumeration in its first member, and a second one whose type is declared too
late. -/
def cisternModule : Module :=
  let level : EnumDecl := ⟨"Level", .root, ["LOW", "HIGH"]⟩
  let pump : EnumDecl := ⟨"Pump", .root, ["OFF", "ON"]⟩
  ⟨"Cistern", [.struct ⟨"Valve", .root, [⟨"level", .enum level, []⟩,
    ⟨"pump", .declared ⟨"Pump", none, none⟩, []⟩]⟩, .enum pump], []⟩

/-- A struct with a member of the enumeration that is left of the first one. -/
def poolModule : Module :=
  ⟨"Pool", [.struct ⟨"Basin", .root, [⟨"level", .declared (.unlinked "Cistern::Valve::Level"), []⟩]⟩],
    []⟩

/-- Linking the cistern fails, but its struct and its enumeration stay declared, and linking the pool
binds a reference to the enumeration.  Linking the cistern again fails at once and changes nothing. -/
theorem bindings_outlast_calls_pool :
    (cisternModule.link .empty).outcome.toOption = none ∧
      (poolModule.link (tableBehind .empty [cisternModule])).outcome = .ok () ∧
      (tableBehind .empty [cisternModule, poolModule, cisternModule]).names =
        [⟨["Cistern", "Valve"]⟩, ⟨["Cistern", "Valve", "Level"]⟩, ⟨["Pool", "Basin"]⟩] ∧
      tableBehind .empty [cisternModule] ≤
        tableBehind .empty [cisternModule, poolModule, cisternModule] ∧
      ∃ met bound, poolModule.LinksUpTo (tableBehind .empty [cisternModule]) met [] bound [] ∧
        bound = [⟨"Cistern::Valve::Level", some ⟨["Cistern", "Valve", "Level"]⟩, some .enum⟩] ∧
        ∀ r ∈ bound, ∃ target kind, r.target = some target ∧ r.kind = some kind ∧
          (tableBehind .empty [cisternModule, poolModule, cisternModule]).kind? target =
            some kind := by
  obtain ⟨hgrows, -, met, ahead, bound, rest, hlinks, hbound⟩ :=
    bindings_outlast_calls .empty [cisternModule] [cisternModule] poolModule
  have hok : (poolModule.link (tableBehind .empty [cisternModule])).outcome = .ok () := rfl
  have hahead : ahead = [] := by
    cases ahead with
    | nil => rfl
    | cons o after => cases hok.symm.trans (hlinks.stops o after rfl).2
  obtain rfl := hahead
  obtain ⟨rfl, -⟩ := hlinks.arrives rfl
  have hreferences := hlinks.references
  rw [List.append_nil] at hreferences
  exact ⟨rfl, hok, rfl, hgrows, met, bound, hlinks, hreferences.symm.trans rfl, hbound⟩

end WireStub
