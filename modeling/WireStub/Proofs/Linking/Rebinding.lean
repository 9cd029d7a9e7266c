import WireStub.Proofs.Linking.Naming

/-!
# Modules with other references

A linked module with other references has the same occurrences, except for these references.  A run
through its occurrences leads through those of the changed module, if the other references are bound
as they say.

* `Occurrence.rebind` changes the reference at an occurrence, and `Module.occurrences_relabel` follows
  such a change through a module;
* `Occurrence.entries_rebind`: if the kinds stay, so do the declared entries;
* `Occurrence.Run.rebind` is the run through the changed occurrences.
-/

namespace WireStub

/-! ### Occurrences of a changed module -/

/-- An occurrence with another reference. -/
def Occurrence.rebind (ref : Reference → Reference) : Occurrence → Occurrence
  | .declares s d => .declares s (d.relabel id ref)
  | .refers s r => .refers s (ref r)

section Rebind

open Occurrence

variable (ref : Reference → Reference)

theorem StructDecl.path_relabel (path : ScopedName → ScopedName) (d : StructDecl) :
    (d.relabel path ref).path = path d.path := by
  cases d
  rfl

theorem Definition.path_relabel (path : ScopedName → ScopedName) (d : Definition) :
    (d.relabel path ref).path = path d.path := by
  cases d with
  | struct d => exact d.path_relabel ref path
  | enum d => rfl
  | typedef d => rfl

theorem Definition.name_relabel (path : ScopedName → ScopedName) (d : Definition) :
    (d.relabel path ref).name = d.name := by
  rcases d with ⟨_, _, _⟩ | _ | _ <;> rfl

mutual

theorem TypeExpr.occurrences_relabel (scope : ScopedName) :
    ∀ e : TypeExpr, (e.relabel id ref).occurrences scope = (e.occurrences scope).map (rebind ref)
  | .sequence e => TypeExpr.occurrences_relabel scope e
  | .struct d => StructDecl.occurrences_relabel scope d
  | .primitive _ | .declared _ | .string | .enum _ => rfl

theorem StructDecl.occurrences_relabel (scope : ScopedName) :
    ∀ d : StructDecl, (d.relabel id ref).occurrences scope = (d.occurrences scope).map (rebind ref)
  | ⟨_, path, ms⟩ => congrArg (_ :: ·) (Member.occurrences_relabel path ms)

theorem Member.occurrences_relabel (scope : ScopedName) :
    ∀ ms : List Member, Member.occurrences scope (Member.relabelAll id ref ms) =
      (Member.occurrences scope ms).map (rebind ref)
  | [] => rfl
  | ⟨_, e, _⟩ :: ms => by
    rw [Member.occurrences, Member.relabelAll, Member.occurrences, List.map_append,
      TypeExpr.occurrences_relabel scope e, Member.occurrences_relabel scope ms]

end

theorem Definition.occurrences_relabel (scope : ScopedName) (d : Definition) :
    (d.relabel id ref).occurrences scope = (d.occurrences scope).map (rebind ref) := by
  cases d with
  | struct d => exact d.occurrences_relabel ref scope
  | enum d => rfl
  | typedef d =>
    have htype := d.type.occurrences_relabel ref scope
    simp [relabel, TypedefDecl.relabel, occurrences, htype, rebind]

theorem Operation.occurrences_relabel (interface : ScopedName) (o : Operation) :
    (o.relabel id ref).occurrences interface = (o.occurrences interface).map (rebind ref) := by
  simp [relabel, Parameter.relabel, occurrences, TypeExpr.occurrences_relabel, List.flatMap_map,
    List.map_flatMap]

/-- The occurrences of a module with other references. -/
theorem Module.occurrences_relabel (m : Module) :
    (m.relabel id ref).occurrences = m.occurrences.map (rebind ref) := by
  simp [relabel, Interface.relabel, occurrences, Interface.occurrences,
    Definition.occurrences_relabel, Operation.occurrences_relabel, List.flatMap_map,
    List.map_flatMap]

theorem Occurrence.declares_mem_map_rebind {xs : List Occurrence} {s : ScopedName} {d : Definition}
    (h : .declares s d ∈ xs.map (rebind ref)) : ∃ e, .declares s e ∈ xs ∧ e.name = d.name := by
  obtain ⟨x, hx, heq⟩ := List.mem_map.1 h
  cases x with
  | declares s' e =>
    cases heq
    exact ⟨e, hx, (e.name_relabel ref id).symm⟩
  | refers => cases heq

theorem Occurrence.Named.rebind {xs : List Occurrence} (h : Named xs) :
    Named (xs.map (Occurrence.rebind ref)) := by
  intro s d hd
  obtain ⟨e, he, hname⟩ := declares_mem_map_rebind ref hd
  rw [← hname]
  exact h s e he

theorem Occurrence.DeclareNothing.rebind {xs : List Occurrence} (h : DeclareNothing xs) :
    DeclareNothing (xs.map (Occurrence.rebind ref)) := by
  intro s d hd
  obtain ⟨e, he, -⟩ := declares_mem_map_rebind ref hd
  exact h s e he

end Rebind

/-! ### Changes that keep the kinds -/

section Kinds

open Occurrence

variable {ref : Reference → Reference} (href : ∀ r, (ref r).kind = r.kind)

include href

theorem TypeExpr.kind?_relabel (path : ScopedName → ScopedName) (e : TypeExpr) :
    (e.relabel path ref).kind? = e.kind? := by
  cases e with
  | declared r => exact href r
  | primitive | string | sequence | struct | enum => rfl

theorem Definition.kind?_relabel (path : ScopedName → ScopedName) (d : Definition) :
    (d.relabel path ref).kind? = d.kind? := by
  cases d with
  | struct d => rfl
  | enum d => rfl
  | typedef d => exact congrArg (Option.map _) (d.type.kind?_relabel href path)

theorem Occurrence.entry?_rebind (x : Occurrence) : entry? (x.rebind ref) = entry? x := by
  cases x with
  | declares s d => simp [rebind, entry?, d.kind?_relabel href, d.path_relabel]
  | refers s r => rfl

theorem Occurrence.entries_rebind (xs : List Occurrence) :
    entries (xs.map (rebind ref)) = entries xs := by
  rw [entries, List.filterMap_map]
  exact List.filterMap_congr fun x _ => x.entry?_rebind href

/-- A run with other references: each has to be bound as it says, where it occurs. -/
theorem Occurrence.Run.rebind {t u : SymbolTable} {xs : List Occurrence} (h : Run t xs u)
    (hbind : ∀ before scope r after v, xs = before ++ .refers scope r :: after →
      v.entries = t.entries ++ entries before → Act v (.refers scope r) v →
        Act v (.refers scope (ref r)) v) :
    Run t (xs.map (Occurrence.rebind ref)) u := by
  induction h with
  | nil t => exact .nil t
  | @cons t v u x xs hact hrun ih =>
    refine .cons (u := v) ?_ (ih fun before scope r after w hsplit hentries => ?_)
    · cases hact with
      | @declares _ scope d k hpath hkind hdeclare =>
        refine .declares ?_ ((d.kind?_relabel href id).trans hkind) ?_
        · rw [d.path_relabel, d.name_relabel]
          exact hpath
        · rw [d.path_relabel]
          exact hdeclare
      | refers hlookup htarget hkind =>
        exact hbind [] _ _ xs t rfl (by simp [entries]) (.refers hlookup htarget hkind)
    · refine hbind (x :: before) scope r after w (by rw [hsplit]; rfl) ?_
      rw [hentries, hact.entries_eq, List.append_assoc]
      exact congrArg (t.entries ++ ·) (List.filterMap_append (l := [x])).symm

end Kinds

/-- Other references are no matter for names. -/
theorem Module.Nameable.relabel {m : Module} (hm : m.Nameable) (ref : Reference → Reference) :
    (m.relabel id ref).Nameable where
  name := hm.name
  definitions d hd := by
    obtain ⟨e, he, rfl⟩ := List.mem_map.1 hd
    rw [e.occurrences_relabel]
    exact (hm.definitions e he).rebind ref
  interfaces i hi := by
    obtain ⟨j, hj, rfl⟩ := List.mem_map.1 hi
    exact hm.interfaces j hj
  operations i hi o ho := by
    obtain ⟨j, hj, rfl⟩ := List.mem_map.1 hi
    obtain ⟨p, hp, rfl⟩ := List.mem_map.1 ho
    rw [p.occurrences_relabel]
    exact (hm.operations j hj p hp).rebind ref

end WireStub
