import WireStub.Proofs.Linking.Visiting

/-!
# Scopes of occurrences

The scopes of the occurrences in a module are the module, its interfaces, and the structs in it.  What
holds of the module and the interfaces and passes from the scope of a declaration to its path holds
of all scopes.

* `Occurrence.scope` is the scope, and `Occurrence.Inherited` says that a property of scopes passes to
  the declarations in them;
* `Module.scope_of_occurs` is the conclusion for a module, from one lemma per part;
* `Occurrence.Run.inherited`: at the end of a run it is enough that names keep the property.
-/

namespace WireStub

namespace Occurrence

/-- The scope of an occurrence. -/
def scope : Occurrence → ScopedName
  | .declares s _ => s
  | .refers s _ => s

/-- What a scope has passes to the paths of the declarations in it. -/
def Inherited (q : ScopedName → Prop) (xs : List Occurrence) : Prop :=
  ∀ s d, .declares s d ∈ xs → q s → q d.path

variable {q : ScopedName → Prop} {xs ys : List Occurrence}

theorem Inherited.mono (h : Inherited q ys) (hxs : xs ⊆ ys) : Inherited q xs :=
  fun s d hd => h s d (hxs hd)

theorem inherited_append : Inherited q (xs ++ ys) ↔ Inherited q xs ∧ Inherited q ys := by
  simp only [Inherited, List.mem_append, or_imp, forall_and]

/-- Along a run the path of a declaration is its scope and its name. -/
theorem Run.path_eq {t u : SymbolTable} (h : Run t xs u) {s : ScopedName} {d : Definition}
    (hd : .declares s d ∈ xs) : d.path = s.child d.name := by
  obtain ⟨before, after, rfl⟩ := List.append_of_mem hd
  obtain ⟨v, w, -, hact, -⟩ := h.act_at
  obtain ⟨hpath, -, -⟩ := hact
  exact hpath

/-- Along a run a property of scopes is inherited that names keep. -/
theorem Run.inherited {t u : SymbolTable} (h : Run t xs u)
    (hq : ∀ s d, .declares s d ∈ xs → q s → q (s.child d.name)) : Inherited q xs := by
  intro s d hd hs
  rw [h.path_eq hd]
  exact hq s d hd hs

end Occurrence

open Occurrence

variable {q : ScopedName → Prop}

mutual

/-- Within a type, all scopes have what the outermost one has. -/
theorem TypeExpr.scope_of_occurs {scope : ScopedName} (hq : q scope) :
    ∀ {e : TypeExpr}, Inherited q (e.occurrences scope) → ∀ x ∈ e.occurrences scope, q x.scope
  | .sequence e, h, x, hx => TypeExpr.scope_of_occurs hq (e := e) h x hx
  | .struct d, h, x, hx => StructDecl.scope_of_occurs hq (d := d) h x hx
  | .declared _, _, x, hx | .enum _, _, x, hx => by
    obtain rfl := List.mem_singleton.1 hx
    exact hq
  | .primitive _, _, x, hx | .string, _, x, hx => by cases hx

theorem StructDecl.scope_of_occurs {scope : ScopedName} (hq : q scope) :
    ∀ {d : StructDecl}, Inherited q (d.occurrences scope) → ∀ x ∈ d.occurrences scope, q x.scope
  | ⟨name, path, ms⟩, h, x, hx => by
    rcases List.mem_cons.1 hx with rfl | hx
    · exact hq
    · have hpath : q path := h scope _ List.mem_cons_self hq
      exact Member.scope_of_occurs hpath (h.mono (List.subset_cons_self _ _)) x hx

theorem Member.scope_of_occurs {scope : ScopedName} (hq : q scope) :
    ∀ {ms : List Member}, Inherited q (Member.occurrences scope ms) →
      ∀ x ∈ Member.occurrences scope ms, q x.scope
  | [], _, x, hx => by cases hx
  | ⟨_, e, _⟩ :: ms, h, x, hx => by
    obtain ⟨htype, hrest⟩ := inherited_append.1 h
    rcases List.mem_append.1 hx with hx | hx
    · exact TypeExpr.scope_of_occurs hq htype x hx
    · exact Member.scope_of_occurs hq hrest x hx

end

theorem Definition.scope_of_occurs {scope : ScopedName} (hq : q scope) {d : Definition}
    (h : Inherited q (d.occurrences scope)) : ∀ x ∈ d.occurrences scope, q x.scope := by
  intro x hx
  cases d with
  | struct d => exact StructDecl.scope_of_occurs hq h x hx
  | enum d => exact TypeExpr.scope_of_occurs hq (e := .enum d) h x hx
  | typedef d =>
    rcases List.mem_append.1 hx with hx | hx
    · exact TypeExpr.scope_of_occurs hq (inherited_append.1 h).1 x hx
    · obtain rfl := List.mem_singleton.1 hx
      exact hq

theorem Operation.scope_of_occurs {interface : ScopedName} (hq : q interface) {o : Operation}
    (h : Inherited q (o.occurrences interface)) : ∀ x ∈ o.occurrences interface, q x.scope := by
  intro x hx
  rcases List.mem_append.1 hx with hx | hx
  · exact TypeExpr.scope_of_occurs hq (h.mono (List.subset_append_left _ _)) x hx
  · obtain ⟨p, hp, hx⟩ := List.mem_flatMap.1 hx
    have hsubset : p.type.occurrences interface ⊆ o.occurrences interface := fun y hy =>
      List.mem_append_right _ (List.mem_flatMap.2 ⟨p, hp, hy⟩)
    exact TypeExpr.scope_of_occurs hq (h.mono hsubset) x hx

/-- Within a module, all scopes have what the module and its interfaces have. -/
theorem Module.scope_of_occurs {m : Module} (hm : q (.child .root m.name))
    (hi : ∀ i ∈ m.interfaces, q i.path) (h : Inherited q m.occurrences) :
    ∀ x ∈ m.occurrences, q x.scope := by
  intro x hx
  rcases List.mem_append.1 hx with hx | hx
  · obtain ⟨d, hd, hx⟩ := List.mem_flatMap.1 hx
    have hsubset : d.occurrences (.child .root m.name) ⊆ m.occurrences := fun y hy =>
      List.mem_append_left _ (List.mem_flatMap.2 ⟨d, hd, hy⟩)
    exact Definition.scope_of_occurs hm (h.mono hsubset) x hx
  · obtain ⟨i, himem, hx⟩ := List.mem_flatMap.1 hx
    obtain ⟨o, ho, hx⟩ := List.mem_flatMap.1 hx
    have hsubset : o.occurrences i.path ⊆ m.occurrences := fun y hy =>
      List.mem_append_right _ (List.mem_flatMap.2 ⟨i, himem, List.mem_flatMap.2 ⟨o, ho, hy⟩⟩)
    exact Operation.scope_of_occurs (hi i himem) (h.mono hsubset) x hx

end WireStub
