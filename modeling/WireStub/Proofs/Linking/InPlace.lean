import WireStub.Proofs.Linking.Bindings

/-!
# Types declared in place

A struct or an enum may be declared where it is used, within the types of definitions.  Within
operations this is refused, so every declaration of a module that links belongs to its definitions.

* `Operation.DeclaresNothing` says it of an operation, and `Module.OperationsDeclareNothing` of those
  of a module;
* `Module.operationsDeclareNothing_link`: it holds behind linking, from one lemma per part.
-/

namespace WireStub

/-- No type is declared in place within an operation. -/
def Operation.DeclaresNothing (o : Operation) : Prop := ∀ n ∈ o.nodes, ∀ d, ¬n.Declares d

variable {t : SymbolTable}

/-- Where no type may be declared in place, none is. -/
theorem TypeExpr.not_declares_link {s : Site} (hs : s.inlineScope = none) :
    ∀ (e : TypeExpr) (k : Kind), (e.link s t).outcome = .ok k →
      ∀ n ∈ (e.link s t).part.nodes, ∀ d, ¬n.Declares d
  | .primitive _, _, _ | .string, _, _ => fun n hn d hd => by
    obtain rfl := List.mem_singleton.1 hn
    cases hd
  | .declared r, k, _ => fun n hn d hd => by
    obtain rfl := List.mem_singleton.1 hn
    cases hd
  | .sequence e, k, h => by
    obtain ⟨k', hk', hlink⟩ := TypeExpr.link_sequence_eq_ok h
    rw [hlink]
    intro n hn d hd
    rcases List.mem_cons.1 hn with rfl | hn
    · cases hd
    · exact TypeExpr.not_declares_link hs e k' hk' n hn d hd
  | .struct _, _, h | .enum _, _, h => by
    rw [TypeExpr.link, hs] at h
    cases h

theorem Operation.declaresNothing_link {interface : ScopedName} {o : Operation} {b : Unit}
    (h : (o.link interface t).outcome = .ok b) : (o.link interface t).part.DeclaresNothing := by
  obtain ⟨k, hk, hps, hlink⟩ := Operation.link_eq_ok h
  rw [hlink]
  have hparameters := forall_mem_linkAll
    (p := fun _ (p : Parameter) => ∀ n ∈ p.type.nodes, ∀ d, ¬n.Declares d)
    (Parameter.le_link interface o.name) (fun _ _ _ _ hp => hp)
    (fun t p k hp => TypeExpr.not_declares_link (s := .parameter interface o.name p.name) rfl
      p.type k hp) hps
  intro n hn
  rcases List.mem_append.1 hn with hn | hn
  · exact TypeExpr.not_declares_link (s := .returns interface o.name) rfl o.returns k hk n hn
  · obtain ⟨p, hp, hn⟩ := List.mem_flatMap.1 hn
    exact hparameters p hp n hn

theorem Interface.declaresNothing_link {scope : ScopedName} {i : Interface} {b : Unit}
    (h : (i.link scope t).outcome = .ok b) :
    ∀ o ∈ (i.link scope t).part.operations, o.DeclaresNothing := by
  obtain ⟨hos, hlink⟩ := Interface.link_eq_ok h
  rw [hlink]
  exact forall_mem_linkAll (p := fun _ o => Operation.DeclaresNothing o)
    (Operation.le_link (scope.child i.name)) (fun _ _ _ _ ho => ho)
    (fun _ _ _ ho => Operation.declaresNothing_link ho) hos

/-- No type is declared in place within the operations of a module. -/
def Module.OperationsDeclareNothing (m : Module) : Prop :=
  ∀ i ∈ m.interfaces, ∀ o ∈ i.operations, o.DeclaresNothing

theorem Module.operationsDeclareNothing_link {m : Module} {b : Unit}
    (h : (m.link t).outcome = .ok b) : (m.link t).part.OperationsDeclareNothing := by
  obtain ⟨-, his, hlink⟩ := Module.link_eq_ok h
  rw [hlink]
  exact forall_mem_linkAll (p := fun _ (i : Interface) => ∀ o ∈ i.operations, o.DeclaresNothing)
    (Interface.le_link (.child .root m.name)) (fun _ _ _ _ hi => hi)
    (fun _ _ _ hi => Interface.declaresNothing_link hi) his

end WireStub
