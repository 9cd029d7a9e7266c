import WireStub.Proofs.Linking.Progress

/-!
# Which modules link

A module links exactly if all its obligations are met, and otherwise linking reports the first that is
not.

* `Linked.Answers l known os` says that `l` is what linking a part with the obligations `os` has to
  come to where the names `known` are declared;
* `Linked.Walks.answers`: this is so if linking walks along the obligations;
* `Module.link_outcome_iff` is the main statement.
-/

namespace WireStub

/-- Linking a part succeeds and declares what the obligations declare, if all are met, or else it
reports the first that is not. -/
inductive Linked.Answers {α β : Type} (l : Linked α β) (known : List ScopedName)
    (os : List Obligation) : Prop
  | success (b : β) : l.outcome = .ok b → AllMet known os →
      l.table.names = known ++ declaredNames os → Answers l known os
  | failure (o : Obligation) : l.outcome = .error o.fault → FirstUnmet known os o →
      Answers l known os

/-- Where a walk stops is the first obligation that is not met. -/
theorem Linked.Walks.answers {α β : Type} {l : Linked α β} {t : SymbolTable} {os : List Obligation}
    {rs rs' : List Reference} (h : l.Walks t os rs rs') : l.Answers t.names os := by
  cases h with
  | arrives b hb hwalk => exact .success b hb hwalk.allMet hwalk.names
  | stops hos _ _ hwalk hunmet he =>
    exact .failure _ he ⟨_, _, hos, hwalk.allMet, hwalk.names ▸ hunmet⟩

/-- Linking a module answers its obligations. -/
theorem Module.answers (t : SymbolTable) (m : Module) :
    (m.link t).Answers t.names m.obligations := (m.walks t).answers

/-- **Which modules link.**  From any symbol table, a module links if and only if it is linkable from
the declared names: it has a name, all its declarations and interfaces have names, no type is declared
in place within an operation, every path that it declares is new, and every reference has a meaning
among the names that are known when linking comes to it.  Otherwise linking reports the first
obligation that is not met. -/
theorem Module.link_outcome_iff (t : SymbolTable) (m : Module) :
    ((m.link t).outcome = .ok () ↔ m.Linkable t.names) ∧
      ∀ e, (m.link t).outcome = .error e ↔ ∃ o, FirstUnmet t.names m.obligations o ∧ e = o.fault := by
  rw [← Module.allMet_iff]
  cases Module.answers t m with
  | success b hb hmet _ =>
    refine ⟨⟨fun _ => hmet, fun _ => hb⟩, fun e => ⟨fun he => ?_, ?_⟩⟩
    · cases hb.symm.trans he
    · rintro ⟨o, ho, -⟩
      exact absurd ho hmet.not_firstUnmet
  | failure o ho hunmet =>
    refine ⟨⟨fun hok => ?_, fun hmet => absurd hunmet hmet.not_firstUnmet⟩,
      fun e => ⟨fun he => ⟨o, hunmet, ?_⟩, ?_⟩⟩
    · cases ho.symm.trans hok
    · exact Except.error.inj (he.symm.trans ho)
    · rintro ⟨o', ho', rfl⟩
      rw [ho, hunmet.eq ho']

/-- A lock with a gauge that shows the mode of a sluice. -/
def lockModule : Module :=
  ⟨"Lock", [.struct ⟨"Gauge", .root, [⟨"mode", .declared (.unlinked "Sluice::Mode"), []⟩]⟩], []⟩

/-- The sluice. -/
def sluiceModule : Module := ⟨"Sluice", [.enum ⟨"Mode", .root, ["OFF", "ON"]⟩], []⟩

/-- The lock does not link before the sluice.  Where this has failed, the sluice links. -/
theorem Module.link_outcome_iff_lock :
    ∃ o, FirstUnmet [] lockModule.obligations o ∧
      o.fault = .unknownType "Sluice::Mode" ⟨["Lock", "Gauge", "mode"]⟩ ∧
      (lockModule.link .empty).outcome = .error o.fault ∧ ¬lockModule.Linkable [] ∧
      (lockModule.link .empty).table.names = [⟨["Lock", "Gauge"]⟩] ∧
      (sluiceModule.link (lockModule.link .empty).table).outcome = .ok () ∧
      sluiceModule.Linkable [⟨["Lock", "Gauge"]⟩] := by
  obtain ⟨hlinkable, hfault⟩ := link_outcome_iff .empty lockModule
  have hfails : (lockModule.link .empty).outcome =
      .error (.unknownType "Sluice::Mode" ⟨["Lock", "Gauge", "mode"]⟩) := rfl
  obtain ⟨o, hunmet, ho⟩ := (hfault _).1 hfails
  have hnot : ¬lockModule.Linkable [] := fun h => by
    cases hfails.symm.trans (hlinkable.2 h)
  have hsluice : (sluiceModule.link (lockModule.link .empty).table).outcome = .ok () := rfl
  exact ⟨o, hunmet, ho.symm, ho ▸ hfails, hnot, rfl, hsluice,
    (link_outcome_iff (lockModule.link .empty).table sluiceModule).1.1 hsluice⟩

end WireStub
