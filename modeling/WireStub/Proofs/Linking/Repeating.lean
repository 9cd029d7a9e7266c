import WireStub.Import.Schema
import WireStub.Proofs.Linking.Retracing
import WireStub.Proofs.Linking.Scoping

/-!
# Linking again

Linking overwrites every path and every binding before it could be read.  So a module that links comes
out the same whatever paths and bindings it had before, and modules that are linked already can be
linked again.

* `Module.link_eq_of_unlinked`: what a module links to depends on the module before linking only;
* `linkAll_again` links a list of parts twice, and `Schema.ofModules_again` a list of loaded modules;
* `linking_keeps_and_repeats` is the main statement.
-/

namespace WireStub

variable {t : SymbolTable}

/-- Modules that differ in paths and bindings link to the same, if one of them links. -/
theorem Module.link_eq_of_unlinked {m m' : Module} (hsame : m'.unlinked = m.unlinked)
    (h : (m.link t).outcome = .ok ()) : m'.link t = m.link t := by
  have hpart : m'.unlinked = (m.link t).part.unlinked := hsame.trans (m.unlinked_link t).symm
  rw [Module.link_of_run hpart (Module.nameable_link h) (Module.run_link h), ← h]

/-- A module that is linked already links to itself. -/
theorem Module.link_again {m : Module} (h : (m.link t).outcome = .ok ()) :
    (m.link t).part.link t = m.link t :=
  Module.link_eq_of_unlinked (m.unlinked_link t) h

/-- Parts that can be linked again one by one can be linked again as a list. -/
theorem linkAll_again {α β : Type} {l : SymbolTable → α → Linked α β}
    (hagain : ∀ t a b, (l t a).outcome = .ok b → l t (l t a).part = l t a) {as : List α}
    (h : (linkAll l t as).outcome = .ok ()) :
    linkAll l t (linkAll l t as).part = linkAll l t as := by
  induction as generalizing t with
  | nil => rfl
  | cons a as ih =>
    obtain ⟨b, hb, has, hlink⟩ := linkAll_cons_eq_ok h
    have hfirst := hagain t a b hb
    rw [hlink]
    simp only [Linked.mapPart, linkAll, hfirst, hb, ih has]

/-- Loaded modules that are linked already are a schema as they are. -/
theorem Schema.ofModules_again {ms : List LoadedModule} {s : Schema}
    (h : Schema.ofModules ms = .ok s) : Schema.ofModules s.modules = .ok s := by
  unfold Schema.ofModules at h ⊢
  simp only at h ⊢
  split at h
  · cases h
  rename_i hok
  cases h
  rw [linkAll_again (fun t m b hb => ?_) hok, hok]
  simp only [Linked.mapPart] at hb ⊢
  rw [Module.link_again hb]

/-- **Linking fills in paths and bindings, and can be repeated.**  Whether a module links or not, nothing
else in it changes.  If it links, then so does, from the same table, every module that differs from it
in paths and bindings only, with the same linked module and the same table as its result.  So modules
that are linked already link to themselves, and loaded modules, which are linked from an empty table,
are a schema that can be linked again. -/
theorem linking_keeps_and_repeats (t : SymbolTable) :
    (∀ m : Module, (m.link t).part.unlinked = m.unlinked) ∧
      (∀ m m' : Module, m'.unlinked = m.unlinked → (m.link t).outcome = .ok () →
        m'.link t = m.link t) ∧
      (∀ ms : List Module, (linkAll Module.link t ms).outcome = .ok () →
        linkAll Module.link t (linkAll Module.link t ms).part = linkAll Module.link t ms) ∧
      ∀ ms s, Schema.ofModules ms = .ok s → Schema.ofModules s.modules = .ok s :=
  ⟨Module.unlinked_link t, fun _ _ hsame h => Module.link_eq_of_unlinked hsame h,
    fun _ h => linkAll_again (l := Module.link) (fun _ _ _ hm => Module.link_again hm) h,
    fun _ _ h => Schema.ofModules_again h⟩

/-- The second gauge module with paths and bindings of another schema. -/
def staleGaugeModule : Module :=
  gaugeModules[1].relabel (fun _ => ⟨["Old"]⟩) fun r => ⟨r.name, some ⟨["Old", r.name]⟩, some .array⟩

theorem linking_keeps_and_repeats_gauge :
    staleGaugeModule.unlinked = gaugeModules[1].unlinked ∧
      (gaugeModules[1].link (gaugeModules[0].link .empty).table).outcome = .ok () ∧
      staleGaugeModule.link (gaugeModules[0].link .empty).table =
        gaugeModules[1].link (gaugeModules[0].link .empty).table ∧
      linkAll Module.link .empty (linkAll Module.link .empty gaugeModules).part =
        linkAll Module.link .empty gaugeModules ∧
      ∃ s, Schema.ofModules (gaugeModules.map (⟨·, ⟨["gauge.yaml"]⟩, true⟩)) = .ok s ∧
        Schema.ofModules s.modules = .ok s := by
  obtain ⟨-, hstale, -, -⟩ := linking_keeps_and_repeats (gaugeModules[0].link .empty).table
  obtain ⟨-, -, hagain, hschema⟩ := linking_keeps_and_repeats .empty
  have hok : (gaugeModules[1].link (gaugeModules[0].link .empty).table).outcome = .ok () := rfl
  have hlinks : (linkAll Module.link .empty gaugeModules).outcome = .ok () := rfl
  have hloads : ∃ s, Schema.ofModules (gaugeModules.map (⟨·, ⟨["gauge.yaml"]⟩, true⟩)) = .ok s :=
    ⟨_, rfl⟩
  obtain ⟨s, hs⟩ := hloads
  exact ⟨rfl, hok, hstale _ _ rfl hok, hagain _ hlinks, s, hs, hschema _ s hs⟩

end WireStub
