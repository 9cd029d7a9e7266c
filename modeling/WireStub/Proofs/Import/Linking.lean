import WireStub.Import.Schema

/-!
# Linking what is loaded

A schema is made of loaded modules, which are modules with the file that they come from.  Linking looks
at the modules only.

* `linkAll_map`: parts that link as other parts do, link as a list as these do;
* `Schema.ofModules_map` links modules that all come from one file;
* `Schema.linkAll_of_ofModules` forgets the files.
-/

namespace WireStub

/-- Parts that link as the parts that they are made of, with the same change afterwards, link as a list
as these do. -/
theorem linkAll_map {α β γ : Type} {f : α → β} {l : SymbolTable → α → Linked α γ}
    {l' : SymbolTable → β → Linked β γ} (h : ∀ t a, l' t (f a) = (l t a).mapPart f) (t : SymbolTable)
    (as : List α) : linkAll l' t (as.map f) = (linkAll l t as).mapPart (·.map f) := by
  induction as generalizing t with
  | nil => rfl
  | cons a as ih =>
    rw [List.map_cons, linkAll, linkAll, h]
    cases hl : (l t a).outcome with
    | error e => simp [Linked.mapPart, hl]
    | ok c => simp [Linked.mapPart, hl, ih]

namespace Schema

/-- Modules of one file link as they do without it. -/
theorem ofModules_map (p : Path) (isMain : Bool) (ms : List Module) :
    ofModules (ms.map (⟨·, p, isMain⟩)) =
      match (linkAll Module.link .empty ms).outcome with
      | .error e => .error (.link e)
      | .ok _ => .ok ⟨(linkAll Module.link .empty ms).part.map (⟨·, p, isMain⟩)⟩ := by
  unfold ofModules
  rw [linkAll_map (f := fun m => (⟨m, p, isMain⟩ : LoadedModule)) (l := Module.link) fun _ _ => rfl]
  rfl

/-- The modules of a schema are what the loaded modules link to. -/
theorem linkAll_of_ofModules {ms : List LoadedModule} {s : Schema} (h : ofModules ms = .ok s) :
    ∃ u, linkAll Module.link .empty (ms.map (·.module)) = ⟨s.modules.map (·.module), u, .ok ()⟩ := by
  rw [linkAll_map (f := (·.module)) (l := fun t (m : LoadedModule) =>
    (m.module.link t).mapPart fun module => { m with module := module }) fun _ _ => rfl]
  simp only [ofModules] at h
  split at h
  · cases h
  · rename_i hok
    cases h
    exact ⟨_, congrArg (Linked.mk _ _) hok⟩

end Schema

end WireStub
