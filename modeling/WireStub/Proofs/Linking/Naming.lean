import WireStub.Proofs.Linking.Visiting
import WireStub.Proofs.Schema.Relabeling

/-!
# What linking keeps and what it checks

Linking fills in paths and bindings, and everything else stays as it was read, whether it succeeds or
not.  When it succeeds, all declarations have names.

* `Module.unlinked_link` says what stays, with one lemma per part;
* `Occurrence.Named` and `Occurrence.DeclareNothing` speak about the declarations at occurrences, and
  `Module.Nameable` collects what linking checks of names;
* `Module.nameable_link`: modules that link have such names.
-/

namespace WireStub

variable {t : SymbolTable}

/-! ### What linking keeps -/

theorem Reference.name_link (s : Site) (t : SymbolTable) (r : Reference) :
    (r.link s t).part.name = r.name := by
  unfold Reference.link
  split <;> rfl

theorem EnumDecl.unlinked_link (scope : ScopedName) (t : SymbolTable) (d : EnumDecl) :
    (TypeExpr.enum (d.link scope t).part).unlinked = (TypeExpr.enum d).unlinked := by
  unfold EnumDecl.link
  split
  · rfl
  · simp only
    split <;> rfl

mutual

/-- Whether it fails or not, linking changes paths and bindings only. -/
theorem TypeExpr.unlinked_link (s : Site) (t : SymbolTable) :
    ∀ e : TypeExpr, (e.link s t).part.unlinked = e.unlinked
  | .primitive _ | .string => rfl
  | .declared r => congrArg (fun name => TypeExpr.declared (.unlinked name)) (r.name_link s t)
  | .sequence e => congrArg TypeExpr.sequence (TypeExpr.unlinked_link s t e)
  | .struct d => by
    rw [TypeExpr.link]
    split
    · exact congrArg TypeExpr.struct (StructDecl.unlinked_link _ t d)
    · rfl
  | .enum d => by
    rw [TypeExpr.link]
    split
    · exact EnumDecl.unlinked_link _ t d
    · rfl

theorem StructDecl.unlinked_link (scope : ScopedName) (t : SymbolTable) :
    ∀ d : StructDecl, (d.link scope t).part.unlinked = d.unlinked
  | ⟨name, path, ms⟩ => by
    rw [StructDecl.link]
    split
    · rfl
    · simp only
      split
      · rfl
      · exact congrArg (StructDecl.mk name .root) (Member.unlinked_linkAll _ _ ms)

theorem Member.unlinked_linkAll (path : ScopedName) (t : SymbolTable) :
    ∀ ms : List Member,
      Member.relabelAll (fun _ => .root) (fun r => .unlinked r.name) (Member.linkAll path t ms).part =
        Member.relabelAll (fun _ => .root) (fun r => .unlinked r.name) ms
  | [] => rfl
  | ⟨name, type, dims⟩ :: ms => by
    have htype := TypeExpr.unlinked_link (.member path name) t type
    rw [Member.linkAll]
    split
    · exact congrArg (Member.mk name · dims :: _) htype
    · exact congrArg₂ (Member.mk name · dims :: ·) htype (Member.unlinked_linkAll path _ ms)

end

theorem Definition.unlinked_link (scope : ScopedName) (t : SymbolTable) (d : Definition) :
    (d.link scope t).part.unlinked = d.unlinked := by
  cases d with
  | struct d => exact congrArg Definition.struct (d.unlinked_link scope t)
  | enum d =>
    have hd := d.unlinked_link scope t
    exact congrArg Definition.enum (TypeExpr.enum.inj hd)
  | typedef d =>
    have htype := d.type.unlinked_link (.typedef scope d.name) t
    refine congrArg Definition.typedef ?_
    unfold TypedefDecl.link
    split
    · rfl
    · simp only
      split
      · exact congrArg (fun e => TypedefDecl.mk d.name .root e d.dims) htype
      · split <;> exact congrArg (fun e => TypedefDecl.mk d.name .root e d.dims) htype

theorem map_unlinked_linkAll {α β : Type} {l : SymbolTable → α → Linked α β} {f : α → α}
    (hlink : ∀ t a, f (l t a).part = f a) (t : SymbolTable) (as : List α) :
    (linkAll l t as).part.map f = as.map f := by
  induction as generalizing t with
  | nil => rfl
  | cons a as ih =>
    rw [linkAll]
    split
    · rw [List.map_cons, List.map_cons, hlink]
    · rw [Linked.mapPart, List.map_cons, List.map_cons, hlink, ih]

theorem Operation.unlinked_link (interface : ScopedName) (t : SymbolTable) (o : Operation) :
    (o.link interface t).part.unlinked = o.unlinked := by
  have hreturns := o.returns.unlinked_link (.returns interface o.name) t
  have hparameters := map_unlinked_linkAll (l := Parameter.link interface o.name)
    (f := Parameter.relabel (fun _ => .root) fun r => .unlinked r.name)
    (fun t p => congrArg (fun e => Parameter.mk p.name e p.direction)
      (p.type.unlinked_link (.parameter interface o.name p.name) t))
    (o.returns.link (.returns interface o.name) t).table o.parameters
  unfold Operation.link
  simp only
  split
  · exact congrArg (fun e => Operation.mk o.name e _ o.raises) hreturns
  · exact congrArg₂ (fun e ps => Operation.mk o.name e ps o.raises) hreturns hparameters

theorem Interface.unlinked_link (scope : ScopedName) (t : SymbolTable) (i : Interface) :
    (i.link scope t).part.unlinked = i.unlinked := by
  unfold Interface.link
  split
  · rfl
  · exact congrArg (Interface.mk i.name .root)
      (map_unlinked_linkAll (Operation.unlinked_link _) t i.operations)

/-- Whether it fails or not, linking changes nothing in a module but paths and bindings. -/
theorem Module.unlinked_link (t : SymbolTable) (m : Module) :
    (m.link t).part.unlinked = m.unlinked := by
  have hdefinitions :=
    map_unlinked_linkAll (Definition.unlinked_link (.child .root m.name)) t m.definitions
  unfold Module.link
  split
  · rfl
  · simp only
    split
    · exact congrArg (Module.mk m.name · _) hdefinitions
    · exact congrArg₂ (Module.mk m.name) hdefinitions
        (map_unlinked_linkAll (Interface.unlinked_link (.child .root m.name)) _ m.interfaces)

/-! ### Names of declarations -/

open Occurrence

/-- The declarations at occurrences have a name. -/
def Occurrence.Named (xs : List Occurrence) : Prop :=
  ∀ s d, .declares s d ∈ xs → Text.isBlank d.name = false

theorem Occurrence.named_append {xs ys : List Occurrence} :
    Named (xs ++ ys) ↔ Named xs ∧ Named ys := by
  simp only [Named, List.mem_append, or_imp, forall_and]

theorem Occurrence.named_cons {x : Occurrence} {xs : List Occurrence} :
    Named (x :: xs) ↔ Named [x] ∧ Named xs := @named_append [x] xs

theorem Occurrence.Named.name {s : ScopedName} {d : Definition} (h : Named [.declares s d]) :
    Text.isBlank d.name = false := h s d (List.mem_singleton_self _)

theorem Occurrence.named_single {s : ScopedName} {d : Definition} (h : Text.isBlank d.name = false) :
    Named [.declares s d] := by
  intro s' d' hd
  cases List.mem_singleton.1 hd
  exact h

/-- Nothing is declared at occurrences. -/
def Occurrence.DeclareNothing (xs : List Occurrence) : Prop := ∀ s d, .declares s d ∉ xs

theorem Occurrence.DeclareNothing.named {xs : List Occurrence} (h : DeclareNothing xs) : Named xs :=
  fun s d hd => absurd hd (h s d)

theorem Occurrence.declareNothing_append {xs ys : List Occurrence} :
    DeclareNothing (xs ++ ys) ↔ DeclareNothing xs ∧ DeclareNothing ys := by
  simp only [DeclareNothing, List.mem_append, not_or, forall_and]

/-- What linking checks of the names of a module, and how it names the interfaces. -/
structure Module.Nameable (m : Module) : Prop where
  name : m.name.isEmpty = false
  definitions : ∀ d ∈ m.definitions, Named (d.occurrences (.child .root m.name))
  interfaces : ∀ i ∈ m.interfaces,
    Text.isBlank i.name = false ∧ i.path = .child (.child .root m.name) i.name
  operations : ∀ i ∈ m.interfaces, ∀ o ∈ i.operations, DeclareNothing (o.occurrences i.path)

/-! ### Names behind linking -/

theorem EnumDecl.isBlank_of_link {scope : ScopedName} {d : EnumDecl} {b : Unit}
    (h : (d.link scope t).outcome = .ok b) : Text.isBlank d.name = false := by
  unfold EnumDecl.link at h
  split at h
  · cases h
  · exact eq_false_of_ne_true ‹_›

theorem StructDecl.isBlank_of_link {scope : ScopedName} {d : StructDecl} {b : Unit}
    (h : (d.link scope t).outcome = .ok b) : Text.isBlank d.name = false := by
  obtain ⟨name, path, ms⟩ := d
  rw [StructDecl.link] at h
  split at h
  · cases h
  · exact eq_false_of_ne_true ‹_›

theorem TypedefDecl.isBlank_of_link {scope : ScopedName} {d : TypedefDecl} {b : Unit}
    (h : (d.link scope t).outcome = .ok b) : Text.isBlank d.name = false := by
  unfold TypedefDecl.link at h
  split at h
  · cases h
  · exact eq_false_of_ne_true ‹_›

theorem Interface.isBlank_of_link {scope : ScopedName} {i : Interface} {b : Unit}
    (h : (i.link scope t).outcome = .ok b) : Text.isBlank i.name = false := by
  unfold Interface.link at h
  split at h
  · cases h
  · exact eq_false_of_ne_true ‹_›

theorem Module.isEmpty_name_of_link {m : Module} {b : Unit} (h : (m.link t).outcome = .ok b) :
    m.name.isEmpty = false := by
  unfold Module.link at h
  split at h
  · cases h
  · exact eq_false_of_ne_true ‹_›

theorem EnumDecl.named_link {scope : ScopedName} {d : EnumDecl} {b : Unit}
    (h : (d.link scope t).outcome = .ok b) (s : ScopedName) :
    Named [.declares s (.enum (d.link scope t).part)] := by
  have hblank := EnumDecl.isBlank_of_link h
  obtain ⟨u, -, hlink⟩ := EnumDecl.link_eq_ok h
  rw [hlink]
  exact named_single hblank

mutual

/-- A type that links has names for all that it declares. -/
theorem TypeExpr.named_link (s : Site) (t : SymbolTable) (scope : ScopedName) :
    ∀ (e : TypeExpr) (k : Kind), (e.link s t).outcome = .ok k →
      Named ((e.link s t).part.occurrences scope)
  | .primitive _, _, _ | .string, _, _ => fun _ _ hd => nomatch hd
  | .declared _, _, _ => fun _ _ hd => nomatch List.mem_singleton.1 hd
  | .sequence e, k, h => by
    obtain ⟨k', hk', hlink⟩ := TypeExpr.link_sequence_eq_ok h
    rw [hlink]
    exact TypeExpr.named_link s t scope e k' hk'
  | .struct d, k, h => by
    obtain ⟨inner, -, hd, hlink⟩ := TypeExpr.link_struct_eq_ok h
    rw [hlink]
    exact StructDecl.named_link inner t scope d () hd
  | .enum d, k, h => by
    obtain ⟨inner, -, hd, hlink⟩ := TypeExpr.link_enum_eq_ok h
    rw [hlink]
    exact EnumDecl.named_link hd scope

theorem StructDecl.named_link (inner : ScopedName) (t : SymbolTable) (scope : ScopedName) :
    ∀ (d : StructDecl) (b : Unit), (d.link inner t).outcome = .ok b →
      Named ((d.link inner t).part.occurrences scope)
  | ⟨name, path, ms⟩, b, h => by
    have hblank := StructDecl.isBlank_of_link h
    obtain ⟨u, -, hmembers, hlink⟩ := StructDecl.link_eq_ok h
    rw [hlink]
    exact named_cons.2 ⟨named_single hblank, Member.named_linkAll _ u _ ms hmembers⟩

theorem Member.named_linkAll (path : ScopedName) (t : SymbolTable) (scope : ScopedName) :
    ∀ ms : List Member, (Member.linkAll path t ms).outcome = .ok () →
      Named (Member.occurrences scope (Member.linkAll path t ms).part)
  | [], _ => fun _ _ hd => nomatch hd
  | ⟨name, type, dims⟩ :: ms, h => by
    obtain ⟨k, hk, hms, hlink⟩ := Member.linkAll_cons_eq_ok h
    rw [hlink]
    exact named_append.2 ⟨TypeExpr.named_link _ t scope type k hk,
      Member.named_linkAll path _ scope ms hms⟩

end

theorem Definition.named_link {scope : ScopedName} {d : Definition} {b : Unit}
    (h : (d.link scope t).outcome = .ok b) : Named ((d.link scope t).part.occurrences scope) := by
  cases d with
  | struct d => exact d.named_link scope t scope b h
  | enum d => exact EnumDecl.named_link (d := d) h scope
  | typedef d =>
    have hblank := TypedefDecl.isBlank_of_link (d := d) h
    obtain ⟨k, u, hk, -, hlink⟩ := TypedefDecl.link_eq_ok (d := d) h
    rw [Definition.link, hlink]
    exact named_append.2 ⟨d.type.named_link _ t scope k hk, named_single hblank⟩

/-- A module that links has the names that linking checks. -/
theorem Module.nameable_link {m : Module} {b : Unit} (h : (m.link t).outcome = .ok b) :
    (m.link t).part.Nameable := by
  have hname := Module.isEmpty_name_of_link h
  have hoperations := Module.operationsDeclareNothing_link h
  have hpaths := Module.interface_path_link h
  obtain ⟨hds, his, hlink⟩ := Module.link_eq_ok h
  have hdefinitions := forall_mem_linkAll
    (p := fun _ (d : Definition) => Named (d.occurrences (.child .root m.name)))
    (Definition.le_link (.child .root m.name)) (fun _ _ _ _ hd => hd)
    (fun _ _ _ hd => Definition.named_link hd) hds
  have hinterfaces := forall_mem_linkAll
    (p := fun _ (i : Interface) => Text.isBlank i.name = false)
    (Interface.le_link (.child .root m.name)) (fun _ _ _ _ hi => hi)
    (fun _ _ _ hi => by
      have hblank := Interface.isBlank_of_link hi
      obtain ⟨-, hlink⟩ := Interface.link_eq_ok hi
      rw [hlink]
      exact hblank) his
  rw [hlink] at hoperations hpaths ⊢
  exact ⟨hname, hdefinitions, fun i hi => ⟨hinterfaces i hi, hpaths i hi⟩,
    fun i hi o ho s d => (hoperations i hi o ho).not_declares⟩

/-- Modules that link have the names that linking checks. -/
theorem nameable_linkAll {u : SymbolTable} {ms linked : List Module}
    (h : linkAll Module.link t ms = ⟨linked, u, .ok ()⟩) : ∀ m ∈ linked, m.Nameable := by
  have hnameable := forall_mem_linkAll (p := fun _ m => Module.Nameable m) Module.le_link
    (fun _ _ _ _ hm => hm) (fun _ _ _ hm => Module.nameable_link hm) (congrArg Linked.outcome h)
  rwa [h] at hnameable

end WireStub
