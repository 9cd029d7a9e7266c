import WireStub.Proofs.Linking.Naming
import Mathlib.Data.List.Perm.Basic

/-!
# Declarations and their visits

Linking visits the declarations of a module in one order, a struct before those within it, and they
are emitted in another, a struct behind those within it.  They are the same declarations, and no path
is given twice.

* `Definition.inner` are the declarations within a declaration, which stand right before it:
  `Definition.declarations_infix`;
* `Module.perm_definitions`: the declarations at the occurrences of a module are those that are
  emitted;
* `nodup_path_declarations`: in modules that link, all declarations have different and new paths.
-/

namespace WireStub

/-! ### Declarations within declarations -/

/-- The declarations within a declaration. -/
def Definition.inner : Definition → List Definition
  | .struct d => Member.declarations d.members
  | .enum _ => []
  | .typedef d => d.type.declarations

theorem Member.declarations_eq_flatMap (ms : List Member) :
    Member.declarations ms = ms.flatMap (·.type.declarations) := by
  induction ms with
  | nil => rfl
  | cons m ms ih =>
    cases m
    rw [Member.declarations, List.flatMap_cons, ih]

theorem Definition.declarations_eq (d : Definition) : d.declarations = d.inner ++ [d] := by
  rcases d with ⟨_, _, _⟩ | _ | _ <;> rfl

theorem Definition.mem_declarations_self (d : Definition) : d ∈ d.declarations := by
  rw [declarations_eq]
  exact List.mem_append_right _ List.mem_cons_self

mutual

/-- The declarations of a declaration within a type stand side by side. -/
theorem TypeExpr.declarations_infix {d : Definition} :
    ∀ {e : TypeExpr}, d ∈ e.declarations → d.declarations <:+: e.declarations
  | .sequence e, h => TypeExpr.declarations_infix (e := e) h
  | .struct e, h => StructDecl.declarations_infix (e := e) h
  | .enum e, h => by
    obtain rfl := List.mem_singleton.1 h
    exact List.infix_refl _
  | .primitive _, h | .declared _, h | .string, h => by cases h

theorem StructDecl.declarations_infix {d : Definition} :
    ∀ {e : StructDecl}, d ∈ e.declarations → d.declarations <:+: e.declarations
  | ⟨name, path, ms⟩, h => by
    rcases List.mem_append.1 h with h | h
    · exact (Member.declarations_infix h).trans (List.prefix_append _ _).isInfix
    · obtain rfl := List.mem_singleton.1 h
      exact List.infix_refl _

theorem Member.declarations_infix {d : Definition} :
    ∀ {ms : List Member}, d ∈ Member.declarations ms →
      d.declarations <:+: Member.declarations ms
  | [], h => by cases h
  | ⟨_, e, _⟩ :: ms, h => by
    rw [Member.declarations]
    rcases List.mem_append.1 h with h | h
    · exact (TypeExpr.declarations_infix h).trans (List.prefix_append _ _).isInfix
    · exact (Member.declarations_infix h).trans (List.suffix_append _ _).isInfix

end

theorem Definition.declarations_infix {d e : Definition} (h : d ∈ e.declarations) :
    d.declarations <:+: e.declarations := by
  cases e with
  | struct e => exact StructDecl.declarations_infix h
  | enum e => exact TypeExpr.declarations_infix (e := .enum e) h
  | typedef e =>
    rcases List.mem_append.1 h with h | h
    · exact (TypeExpr.declarations_infix h).trans (List.prefix_append _ _).isInfix
    · obtain rfl := List.mem_singleton.1 h
      exact List.infix_refl _

/-- The declarations within a declaration of a module stand right before it. -/
theorem Module.declarations_infix {m : Module} {d : Definition} (h : d ∈ m.declarations) :
    d.declarations <:+: m.declarations := by
  obtain ⟨e, he, hd⟩ := List.mem_flatMap.1 h
  exact (Definition.declarations_infix hd).trans
    (List.infix_of_mem_flatten (List.mem_map_of_mem he))

/-! ### Declarations at occurrences -/

open Occurrence

/-- The declaration at an occurrence. -/
def Occurrence.definition? : Occurrence → Option Definition
  | .declares _ d => some d
  | .refers _ _ => none

theorem Occurrence.mem_filterMap_definition? {xs : List Occurrence} {d : Definition} :
    d ∈ xs.filterMap definition? ↔ ∃ s, .declares s d ∈ xs := by
  rw [List.mem_filterMap]
  constructor
  · rintro ⟨x, hx, hd⟩
    cases x with
    | declares s e =>
      cases hd
      exact ⟨s, hx⟩
    | refers => cases hd
  · rintro ⟨s, hd⟩
    exact ⟨_, hd, rfl⟩

theorem Occurrence.DeclareNothing.filterMap_definition? {xs : List Occurrence}
    (h : DeclareNothing xs) : xs.filterMap definition? = [] := by
  refine List.eq_nil_iff_forall_not_mem.2 fun d hd => ?_
  obtain ⟨s, hs⟩ := mem_filterMap_definition?.1 hd
  exact h s d hs

mutual

theorem TypeExpr.perm_definitions (scope : ScopedName) :
    ∀ e : TypeExpr, ((e.occurrences scope).filterMap definition?).Perm e.declarations
  | .sequence e => TypeExpr.perm_definitions scope e
  | .struct d => StructDecl.perm_definitions scope d
  | .primitive _ | .declared _ | .string | .enum _ => .refl _

theorem StructDecl.perm_definitions (scope : ScopedName) :
    ∀ d : StructDecl, ((d.occurrences scope).filterMap definition?).Perm d.declarations
  | ⟨_, path, ms⟩ =>
    ((Member.perm_definitions path ms).cons _).trans (List.perm_append_singleton _ _).symm

theorem Member.perm_definitions (scope : ScopedName) :
    ∀ ms : List Member,
      ((Member.occurrences scope ms).filterMap definition?).Perm (Member.declarations ms)
  | [] => .refl _
  | ⟨_, e, _⟩ :: ms => by
    rw [Member.occurrences, Member.declarations, List.filterMap_append]
    exact (TypeExpr.perm_definitions scope e).append (Member.perm_definitions scope ms)

end

theorem Definition.perm_definitions (scope : ScopedName) (d : Definition) :
    ((d.occurrences scope).filterMap definition?).Perm d.declarations := by
  cases d with
  | struct d => exact d.perm_definitions scope
  | enum d => exact .refl _
  | typedef d =>
    rw [occurrences, declarations, List.filterMap_append]
    exact (d.type.perm_definitions scope).append (.refl _)

/-- Linking visits the declarations that are emitted. -/
theorem Module.perm_definitions {m : Module} (hm : m.Nameable) :
    (m.occurrences.filterMap definition?).Perm m.declarations := by
  have hinterfaces : (m.interfaces.flatMap (·.occurrences)).filterMap definition? = [] := by
    refine DeclareNothing.filterMap_definition? fun s d hd => ?_
    obtain ⟨i, hi, hd⟩ := List.mem_flatMap.1 hd
    obtain ⟨o, ho, hd⟩ := List.mem_flatMap.1 hd
    exact hm.operations i hi o ho s d hd
  rw [occurrences, List.filterMap_append, hinterfaces, List.append_nil, List.filterMap_flatMap]
  exact List.Perm.flatMap_left _ fun d _ => d.perm_definitions _

/-- Along a run, all declarations are entered into the table. -/
theorem Occurrence.Run.map_entries {t u : SymbolTable} {xs : List Occurrence} (h : Run t xs u) :
    (entries xs).map (·.1) = (xs.filterMap definition?).map (·.path) := by
  induction h with
  | nil => rfl
  | cons hact _ ih =>
    cases hact with
    | declares _ hkind _ => simpa [entries, entry?, definition?, hkind] using ih
    | refers => exact ih

section Modules

variable {t u : SymbolTable} {ms linked : List Module}

theorem perm_definitions_linkAll (h : linkAll Module.link t ms = ⟨linked, u, .ok ()⟩) :
    ((linked.flatMap (·.occurrences)).filterMap definition?).Perm
      (linked.flatMap (·.declarations)) := by
  rw [List.filterMap_flatMap]
  exact List.Perm.flatMap_left _ fun m hm => Module.perm_definitions (nameable_linkAll h m hm)

/-- In modules that link, all declarations have different paths, and none that was in the table
before. -/
theorem nodup_path_declarations (h : linkAll Module.link t ms = ⟨linked, u, .ok ()⟩) :
    (t.names ++ (linked.flatMap (·.declarations)).map (·.path)).Nodup := by
  have hrun := run_link_modules h
  have hnodup := u.nodup
  rw [hrun.entries_eq, List.map_append, hrun.map_entries] at hnodup
  exact ((((perm_definitions_linkAll h).map _).append_left _).nodup_iff).1 hnodup

end Modules

end WireStub
