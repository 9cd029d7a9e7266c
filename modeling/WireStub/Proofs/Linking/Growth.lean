import WireStub.Linking.Basic
import Mathlib.Data.List.Nodup
import Mathlib.Order.Basic

/-!
# Growth of symbol tables

Linking only adds to the symbol table, whether it succeeds or not.  What a part has found in the
table is therefore still there when all parts are linked.

* `t ≤ u` says that `u` begins with the entries of `t`;
* `SymbolTable.mem_entries_of_lookup?` is what a lookup finds, and `SymbolTable.kind_eq` that it is
  the only kind of its name;
* `Module.le_link` is the growth, with one lemma per part, and `linkAll_le` for lists of parts;
* `linkAll_cons_eq_ok` takes the first part from a list of parts that links, and
  `forall_mem_linkAll` carries what each part establishes to the end of the list.
-/

namespace WireStub

namespace SymbolTable

variable {t u : SymbolTable} {n : ScopedName} {k : Kind}

/-- Tables are ordered by growth. -/
instance : Preorder SymbolTable where
  le t u := t.entries <+: u.entries
  le_refl t := List.prefix_refl t.entries
  le_trans _ _ _ h h' := List.IsPrefix.trans h h'

theorem mem_entries_of_le (h : t ≤ u) {x : ScopedName × Kind} (hx : x ∈ t.entries) :
    x ∈ u.entries := List.IsPrefix.subset h hx

theorem entries_of_declare? (h : t.declare? n k = some u) : u.entries = t.entries ++ [(n, k)] := by
  unfold declare? at h
  split at h
  · cases h
  · cases h
    rfl

theorem le_of_declare? (h : t.declare? n k = some u) : t ≤ u := by
  change t.entries <+: u.entries
  rw [entries_of_declare? h]
  exact List.prefix_append _ _

theorem mem_of_declare? (h : t.declare? n k = some u) : (n, k) ∈ u.entries := by
  rw [entries_of_declare? h]
  exact List.mem_append_right _ List.mem_cons_self

theorem not_mem_names_of_declare? (h : t.declare? n k = some u) : n ∉ t.names := by
  intro hold
  rw [(declare?_eq_none_iff t n k).2 hold] at h
  cases h

/-- A name has one kind. -/
theorem kind_eq {k' : Kind} (h : (n, k) ∈ t.entries) (h' : (n, k') ∈ t.entries) : k = k' :=
  congrArg Prod.snd (List.inj_on_of_nodup_map t.nodup h h' rfl)

theorem mem_entries_of_kind? (h : t.kind? n = some k) : (n, k) ∈ t.entries := by
  obtain ⟨l, l', hl, -⟩ := List.lookup_eq_some_iff.1 h
  rw [hl]
  exact List.mem_append_right _ List.mem_cons_self

theorem mem_entries_of_within? {path scope : ScopedName} (h : t.within? path scope = some (n, k)) :
    (n, k) ∈ t.entries := by
  obtain ⟨k', hk, heq⟩ := Option.map_eq_some_iff.1 h
  cases heq
  exact mem_entries_of_kind? hk

/-- A lookup finds what is declared. -/
theorem mem_entries_of_lookup? {written : String} {scope : ScopedName}
    (h : t.lookup? written scope = some (n, k)) : (n, k) ∈ t.entries := by
  unfold lookup? at h
  simp only at h
  split at h
  · cases h
  split at h
  · exact mem_entries_of_within? h
  · obtain ⟨s, -, hs⟩ := List.exists_of_findSome?_eq_some h
    exact mem_entries_of_within? hs

end SymbolTable

/-! ### Lists of parts -/

section LinkAll

variable {α β : Type} {link : SymbolTable → α → Linked α β}

theorem linkAll_le (hgrow : ∀ t a, t ≤ (link t a).table) (t : SymbolTable) (as : List α) :
    t ≤ (linkAll link t as).table := by
  induction as generalizing t with
  | nil => exact le_refl t
  | cons a as ih =>
    rw [linkAll]
    split
    · exact hgrow t a
    · exact (hgrow t a).trans (ih (link t a).table)

theorem linkAll_cons_eq_ok {t : SymbolTable} {a : α} {as : List α}
    (h : (linkAll link t (a :: as)).outcome = .ok ()) :
    ∃ b, (link t a).outcome = .ok b ∧ (linkAll link (link t a).table as).outcome = .ok () ∧
      linkAll link t (a :: as) =
        (linkAll link (link t a).table as).mapPart ((link t a).part :: ·) := by
  rw [linkAll] at h ⊢
  cases hb : (link t a).outcome with
  | error e => simp [hb] at h
  | ok b =>
    simp only [hb] at h ⊢
    exact ⟨b, rfl, h, trivial⟩

/-- What every part has once it is linked, and keeps while the table grows, all parts have in the
end. -/
theorem forall_mem_linkAll {p : SymbolTable → α → Prop} (hgrow : ∀ t a, t ≤ (link t a).table)
    (hkeep : ∀ t u a, t ≤ u → p t a → p u a)
    (hlink : ∀ t a b, (link t a).outcome = .ok b → p (link t a).table (link t a).part)
    {t : SymbolTable} {as : List α} (h : (linkAll link t as).outcome = .ok ()) :
    ∀ a ∈ (linkAll link t as).part, p (linkAll link t as).table a := by
  induction as generalizing t with
  | nil => exact fun a ha => absurd ha List.not_mem_nil
  | cons a as ih =>
    obtain ⟨b, hb, has, hlinkAll⟩ := linkAll_cons_eq_ok h
    rw [hlinkAll]
    intro c hc
    rcases List.mem_cons.1 hc with rfl | hc
    · -- the first part keeps what it has while the others are linked
      exact hkeep _ _ _ (linkAll_le hgrow _ as) (hlink t a b hb)
    · exact ih has c hc

end LinkAll

/-! ### Parts of a module -/

theorem Reference.table_link (s : Site) (t : SymbolTable) (r : Reference) :
    (r.link s t).table = t := by
  unfold Reference.link
  split <;> rfl

theorem EnumDecl.le_link (scope : ScopedName) (t : SymbolTable) (d : EnumDecl) :
    t ≤ (d.link scope t).table := by
  unfold EnumDecl.link
  split
  · exact le_refl t
  · simp only
    split
    · exact le_refl t
    · rename_i h
      exact SymbolTable.le_of_declare? h

mutual

theorem TypeExpr.le_link (s : Site) (t : SymbolTable) :
    ∀ e : TypeExpr, t ≤ (e.link s t).table
  | .primitive _ | .string => le_refl t
  | .declared r => le_of_eq (r.table_link s t).symm
  | .sequence e => TypeExpr.le_link s t e
  | .struct d => by
    rw [TypeExpr.link]
    split
    · exact StructDecl.le_link _ t d
    · exact le_refl t
  | .enum d => by
    rw [TypeExpr.link]
    split
    · exact EnumDecl.le_link _ t d
    · exact le_refl t

theorem StructDecl.le_link (scope : ScopedName) (t : SymbolTable) :
    ∀ d : StructDecl, t ≤ (d.link scope t).table
  | ⟨name, path, members⟩ => by
    rw [StructDecl.link]
    split
    · exact le_refl t
    · simp only
      split
      · exact le_refl t
      · rename_i u h
        exact (SymbolTable.le_of_declare? h).trans (Member.le_linkAll _ u members)

theorem Member.le_linkAll (path : ScopedName) (t : SymbolTable) :
    ∀ ms : List Member, t ≤ (Member.linkAll path t ms).table
  | [] => le_refl t
  | ⟨name, type, dims⟩ :: ms => by
    rw [Member.linkAll]
    have hmember := TypeExpr.le_link (.member path name) t type
    split
    · exact hmember
    · exact hmember.trans (Member.le_linkAll path _ ms)

end

theorem TypedefDecl.le_link (scope : ScopedName) (t : SymbolTable) (d : TypedefDecl) :
    t ≤ (d.link scope t).table := by
  unfold TypedefDecl.link
  have htype := d.type.le_link (.typedef scope d.name) t
  split
  · exact le_refl t
  · simp only
    split
    · exact htype
    · split
      · exact htype
      · rename_i h
        exact htype.trans (SymbolTable.le_of_declare? h)

theorem Definition.le_link (scope : ScopedName) (t : SymbolTable) (d : Definition) :
    t ≤ (d.link scope t).table := by
  cases d with
  | struct d => exact d.le_link scope t
  | enum d => exact d.le_link scope t
  | typedef d => exact d.le_link scope t

theorem Parameter.le_link (interface : ScopedName) (operation : String) (t : SymbolTable)
    (p : Parameter) : t ≤ (p.link interface operation t).table :=
  p.type.le_link (.parameter interface operation p.name) t

theorem Operation.le_link (interface : ScopedName) (t : SymbolTable) (o : Operation) :
    t ≤ (o.link interface t).table := by
  unfold Operation.link
  have hreturns := o.returns.le_link (.returns interface o.name) t
  simp only
  split
  · exact hreturns
  · exact hreturns.trans (linkAll_le (Parameter.le_link interface o.name) _ _)

theorem Interface.le_link (scope : ScopedName) (t : SymbolTable) (i : Interface) :
    t ≤ (i.link scope t).table := by
  unfold Interface.link
  split
  · exact le_refl t
  · exact linkAll_le (Operation.le_link _) t i.operations

/-- Linking a module only adds to the table. -/
theorem Module.le_link (t : SymbolTable) (m : Module) : t ≤ (m.link t).table := by
  unfold Module.link
  have hdefinitions := linkAll_le (Definition.le_link (.child .root m.name)) t m.definitions
  split
  · exact le_refl t
  · simp only
    split
    · exact hdefinitions
    · exact hdefinitions.trans (linkAll_le (Interface.le_link _) _ _)

end WireStub
