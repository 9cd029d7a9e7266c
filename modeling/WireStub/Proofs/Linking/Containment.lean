import WireStub.Proofs.Linking.Declared
import WireStub.Proofs.Linking.Scoping
import WireStub.Proofs.Order

/-!
# Declarations by value

A declaration *holds* another one if its values have values of the other one in them: as a member or
as what a typedef stands for, and not behind a sequence.  In C the other one has to be declared
before.  Linking visits a struct before its members, so a member may also refer to the struct around
it, and this is the only way in which a declaration can hold one that does not come before it.

* `Definition.Holds` says that a declaration holds another one;
* `Occurrence.RefersBehind` says what is declared before a reference is visited, and
  `Module.refersBehind` that it is emitted before the declaration of the reference, or around it;
* `held_before_iff` is the main statement: what a declaration holds is emitted before it, unless it is
  the declaration itself or one around it.
-/

namespace WireStub

open Occurrence

/-- The types whose values are parts of the values of a declaration. -/
def Definition.parts : Definition → List TypeExpr
  | .struct d => d.members.map (·.type)
  | .enum _ => []
  | .typedef d => [d.type]

/-- Values of the first declaration have values of the second one in them. -/
def Definition.Holds (d e : Definition) : Prop := ∃ n ∈ d.parts, n.target? = some e.path

/-- Holding, among the declarations of a module. -/
def Module.Holds (m : Module) (d e : Definition) : Prop :=
  d ∈ m.declarations ∧ e ∈ m.declarations ∧ d.Holds e

/-- What a part declares is declared within the declaration. -/
theorem Definition.declarations_subset_inner {d : Definition} {n : TypeExpr} (hn : n ∈ d.parts) :
    n.declarations ⊆ d.inner := by
  intro e he
  cases d with
  | struct d =>
    obtain ⟨m, hm, rfl⟩ := List.mem_map.1 hn
    rw [inner, Member.declarations_eq_flatMap]
    exact List.mem_flatMap.2 ⟨m, hm, he⟩
  | enum d => cases hn
  | typedef d =>
    cases List.mem_singleton.1 hn
    exact he

/-- A split of two lists at an item is one of either. -/
theorem exists_split_of_append {α : Type} {xs ys before after : List α} {a : α}
    (h : xs ++ ys = before ++ a :: after) :
    (∃ mid, xs = before ++ a :: mid) ∨ ∃ mid, before = xs ++ mid ∧ ys = mid ++ a :: after := by
  rcases List.append_eq_append_iff.1 h with ⟨mid, hbefore, hys⟩ | ⟨mid, hxs, hmid⟩
  · exact .inr ⟨mid, hbefore, hys⟩
  · cases mid with
    | nil => exact .inr ⟨[], by simpa using hxs.symm, hmid.symm⟩
    | cons b mid =>
      obtain ⟨rfl, -⟩ := List.cons.inj hmid
      exact .inl ⟨mid, hxs⟩

/-- An item of a list with a last one is in front of that one, or it is the last one. -/
theorem exists_split_of_append_singleton {α : Type} {xs before after : List α} {a b : α}
    (h : xs ++ [b] = before ++ a :: after) :
    (∃ mid, xs = before ++ a :: mid) ∨ before = xs ∧ a = b := by
  rcases exists_split_of_append h with hmid | ⟨mid, rfl, hmid⟩
  · exact .inl hmid
  · cases mid with
    | nil => exact .inr ⟨List.append_nil xs, (List.cons.inj hmid).1.symm⟩
    | cons c mid => exact absurd (List.cons.inj hmid).2.symm (by simp)

/-! ### What is declared before a reference -/

namespace Occurrence

variable {known known' : List Definition} {d : Definition} {r : Reference} {xs ys : List Occurrence}

/-- The reference occurs, and what is declared at occurrences before it is among the known
declarations or has `d` within it. -/
def RefersBehind (known : List Definition) (d : Definition) (r : Reference)
    (xs : List Occurrence) : Prop :=
  ∃ front scope back, xs = front ++ .refers scope r :: back ∧
    ∀ s e, .declares s e ∈ front → e ∈ known ∨ d ∈ e.declarations

theorem RefersBehind.append (h : RefersBehind known d r xs) (ys : List Occurrence) :
    RefersBehind known d r (xs ++ ys) := by
  obtain ⟨front, scope, back, rfl, hfront⟩ := h
  exact ⟨front, scope, back ++ ys, by simp, hfront⟩

theorem RefersBehind.behind (h : RefersBehind known d r ys)
    (hxs : ∀ s e, .declares s e ∈ xs → e ∈ known ∨ d ∈ e.declarations) :
    RefersBehind known d r (xs ++ ys) := by
  obtain ⟨front, scope, back, rfl, hfront⟩ := h
  refine ⟨xs ++ front, scope, back, by simp, fun s e he => ?_⟩
  rcases List.mem_append.1 he with he | he
  · exact hxs s e he
  · exact hfront s e he

theorem RefersBehind.mono (h : RefersBehind known d r xs) (hknown : known ⊆ known') :
    RefersBehind known' d r xs := by
  obtain ⟨front, scope, back, hxs, hfront⟩ := h
  exact ⟨front, scope, back, hxs, fun s e he => (hfront s e he).imp_left (@hknown e)⟩

end Occurrence

variable {d : Definition} {r : Reference}

/-- The members before one that refers declare what stands before it. -/
theorem Member.refersBehind_of_type {scope : ScopedName} :
    ∀ {ms : List Member}, .declared r ∈ ms.map (·.type) →
      RefersBehind (Member.declarations ms) d r (Member.occurrences scope ms)
  | ⟨_, t, _⟩ :: ms, h => by
    rw [Member.declarations, Member.occurrences]
    rcases List.mem_cons.1 h with rfl | h
    · exact ⟨[], scope, _, rfl, fun _ _ he => absurd he List.not_mem_nil⟩
    · refine RefersBehind.behind ((Member.refersBehind_of_type h).mono (List.subset_append_right _ _))
        fun s e he => .inl ?_
      exact List.mem_append_left _ (TypeExpr.mem_declarations_of_occurs he)

mutual

/-- Before a reference by value, linking visits what is emitted before the declaration `d` that
refers, or around it. -/
theorem TypeExpr.refersBehind (hr : .declared r ∈ d.parts) {scope : ScopedName}
    {before after : List Definition} :
    ∀ {e : TypeExpr}, e.declarations = before ++ d :: after →
      RefersBehind before d r (e.occurrences scope)
  | .sequence e, h => TypeExpr.refersBehind hr (e := e) h
  | .struct e, h => StructDecl.refersBehind hr (e := e) h
  | .enum e, h => by
    have h : [] ++ [Definition.enum e] = before ++ d :: after := h
    rcases exists_split_of_append_singleton h with ⟨mid, hmid⟩ | ⟨-, rfl⟩
    · simp at hmid
    · cases hr
  | .primitive _, h | .declared _, h | .string, h => by simp [TypeExpr.declarations] at h

theorem StructDecl.refersBehind (hr : .declared r ∈ d.parts) {scope : ScopedName}
    {before after : List Definition} :
    ∀ {e : StructDecl}, e.declarations = before ++ d :: after →
      RefersBehind before d r (e.occurrences scope)
  | ⟨name, path, ms⟩, h => by
    rw [StructDecl.declarations] at h
    have hself : d ∈ (StructDecl.mk name path ms).declarations := by
      rw [StructDecl.declarations, h]
      exact List.mem_append_right _ List.mem_cons_self
    have hmembers : RefersBehind before d r (Member.occurrences path ms) := by
      rcases exists_split_of_append_singleton h with ⟨mid, hms⟩ | ⟨rfl, rfl⟩
      · exact Member.refersBehind hr hms
      · exact Member.refersBehind_of_type hr
    -- the struct is visited first, and `d` is within it or is the struct itself
    show RefersBehind before d r ([_] ++ Member.occurrences path ms)
    refine hmembers.behind fun s e he => .inr ?_
    cases List.mem_singleton.1 he
    exact hself

theorem Member.refersBehind (hr : .declared r ∈ d.parts) {scope : ScopedName}
    {before after : List Definition} :
    ∀ {ms : List Member}, Member.declarations ms = before ++ d :: after →
      RefersBehind before d r (Member.occurrences scope ms)
  | [], h => by simp [Member.declarations] at h
  | ⟨_, e, _⟩ :: ms, h => by
    rw [Member.declarations] at h
    rw [Member.occurrences]
    rcases exists_split_of_append h with ⟨mid, he⟩ | ⟨mid, rfl, hmid⟩
    · exact (TypeExpr.refersBehind hr he).append _
    · refine RefersBehind.behind ((Member.refersBehind hr hmid).mono (List.subset_append_right _ _))
        fun s c hc => .inl ?_
      exact List.mem_append_left _ (TypeExpr.mem_declarations_of_occurs hc)

end

theorem Definition.refersBehind (hr : .declared r ∈ d.parts) {scope : ScopedName}
    {before after : List Definition} {e : Definition} (h : e.declarations = before ++ d :: after) :
    RefersBehind before d r (e.occurrences scope) := by
  cases e with
  | struct e => exact StructDecl.refersBehind hr h
  | enum e => exact TypeExpr.refersBehind hr (e := .enum e) h
  | typedef e =>
    rcases exists_split_of_append_singleton h with ⟨mid, htype⟩ | ⟨rfl, rfl⟩
    · exact (TypeExpr.refersBehind hr htype).append _
    · -- the typedef itself refers
      obtain hr := List.mem_singleton.1 hr
      rw [occurrences, ← hr]
      exact ⟨[], scope, _, rfl, fun _ _ he => absurd he List.not_mem_nil⟩

theorem refersBehind_flatMap (hr : .declared r ∈ d.parts) {scope : ScopedName}
    {before after : List Definition} {ds : List Definition}
    (h : ds.flatMap (·.declarations) = before ++ d :: after) :
    RefersBehind before d r (ds.flatMap (·.occurrences scope)) := by
  induction ds generalizing before with
  | nil => simp at h
  | cons e ds ih =>
    rw [List.flatMap_cons] at h ⊢
    rcases exists_split_of_append h with ⟨mid, he⟩ | ⟨mid, rfl, hmid⟩
    · exact (Definition.refersBehind hr he).append _
    · refine RefersBehind.behind ((ih hmid).mono (List.subset_append_right _ _))
        fun s c hc => .inl ?_
      exact List.mem_append_left _ (Definition.mem_declarations_of_occurs hc)

/-- Before a reference by value, linking visits what is emitted before the declaration that refers, or
around it. -/
theorem Module.refersBehind {m : Module} (hr : .declared r ∈ d.parts) {before after : List Definition}
    (h : m.declarations = before ++ d :: after) : RefersBehind before d r m.occurrences :=
  (refersBehind_flatMap hr h).append _

/-! ### What is emitted before -/

section Modules

variable {ms linked : List Module} {t u : SymbolTable} {m : Module} {e : Definition}

theorem nodup_path_of_mem (h : linkAll Module.link t ms = ⟨linked, u, .ok ()⟩)
    (hm : m ∈ linked) : (m.declarations.map (·.path)).Nodup := by
  have hnodup := (List.nodup_append.1 (nodup_path_declarations h)).2.1
  have hsublist := List.sublist_flatten_of_mem (List.mem_map_of_mem (f := Module.declarations) hm)
  exact hnodup.sublist (hsublist.map _)

/-- What is declared within a declaration is emitted before it. -/
theorem mem_of_mem_inner (hnodup : m.declarations.Nodup) {before after : List Definition}
    (hsplit : m.declarations = before ++ d :: after) (he : e ∈ d.inner) : e ∈ before := by
  have hd : d ∈ m.declarations := hsplit ▸ List.mem_append_right _ List.mem_cons_self
  obtain ⟨front, back, hinfix⟩ := Module.declarations_infix hd
  rw [d.declarations_eq] at hinfix
  have heq : before ++ d :: after = (front ++ d.inner) ++ d :: back := by
    rw [← hsplit, ← hinfix]
    simp
  -- there is one place for `d`
  rw [hsplit, List.nodup_middle, List.nodup_cons, List.mem_append, not_or] at hnodup
  obtain ⟨hfront, -⟩ := (List.append_cons_inj_of_notMem hnodup.1.1 hnodup.1.2).1 heq
  exact hfront ▸ List.mem_append_right _ he

/-- What is emitted before a declaration is not around it. -/
theorem not_around_of_mem (hnodup : m.declarations.Nodup) {before after : List Definition}
    (hsplit : m.declarations = before ++ d :: after) (he : e ∈ before) : d ∉ e.declarations := by
  intro hd
  obtain ⟨front, back, rfl⟩ := List.append_of_mem he
  have hdisjoint : d ∉ front ∧ d ≠ e := by
    rw [hsplit, List.nodup_middle, List.nodup_cons] at hnodup
    simp only [List.mem_append, List.mem_cons, not_or] at hnodup
    exact ⟨hnodup.1.1.1, hnodup.1.1.2.1⟩
  have hsplit' : m.declarations = front ++ e :: (back ++ d :: after) := by simpa using hsplit
  rw [e.declarations_eq] at hd
  rcases List.mem_append.1 hd with hd | hd
  · exact hdisjoint.1 (mem_of_mem_inner hnodup hsplit' hd)
  · exact hdisjoint.2 (List.mem_singleton.1 hd)

/-- What a reference by value leads to, in its own module, is emitted before the declaration that
refers, or around it. -/
theorem mem_or_around_of_target (h : linkAll Module.link t ms = ⟨linked, u, .ok ()⟩)
    (hm : m ∈ linked) {before after : List Definition} (hsplit : m.declarations = before ++ d :: after)
    (hr : .declared r ∈ d.parts) (he : e ∈ m.declarations) (htarget : r.target = some e.path) :
    e ∈ before ∨ d ∈ e.declarations := by
  have hdeclared {n : Module} (hn : n ∈ linked) {s : ScopedName} {c : Definition}
      (hc : .declares s c ∈ n.occurrences) : c ∈ n.declarations := by
    have hperm := Module.perm_definitions (nameable_linkAll h n hn)
    exact hperm.mem_iff.1 (mem_filterMap_definition?.2 ⟨s, hc⟩)
  obtain ⟨front, scope, back, hoccurrences, hfront⟩ := Module.refersBehind hr hsplit
  have hnodup := nodup_path_declarations h
  have hrun := run_link_modules h
  obtain ⟨earlier, later, rfl⟩ := List.append_of_mem hm
  have hvisits : (earlier ++ m :: later).flatMap (·.occurrences) =
      (earlier.flatMap (·.occurrences) ++ front) ++
        .refers scope r :: (back ++ later.flatMap (·.occurrences)) := by
    simp [hoccurrences]
  rw [hvisits] at hrun
  obtain ⟨v, w, hbefore, hact, -⟩ := hrun.act_at
  obtain _ | ⟨hlookup, htarget', -⟩ := hact
  cases htarget.symm.trans htarget'
  have hfound := List.mem_map_of_mem (f := Prod.fst) (SymbolTable.mem_entries_of_lookup? hlookup)
  rw [hbefore.entries_eq, List.map_append, List.mem_append] at hfound
  have hemem : e.path ∈ ((earlier ++ m :: later).flatMap (·.declarations)).map (·.path) :=
    List.mem_map_of_mem (List.mem_flatMap.2 ⟨m, hm, he⟩)
  -- the path of `e` is new, so it has been found because it was declared before the reference
  have hnew : e.path ∉ t.names := fun hold => (List.nodup_append.1 hnodup).2.2 _ hold _ hemem rfl
  have hpath := hfound.resolve_left hnew
  rw [show (entries _).map Prod.fst = _ from hbefore.map_entries] at hpath
  obtain ⟨c, hc, hpath⟩ := List.mem_map.1 hpath
  obtain ⟨s, hs⟩ := mem_filterMap_definition?.1 hc
  rcases List.mem_append.1 hs with hs | hs
  · -- it was not in another module, since its path is that of `e`
    obtain ⟨n, hn, hs⟩ := List.mem_flatMap.1 hs
    have hcn := hdeclared (List.mem_append_left _ hn) hs
    have hnodup := (List.nodup_append.1 hnodup).2.1
    rw [List.flatMap_append, List.flatMap_cons, List.map_append, List.nodup_append] at hnodup
    exact absurd hpath (hnodup.2.2 _ (List.mem_map_of_mem (List.mem_flatMap.2 ⟨n, hn, hcn⟩)) _
      (List.mem_map_of_mem (List.mem_append_left _ he)))
  · have hcm : c ∈ m.declarations := by
      refine hdeclared hm (s := s) ?_
      rw [hoccurrences]
      exact List.mem_append_left _ hs
    have hmnodup := nodup_path_of_mem h hm
    obtain rfl : c = e := List.inj_on_of_nodup_map hmnodup hcm he hpath
    exact hfront s c hs

/-- What a declaration holds, in its own module, is emitted before it, unless the declaration is
within it. -/
theorem mem_or_around_of_holds (h : linkAll Module.link t ms = ⟨linked, u, .ok ()⟩)
    (hm : m ∈ linked) {before after : List Definition} (hsplit : m.declarations = before ++ d :: after)
    (he : e ∈ m.declarations) (hde : d.Holds e) : e ∈ before ∨ d ∈ e.declarations := by
  obtain ⟨n, hn, htarget⟩ := hde
  have hnodup := nodup_path_of_mem h hm
  have hinner {c : Definition} (hc : c ∈ d.inner) (hpath : c.path = e.path) : e ∈ before := by
    have hcm := mem_of_mem_inner hnodup.of_map hsplit hc
    have hmem : c ∈ m.declarations := hsplit ▸ List.mem_append_left _ hcm
    exact List.inj_on_of_nodup_map hnodup hmem he hpath ▸ hcm
  cases n with
  | declared r => exact mem_or_around_of_target h hm hsplit hn he htarget
  | struct s =>
    have hs := Definition.declarations_subset_inner hn (Definition.struct s).mem_declarations_self
    exact .inl (hinner hs (Option.some.inj htarget))
  | enum s =>
    have hs := Definition.declarations_subset_inner hn (Definition.enum s).mem_declarations_self
    exact .inl (hinner hs (Option.some.inj htarget))
  | primitive | string | sequence => cases htarget

end Modules

/-- **Declarations by value.**  In modules that link, what a declaration holds of its own module is
emitted before it if and only if the declaration is not within it, as a struct that refers to itself
or to a struct around it is.  If no declaration does, then no declaration holds itself, directly or
through others. -/
theorem held_before_iff {ms linked : List Module} {t u : SymbolTable}
    (h : linkAll Module.link t ms = ⟨linked, u, .ok ()⟩) :
    (∀ m ∈ linked, ∀ before d after, m.declarations = before ++ d :: after →
        ∀ e ∈ m.declarations, d.Holds e → (e ∈ before ↔ d ∉ e.declarations)) ∧
      ∀ m ∈ linked, (∀ d e, m.Holds d e → d ∉ e.declarations) →
        ∀ d, ¬Relation.TransGen m.Holds d d := by
  have hbefore : ∀ m ∈ linked, ∀ before d after, m.declarations = before ++ d :: after →
      ∀ e ∈ m.declarations, d.Holds e → (e ∈ before ↔ d ∉ e.declarations) := by
    intro m hm before d after hsplit e he hde
    have hnodup := (nodup_path_of_mem h hm).of_map
    exact ⟨not_around_of_mem hnodup hsplit,
      (mem_or_around_of_holds h hm hsplit he hde).resolve_right⟩
  refine ⟨hbefore, fun m hm haround => ?_⟩
  -- the place in the module falls along holding
  refine acyclic_of_rank (fun d => (m.declarations.map (·.path)).idxOf d.path) fun d e hde => ?_
  obtain ⟨before, after, hsplit⟩ := List.append_of_mem hde.1
  have he := (hbefore m hm before d after hsplit e hde.2.1 hde.2.2).2 (haround d e hde)
  have hnodup := nodup_path_of_mem h hm
  rw [hsplit, List.map_append, List.map_cons] at hnodup ⊢
  refine idxOf_lt_idxOf (List.mem_map_of_mem he) fun hd => ?_
  exact (List.nodup_append.1 hnodup).2.2 _ hd _ List.mem_cons_self rfl

/-- A struct of lists of itself, with another struct declared in it. -/
def branchModule : Module :=
  let leaf : StructDecl := ⟨"Leaf", .root, [⟨"level", .primitive .long, []⟩]⟩
  ⟨"Plant", [.struct ⟨"Branch", .root,
    [⟨"branches", .sequence (.declared (.unlinked "Branch")), []⟩,
      ⟨"leaves", .struct leaf, [2]⟩]⟩], []⟩

theorem held_before_iff_branch :
    ∃ linked u m leaf branch, linkAll Module.link .empty [branchModule] = ⟨linked, u, .ok ()⟩ ∧
      m ∈ linked ∧ m.declarations = [leaf, branch] ∧ m.Holds branch leaf ∧
      branch ∉ leaf.declarations ∧ ∀ d, ¬Relation.TransGen m.Holds d d := by
  have h : linkAll Module.link .empty [branchModule] = ⟨_, _, .ok ()⟩ := rfl
  obtain ⟨hbefore, hacyclic⟩ := held_before_iff h
  have hholds : Module.Holds (linkAll Module.link .empty [branchModule]).part[0] _ _ :=
    ⟨List.mem_cons_of_mem _ List.mem_cons_self, List.mem_cons_self,
      _, List.mem_cons_of_mem _ List.mem_cons_self, rfl⟩
  have hnot := (hbefore _ List.mem_cons_self [_] _ [] rfl _ hholds.2.1 hholds.2.2).1
    List.mem_cons_self
  refine ⟨_, _, _, _, _, h, List.mem_cons_self, rfl, hholds, hnot, ?_⟩
  -- of the two declarations only the outer one has a part with a target, the inner one
  refine hacyclic _ List.mem_cons_self fun d e ⟨hd, he, n, hn, htarget⟩ => ?_
  rcases List.mem_pair.1 hd with rfl | rfl <;> rcases List.mem_pair.1 he with rfl | rfl
  · rcases List.mem_singleton.1 hn with rfl
    cases htarget
  · rcases List.mem_singleton.1 hn with rfl
    cases htarget
  · exact hnot
  · rcases List.mem_pair.1 hn with rfl | rfl
    · cases htarget
    · exact absurd htarget (by decide)

/-- A struct that refers to itself. -/
def nodeModule : Module :=
  ⟨"Demo", [.struct ⟨"Node", .root, [⟨"next", .declared (.unlinked "Node"), []⟩]⟩], []⟩

/-- A struct may hold itself: it links, though nothing is declared before it. -/
theorem node_holds_itself :
    ∃ linked u m d, linkAll Module.link .empty [nodeModule] = ⟨linked, u, .ok ()⟩ ∧
      m ∈ linked ∧ m.declarations = [d] ∧ m.Holds d d := by
  refine ⟨_, _, _, _, rfl, List.mem_cons_self, rfl, List.mem_cons_self, List.mem_cons_self, ?_⟩
  exact ⟨_, List.mem_cons_self, rfl⟩

end WireStub
