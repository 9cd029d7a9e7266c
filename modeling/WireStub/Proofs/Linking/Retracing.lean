import WireStub.Proofs.Linking.Naming

/-!
# Linking along a run

A module that links leaves a run behind.  Conversely, a run through the occurrences of a linked module
determines how every module links that differs from it in paths and bindings only: to this module,
from the table at the beginning of the run to the table at its end.

* `TypeExpr.exists_struct_of_unlinked` and its likes recover the form of a type from the type before
  linking;
* `TypeExpr.link_of_run` and so on up to `Module.link_of_run` lead from the run to linking.
-/

namespace WireStub

/-! ### Types before linking -/

namespace TypeExpr

variable {e n : TypeExpr}

theorem eq_primitive_of_unlinked {p : Primitive} (h : e.unlinked = (primitive p).unlinked) :
    e = .primitive p := by
  cases e <;> simp [unlinked, relabel] at h
  rw [h]

theorem eq_string_of_unlinked (h : e.unlinked = string.unlinked) : e = .string := by
  cases e <;> simp [unlinked, relabel] at h
  rfl

theorem exists_declared_of_unlinked {r : Reference} (h : e.unlinked = (declared r).unlinked) :
    ∃ q, e = .declared q ∧ q.name = r.name := by
  cases e <;> simp [unlinked, relabel, Reference.unlinked] at h
  exact ⟨_, rfl, h⟩

theorem exists_sequence_of_unlinked (h : e.unlinked = (sequence n).unlinked) :
    ∃ e', e = .sequence e' ∧ e'.unlinked = n.unlinked := by
  cases e <;> simp [unlinked, relabel] at h
  exact ⟨_, rfl, h⟩

theorem exists_struct_of_unlinked {d : StructDecl} (h : e.unlinked = (struct d).unlinked) :
    ∃ c, e = .struct c ∧ c.unlinked = d.unlinked := by
  cases e <;> simp [unlinked, relabel] at h
  exact ⟨_, rfl, h⟩

theorem exists_enum_of_unlinked {d : EnumDecl} (h : e.unlinked = (enum d).unlinked) :
    ∃ c, e = .enum c ∧ c.name = d.name ∧ c.enumerators = d.enumerators := by
  cases e <;> simp [unlinked, relabel, EnumDecl.relabel] at h
  exact ⟨_, rfl, h⟩

end TypeExpr

/-- Either types may be declared in place at a site, in its scope, or none is. -/
def Site.Admits (s : Site) (xs : List Occurrence) : Prop :=
  s.inlineScope = some s.scope ∨ ∀ scope d, .declares scope d ∉ xs

open Occurrence

/-! ### From the run to linking -/

variable {t u : SymbolTable}

theorem EnumDecl.link_of_run {scope : ScopedName} {d e : EnumDecl} (hname : e.name = d.name)
    (henumerators : e.enumerators = d.enumerators) (hnamed : Named [.declares scope (.enum d)])
    (h : Run t [.declares scope (.enum d)] u) : e.link scope t = ⟨d, u, .ok ()⟩ := by
  obtain ⟨name, path, enumerators⟩ := d
  have hblank : Text.isBlank name = false := hnamed.name
  obtain _ | ⟨hact, hnil⟩ := h
  cases hnil
  obtain ⟨hpath, hkind, hdeclare⟩ := hact
  cases hkind
  obtain rfl : path = scope.child name := hpath
  have hdeclare : t.declare? (scope.child name) .enum = some u := hdeclare
  simp [EnumDecl.link, hname, henumerators, hblank, hdeclare]

mutual

/-- A type links along the run through its linked form. -/
theorem TypeExpr.link_of_run {s : Site} {t u : SymbolTable} :
    ∀ {n e : TypeExpr}, e.unlinked = n.unlinked → s.Admits (n.occurrences s.scope) →
      Named (n.occurrences s.scope) → Run t (n.occurrences s.scope) u →
        ∃ k, n.kind? = some k ∧ e.link s t = ⟨n, u, .ok k⟩
  | .primitive p, e, he, _, _, h => by
    obtain rfl := TypeExpr.eq_primitive_of_unlinked he
    cases h
    exact ⟨_, rfl, rfl⟩
  | .string, e, he, _, _, h => by
    obtain rfl := TypeExpr.eq_string_of_unlinked he
    cases h
    exact ⟨_, rfl, rfl⟩
  | .declared r, e, he, _, _, h => by
    obtain ⟨q, rfl, hname⟩ := TypeExpr.exists_declared_of_unlinked he
    obtain _ | ⟨hact, hnil⟩ := h
    cases hnil
    obtain _ | ⟨hlookup, htarget, hkind⟩ := hact
    obtain ⟨name, target, kind⟩ := r
    cases htarget
    cases hkind
    obtain rfl : q.name = name := hname
    exact ⟨_, rfl, by simp [TypeExpr.link, Reference.link, hlookup, Linked.mapPart]⟩
  | .sequence n, e, he, hs, hnamed, h => by
    obtain ⟨e', rfl, he'⟩ := TypeExpr.exists_sequence_of_unlinked he
    obtain ⟨k, -, hlink⟩ := TypeExpr.link_of_run (s := s) (n := n) he' hs hnamed h
    exact ⟨_, rfl, by simp [TypeExpr.link, hlink, Linked.mapPart, Linked.mapOutcome, Except.map]⟩
  | .struct d, e, he, hs, hnamed, h => by
    obtain ⟨c, rfl, hc⟩ := TypeExpr.exists_struct_of_unlinked he
    have hscope : s.inlineScope = some s.scope := by
      refine hs.resolve_right fun hnone => ?_
      obtain ⟨name, path, ms⟩ := d
      exact hnone _ _ List.mem_cons_self
    have hlink := StructDecl.link_of_run hc hnamed h
    exact ⟨_, rfl, by
      simp [TypeExpr.link, hscope, hlink, Linked.mapPart, Linked.mapOutcome, Except.map]⟩
  | .enum d, e, he, hs, hnamed, h => by
    obtain ⟨c, rfl, hname, henumerators⟩ := TypeExpr.exists_enum_of_unlinked he
    have hscope : s.inlineScope = some s.scope :=
      hs.resolve_right fun hnone => hnone _ _ (List.mem_singleton_self _)
    have hlink := EnumDecl.link_of_run hname henumerators hnamed h
    exact ⟨_, rfl, by
      simp [TypeExpr.link, hscope, hlink, Linked.mapPart, Linked.mapOutcome, Except.map]⟩

theorem StructDecl.link_of_run {scope : ScopedName} {t u : SymbolTable} :
    ∀ {d c : StructDecl}, c.unlinked = d.unlinked → Named (d.occurrences scope) →
      Run t (d.occurrences scope) u → c.link scope t = ⟨d, u, .ok ()⟩
  | ⟨name, path, ms⟩, ⟨name', _, es⟩, hc, hnamed, h => by
    obtain ⟨hname, -, hes⟩ := StructDecl.mk.inj hc
    obtain rfl : name' = name := hname
    obtain ⟨hfirst, hrest⟩ := named_cons.1 hnamed
    have hblank : Text.isBlank name' = false := hfirst.name
    obtain _ | ⟨hact, hrun⟩ := h
    obtain ⟨hpath, hkind, hdeclare⟩ := hact
    cases hkind
    obtain rfl : path = scope.child name' := hpath
    have hmembers := Member.linkAll_of_run hes hrest hrun
    simp only [Definition.path] at hdeclare
    simp [StructDecl.link, hblank, hdeclare, hmembers, Linked.mapPart]

theorem Member.linkAll_of_run {path : ScopedName} {t u : SymbolTable} :
    ∀ {ms es : List Member},
      Member.relabelAll (fun _ => .root) (fun r => .unlinked r.name) es =
        Member.relabelAll (fun _ => .root) (fun r => .unlinked r.name) ms →
      Named (Member.occurrences path ms) → Run t (Member.occurrences path ms) u →
        Member.linkAll path t es = ⟨ms, u, .ok ()⟩
  | [], [], _, _, h => by
    cases h
    rfl
  | [], ⟨_, _, _⟩ :: _, he, _, _ | ⟨_, _, _⟩ :: _, [], he, _, _ => by cases he
  | ⟨name, n, dims⟩ :: ms, ⟨name', e, dims'⟩ :: es, he, hnamed, h => by
    obtain ⟨hm, hes⟩ := List.cons.inj he
    obtain ⟨hname, hn, hdims⟩ := Member.mk.inj hm
    obtain rfl : name' = name := hname
    obtain rfl : dims' = dims := hdims
    obtain ⟨hfirst, hrest⟩ := named_append.1 hnamed
    obtain ⟨v, hrun, hruns⟩ := run_append_iff.1 h
    obtain ⟨k, -, hlink⟩ := TypeExpr.link_of_run (s := .member path name') (n := n) hn (.inl rfl)
      hfirst hrun
    simp [Member.linkAll, hlink, Member.linkAll_of_run hes hrest hruns, Linked.mapPart]

end

theorem TypedefDecl.link_of_run {scope : ScopedName} {d e : TypedefDecl}
    (he : (Definition.typedef e).unlinked = (Definition.typedef d).unlinked)
    (hnamed : Named ((Definition.typedef d).occurrences scope))
    (h : Run t ((Definition.typedef d).occurrences scope) u) : e.link scope t = ⟨d, u, .ok ()⟩ := by
  obtain ⟨name, path, type, dims⟩ := d
  obtain ⟨hname, -, htype, hdims⟩ := TypedefDecl.mk.inj (Definition.typedef.inj he)
  simp only at hname hdims
  obtain ⟨hnamedType, hnamedSelf⟩ := named_append.1 hnamed
  have hblank : Text.isBlank name = false := hnamedSelf.name
  obtain ⟨v, hrun, hself⟩ := run_append_iff.1 h
  obtain ⟨k, hk, hlink⟩ :=
    TypeExpr.link_of_run (s := .typedef scope name) (n := type) htype (.inl rfl) hnamedType hrun
  obtain _ | ⟨hact, hnil⟩ := hself
  cases hnil
  obtain ⟨hpath, hkind, hdeclare⟩ := hact
  obtain rfl : path = scope.child name := hpath
  -- the typedef is declared with the kind that linking its type finds
  simp only [Definition.kind?, hk, Option.map_some, Option.some.injEq] at hkind
  have hover : e.kindOver k = TypedefDecl.kindOver ⟨name, scope.child name, type, dims⟩ k := by
    simp only [TypedefDecl.kindOver, hdims]
  simp only [← hkind, ← hover, Definition.path] at hdeclare
  simp [TypedefDecl.link, hname, hblank, hlink, hdims, TypedefDecl.kindOver] at hdeclare ⊢
  simp [hdeclare]

theorem Definition.link_of_run {scope : ScopedName} {d e : Definition} (he : e.unlinked = d.unlinked)
    (hnamed : Named (d.occurrences scope)) (h : Run t (d.occurrences scope) u) :
    e.link scope t = ⟨d, u, .ok ()⟩ := by
  cases d with
  | struct d =>
    cases e <;> simp [unlinked, relabel] at he
    exact congrArg (Linked.mapPart Definition.struct) (StructDecl.link_of_run he hnamed h)
  | enum d =>
    cases e <;> simp [unlinked, relabel, EnumDecl.relabel] at he
    exact congrArg (Linked.mapPart Definition.enum) (EnumDecl.link_of_run he.1 he.2 hnamed h)
  | typedef d =>
    cases e with
    | struct e | enum e => simp [unlinked, relabel] at he
    | typedef e =>
      exact congrArg (Linked.mapPart Definition.typedef) (TypedefDecl.link_of_run he hnamed h)

/-- The parts of a list link along the run through their linked forms. -/
theorem linkAll_of_run {α β : Type} {l : SymbolTable → α → Linked α β} {f : α → List Occurrence}
    {g : α → α} {p : α → Prop}
    (hlink : ∀ t u a b, g a = g b → p b → Run t (f b) u →
      ∃ c, l t a = ⟨b, u, .ok c⟩)
    {as bs : List α} (h : as.map g = bs.map g) (hp : ∀ b ∈ bs, p b)
    (hrun : Run t (bs.flatMap f) u) : linkAll l t as = ⟨bs, u, .ok ()⟩ := by
  induction bs generalizing t as with
  | nil =>
    obtain rfl := List.map_eq_nil_iff.1 h
    cases hrun
    rfl
  | cons b bs ih =>
    obtain ⟨a, as, rfl, hab, has⟩ := List.map_eq_cons_iff.1 h
    obtain ⟨v, hfirst, hrest⟩ := run_append_iff.1 hrun
    obtain ⟨c, hc⟩ := hlink t v a b hab (hp b List.mem_cons_self) hfirst
    simp [linkAll, hc, ih has (fun x hx => hp x (List.mem_cons_of_mem _ hx)) hrest, Linked.mapPart]

theorem Operation.link_of_run {interface : ScopedName} {o e : Operation}
    (he : e.unlinked = o.unlinked) (hnone : DeclareNothing (o.occurrences interface))
    (h : Run t (o.occurrences interface) u) : e.link interface t = ⟨o, u, .ok ()⟩ := by
  obtain ⟨name, returns, parameters, raises⟩ := o
  obtain ⟨hname, hreturns, hparameters, hraises⟩ := Operation.mk.inj he
  simp only at hname hparameters hraises
  obtain ⟨hnoneReturns, hnoneParameters⟩ := declareNothing_append.1 hnone
  obtain ⟨v, hrun, hruns⟩ := run_append_iff.1 h
  obtain ⟨k, -, hlink⟩ := TypeExpr.link_of_run (s := .returns interface name) (n := returns) hreturns
    (.inr hnoneReturns) hnoneReturns.named hrun
  have hlinks : linkAll (Parameter.link interface name) v e.parameters = ⟨parameters, u, .ok ()⟩ := by
    refine linkAll_of_run (p := fun p => DeclareNothing (p.type.occurrences interface)) ?_ hparameters
      (fun p hp s d hd => hnoneParameters s d (List.mem_flatMap.2 ⟨p, hp, hd⟩)) hruns
    intro t u a b hab hb hrun
    obtain ⟨bname, btype, bdirection⟩ := b
    obtain ⟨haname, hatype, hadirection⟩ := Parameter.mk.inj hab
    simp only at haname hadirection
    obtain ⟨k, -, hlink⟩ := TypeExpr.link_of_run (s := .parameter interface name bname) (n := btype)
      hatype (.inr hb) hb.named hrun
    exact ⟨k, by simp [Parameter.link, haname, hadirection, hlink, Linked.mapPart]⟩
  simp [Operation.link, hname, hlink, hlinks, hraises, Linked.mapPart]

theorem Interface.link_of_run {scope : ScopedName} {i e : Interface} (he : e.unlinked = i.unlinked)
    (hblank : Text.isBlank i.name = false) (hpath : i.path = scope.child i.name)
    (hnone : ∀ o ∈ i.operations, DeclareNothing (o.occurrences i.path)) (h : Run t i.occurrences u) :
    e.link scope t = ⟨i, u, .ok ()⟩ := by
  obtain ⟨name, path, operations⟩ := i
  obtain ⟨hname, -, hoperations⟩ := Interface.mk.inj he
  simp only at hname hoperations hpath hblank
  subst hpath
  have hlinks := linkAll_of_run (l := Operation.link (scope.child name))
    (p := fun o => DeclareNothing (o.occurrences (scope.child name)))
    (fun t u a b hab hb hrun => ⟨(), Operation.link_of_run hab hb hrun⟩) hoperations hnone h
  simp [Interface.link, hname, hblank, hlinks, Linked.mapPart]

/-- **A module links along the run through its linked form.** -/
theorem Module.link_of_run {m e : Module} (he : e.unlinked = m.unlinked) (hm : m.Nameable)
    (h : Run t m.occurrences u) : e.link t = ⟨m, u, .ok ()⟩ := by
  obtain ⟨name, definitions, interfaces⟩ := m
  obtain ⟨hname, hdefinitions, hinterfaces⟩ := Module.mk.inj he
  simp only at hname hdefinitions hinterfaces
  obtain ⟨v, hruns, hrunsInterfaces⟩ := run_append_iff.1 h
  have hlinks := linkAll_of_run (l := Definition.link (.child .root name))
    (p := fun d => Named (d.occurrences (.child .root name)))
    (fun t u a b hab hb hrun => ⟨(), Definition.link_of_run hab hb hrun⟩) hdefinitions
    hm.definitions hruns
  have hlinksInterfaces := linkAll_of_run (l := Interface.link (.child .root name))
    (p := fun i => (Text.isBlank i.name = false ∧ i.path = .child (.child .root name) i.name) ∧
      ∀ o ∈ i.operations, DeclareNothing (o.occurrences i.path))
    (fun t u a b hab hb hrun => ⟨(), Interface.link_of_run hab hb.1.1 hb.1.2 hb.2 hrun⟩) hinterfaces
    (fun i hi => ⟨hm.interfaces i hi, hm.operations i hi⟩)
    hrunsInterfaces
  have hnonempty : name.isEmpty = false := hm.name
  simp [Module.link, hname, hnonempty, hlinks, hlinksInterfaces, Linked.mapPart]

end WireStub
