import WireStub.Proofs.Linking.Naming

/-!
# Linking with other names in references

A linked module can be linked again with other names in its references.  If each name is found where
the target of its reference is declared, linking succeeds again and differs in references only: the
same names are declared in the same order, and every declaration gets the path that it had.

* `Reference.Findable` is the condition on the other name of a reference;
* `Linked.Alike` is what the two results have in common, and `linkAll_alike` is for lists of parts;
* `Module.alike_link` is the conclusion, with one lemma per part.
-/

namespace WireStub

/-- The other name of a reference is found from every scope, if the target is declared. -/
def Reference.Findable (ref : Reference → Reference) (r : Reference) : Prop :=
  ∀ target, r.target = some target → ∀ (t : SymbolTable) (scope : ScopedName), target ∈ t.names →
    ∃ found, t.lookup? (ref r).name scope = some found

/-- A reference of which nothing is known. -/
def Reference.erased (_ : Reference) : Reference := .unlinked ""

/-- The second result is a success, declares the same names as the first one, and its part is the same
up to `erase`. -/
structure Linked.Alike {α β : Type} (erase : α → α) (l l' : Linked α β) : Prop where
  succeeds : ∃ b, l'.outcome = .ok b
  names : l'.table.names = l.table.names
  part : erase l'.part = erase l.part

theorem SymbolTable.exists_declare?_of_names {t t' u : SymbolTable} (ht : t'.names = t.names)
    {n : ScopedName} {k : Kind} (h : t.declare? n k = some u) (k' : Kind) :
    ∃ u', t'.declare? n k' = some u' ∧ u'.names = u.names := by
  obtain ⟨u', hu'⟩ : ∃ u', t'.declare? n k' = some u' := by
    refine Option.ne_none_iff_exists'.1 fun hnone => ?_
    exact not_mem_names_of_declare? h (ht ▸ (declare?_eq_none_iff t' n k').1 hnone)
  exact ⟨u', hu', by rw [names_declare? hu', names_declare? h, ht]⟩

/-- Parts that link one by one as other parts do, link as a list as these do. -/
theorem linkAll_alike {α β : Type} {l : SymbolTable → α → Linked α β} {change erase : α → α}
    {p : α → Prop}
    (hlink : ∀ t t' a b, t'.names = t.names → (l t a).outcome = .ok b → p (l t a).part →
      (l t a).Alike erase (l t' (change (l t a).part)))
    {t t' : SymbolTable} (ht : t'.names = t.names) {as : List α}
    (h : (linkAll l t as).outcome = .ok ()) (hp : ∀ a ∈ (linkAll l t as).part, p a) :
    (linkAll l t as).Alike (List.map erase) (linkAll l t' ((linkAll l t as).part.map change)) := by
  induction as generalizing t t' with
  | nil => exact ⟨⟨(), rfl⟩, ht, rfl⟩
  | cons a as ih =>
    obtain ⟨b, hb, has, heq⟩ := linkAll_cons_eq_ok h
    rw [heq] at hp ⊢
    have hfirst := hlink t t' a b ht hb (hp _ List.mem_cons_self)
    have hrest := ih hfirst.names has fun c hc => hp c (List.mem_cons_of_mem _ hc)
    obtain ⟨b', hb'⟩ := hfirst.succeeds
    simp only [Linked.mapPart, List.map_cons, linkAll, hb']
    exact ⟨hrest.succeeds, hrest.names, congrArg₂ List.cons hfirst.part hrest.part⟩

section Parts

variable (path : ScopedName → ScopedName) (ref : Reference → Reference)

theorem EnumDecl.alike_link {scope : ScopedName} {t t' : SymbolTable} (ht : t'.names = t.names)
    {d : EnumDecl} (h : (d.link scope t).outcome = .ok ()) :
    (d.link scope t).Alike (relabel id) (((d.link scope t).part.relabel path).link scope t') := by
  have hblank := EnumDecl.isBlank_of_link h
  obtain ⟨u, hdeclare, hlink⟩ := EnumDecl.link_eq_ok h
  obtain ⟨u', hu', hnames⟩ := SymbolTable.exists_declare?_of_names ht hdeclare .enum
  rw [hlink]
  simp only [relabel, EnumDecl.link, hblank, hu', Bool.false_eq_true, if_false]
  exact ⟨⟨(), rfl⟩, hnames, rfl⟩

mutual

/-- A linked type with other names in its references links again. -/
theorem TypeExpr.alike_link {s : Site} {t t' : SymbolTable} (ht : t'.names = t.names) :
    ∀ {e : TypeExpr} {k : Kind}, (e.link s t).outcome = .ok k →
      (∀ r ∈ (e.link s t).part.references, r.Findable ref) →
        (e.link s t).Alike (TypeExpr.relabel id .erased)
          (((e.link s t).part.relabel path ref).link s t')
  | .primitive _, _, _, _ | .string, _, _, _ => ⟨⟨_, rfl⟩, ht, rfl⟩
  | .declared r, k, h, hr => by
    obtain ⟨target, hlookup, hlink⟩ := Reference.link_eq_ok (r := r) h
    have htarget : target ∈ t'.names :=
      ht ▸ List.mem_map_of_mem (SymbolTable.mem_entries_of_lookup? hlookup)
    simp only [TypeExpr.link, hlink, Linked.mapPart, TypeExpr.relabel] at hr ⊢
    obtain ⟨found, hfound⟩ := hr _ (List.mem_singleton_self _) target rfl t' s.scope htarget
    simp only [Reference.link, hfound]
    refine ⟨⟨_, rfl⟩, ht, ?_⟩
    simp only [TypeExpr.relabel, Reference.erased]
  | .sequence e, k, h, hr => by
    obtain ⟨k', hk', hlink⟩ := TypeExpr.link_sequence_eq_ok h
    rw [hlink] at hr ⊢
    obtain ⟨⟨b, hb⟩, hnames, hpart⟩ := TypeExpr.alike_link ht hk' hr
    simp only [TypeExpr.relabel, TypeExpr.link, Linked.mapPart, Linked.mapOutcome, hb]
    refine ⟨⟨_, rfl⟩, hnames, ?_⟩
    simp only [TypeExpr.relabel, hpart]
  | .struct d, k, h, hr => by
    obtain ⟨scope, hscope, hd, hlink⟩ := TypeExpr.link_struct_eq_ok h
    rw [hlink] at hr ⊢
    obtain ⟨⟨b, hb⟩, hnames, hpart⟩ := StructDecl.alike_link ht hd hr
    simp only [TypeExpr.relabel, TypeExpr.link, hscope, Linked.mapPart, Linked.mapOutcome, hb]
    refine ⟨⟨_, rfl⟩, hnames, ?_⟩
    simp only [TypeExpr.relabel, hpart]
  | .enum d, k, h, _ => by
    obtain ⟨scope, hscope, hd, hlink⟩ := TypeExpr.link_enum_eq_ok h
    rw [hlink]
    obtain ⟨⟨b, hb⟩, hnames, hpart⟩ := EnumDecl.alike_link path ht hd
    simp only [TypeExpr.relabel, TypeExpr.link, hscope, Linked.mapPart, Linked.mapOutcome, hb]
    refine ⟨⟨_, rfl⟩, hnames, ?_⟩
    simp only [TypeExpr.relabel, hpart]

theorem StructDecl.alike_link {scope : ScopedName} {t t' : SymbolTable} (ht : t'.names = t.names) :
    ∀ {d : StructDecl}, (d.link scope t).outcome = .ok () →
      (∀ r ∈ (d.link scope t).part.references, r.Findable ref) →
        (d.link scope t).Alike (StructDecl.relabel id .erased)
          (((d.link scope t).part.relabel path ref).link scope t')
  | ⟨name, p, ms⟩, h, hr => by
    have hblank : Text.isBlank name = false := StructDecl.isBlank_of_link h
    obtain ⟨u, hdeclare, hms, hlink⟩ := StructDecl.link_eq_ok h
    obtain ⟨u', hu', hnames⟩ := SymbolTable.exists_declare?_of_names ht hdeclare .struct
    rw [hlink] at hr ⊢
    have hmembers := Member.alike_linkAll hnames hms hr
    simp only [Linked.mapPart, StructDecl.relabel, StructDecl.link, hblank, hu', Bool.false_eq_true,
      if_false]
    refine ⟨hmembers.succeeds, hmembers.names, ?_⟩
    simp only [StructDecl.relabel, hmembers.part, id]

theorem Member.alike_linkAll {scope : ScopedName} {t t' : SymbolTable} (ht : t'.names = t.names) :
    ∀ {ms : List Member}, (Member.linkAll scope t ms).outcome = .ok () →
      (∀ r ∈ Member.references (Member.linkAll scope t ms).part, r.Findable ref) →
        (Member.linkAll scope t ms).Alike (Member.relabelAll id .erased)
          (Member.linkAll scope t' (Member.relabelAll path ref (Member.linkAll scope t ms).part))
  | [], _, _ => ⟨⟨(), rfl⟩, ht, rfl⟩
  | ⟨name, type, dims⟩ :: ms, h, hr => by
    obtain ⟨k, hk, hms, hlink⟩ := Member.linkAll_cons_eq_ok h
    rw [hlink] at hr ⊢
    obtain ⟨htype, hrest⟩ := List.forall_mem_append.1 hr
    obtain ⟨⟨b, hb⟩, hnames, hpart⟩ := TypeExpr.alike_link ht hk htype
    have hmembers := Member.alike_linkAll hnames hms hrest
    simp only [Linked.mapPart, Member.relabelAll, Member.linkAll, hb]
    refine ⟨hmembers.succeeds, hmembers.names, ?_⟩
    simp only [Member.relabelAll, hpart, hmembers.part]

end

theorem TypedefDecl.alike_link {scope : ScopedName} {t t' : SymbolTable} (ht : t'.names = t.names)
    {d : TypedefDecl} (h : (d.link scope t).outcome = .ok ())
    (hr : ∀ r ∈ (d.link scope t).part.type.references, r.Findable ref) :
    (d.link scope t).Alike (relabel id .erased)
      (((d.link scope t).part.relabel path ref).link scope t') := by
  have hblank := TypedefDecl.isBlank_of_link h
  obtain ⟨k, u, hk, hdeclare, hlink⟩ := TypedefDecl.link_eq_ok h
  rw [hlink] at hr ⊢
  have htype := TypeExpr.alike_link path ref ht hk hr
  obtain ⟨k', hk'⟩ := htype.succeeds
  -- the kind may be another one, but the name is as new as it was
  obtain ⟨u', hu', hnames⟩ :=
    SymbolTable.exists_declare?_of_names htype.names hdeclare (d.kindOver k')
  have hover (path : ScopedName) (type : TypeExpr) :
      kindOver ⟨d.name, path, type, d.dims⟩ k' = d.kindOver k' := rfl
  simp only [relabel, TypedefDecl.link, hover, hblank, hk', hu', Bool.false_eq_true, if_false]
  refine ⟨⟨(), rfl⟩, hnames, ?_⟩
  simp only [relabel, htype.part]

theorem Definition.alike_link {scope : ScopedName} {t t' : SymbolTable} (ht : t'.names = t.names)
    {d : Definition} (h : (d.link scope t).outcome = .ok ())
    (hr : ∀ r ∈ (d.link scope t).part.references, r.Findable ref) :
    (d.link scope t).Alike (relabel id .erased)
      (((d.link scope t).part.relabel path ref).link scope t') := by
  cases d with
  | struct d =>
    obtain ⟨hsucceeds, hnames, hpart⟩ := StructDecl.alike_link path ref ht h hr
    simp only [Definition.link, Linked.mapPart, relabel]
    refine ⟨hsucceeds, hnames, ?_⟩
    simp only [relabel, hpart]
  | enum d =>
    obtain ⟨hsucceeds, hnames, hpart⟩ := EnumDecl.alike_link path ht h
    simp only [Definition.link, Linked.mapPart, relabel]
    refine ⟨hsucceeds, hnames, ?_⟩
    simp only [relabel, hpart]
  | typedef d =>
    obtain ⟨hsucceeds, hnames, hpart⟩ := TypedefDecl.alike_link path ref ht h hr
    simp only [Definition.link, Linked.mapPart, relabel]
    refine ⟨hsucceeds, hnames, ?_⟩
    simp only [relabel, hpart]

theorem Parameter.alike_link {interface : ScopedName} {operation : String} {t t' : SymbolTable}
    (ht : t'.names = t.names) {p : Parameter} {k : Kind}
    (h : (p.link interface operation t).outcome = .ok k)
    (hr : ∀ r ∈ (p.link interface operation t).part.type.references, r.Findable ref) :
    (p.link interface operation t).Alike (relabel id .erased)
      (((p.link interface operation t).part.relabel path ref).link interface operation t') := by
  obtain ⟨hsucceeds, hnames, hpart⟩ := TypeExpr.alike_link path ref ht h hr
  simp only [Parameter.link, Linked.mapPart, relabel]
  refine ⟨hsucceeds, hnames, ?_⟩
  simp only [relabel, hpart]

theorem Operation.alike_link {interface : ScopedName} {t t' : SymbolTable} (ht : t'.names = t.names)
    {o : Operation} (h : (o.link interface t).outcome = .ok ())
    (hr : ∀ r ∈ (o.link interface t).part.references, r.Findable ref) :
    (o.link interface t).Alike (relabel id .erased)
      (((o.link interface t).part.relabel path ref).link interface t') := by
  obtain ⟨k, hk, hparameters, hlink⟩ := Operation.link_eq_ok h
  rw [hlink] at hr ⊢
  obtain ⟨hreturns, hrest⟩ := List.forall_mem_append.1 hr
  have hfirst := TypeExpr.alike_link path ref ht hk hreturns
  obtain ⟨b, hb⟩ := hfirst.succeeds
  have hlinks := linkAll_alike (p := fun p : Parameter => ∀ r ∈ p.type.references, r.Findable ref)
    (fun _ _ _ _ ht h hr => Parameter.alike_link path ref ht h hr) hfirst.names hparameters
    fun p hp r hr => hrest r (List.mem_flatMap.2 ⟨p, hp, hr⟩)
  simp only [Linked.mapPart, relabel, Operation.link, hb]
  refine ⟨hlinks.succeeds, hlinks.names, ?_⟩
  simp only [relabel, hfirst.part, hlinks.part]

theorem Interface.alike_link {scope : ScopedName} {t t' : SymbolTable} (ht : t'.names = t.names)
    {i : Interface} (h : (i.link scope t).outcome = .ok ())
    (hr : ∀ r ∈ (i.link scope t).part.operations.flatMap (·.references), r.Findable ref) :
    (i.link scope t).Alike (relabel id .erased)
      (((i.link scope t).part.relabel path ref).link scope t') := by
  have hblank := Interface.isBlank_of_link h
  obtain ⟨hoperations, hlink⟩ := Interface.link_eq_ok h
  rw [hlink] at hr ⊢
  have hlinks := linkAll_alike (p := fun o : Operation => ∀ r ∈ o.references, r.Findable ref)
    (fun _ _ _ _ ht h hr => Operation.alike_link path ref ht h hr) ht hoperations
    fun o ho r hr' => hr r (List.mem_flatMap.2 ⟨o, ho, hr'⟩)
  simp only [Linked.mapPart, relabel, Interface.link, hblank, Bool.false_eq_true, if_false]
  refine ⟨hlinks.succeeds, hlinks.names, ?_⟩
  simp only [relabel, hlinks.part, id]

/-- A linked module with other names in its references links again. -/
theorem Module.alike_link {t t' : SymbolTable} (ht : t'.names = t.names) {m : Module}
    (h : (m.link t).outcome = .ok ()) (hr : ∀ r ∈ (m.link t).part.references, r.Findable ref) :
    (m.link t).Alike (relabel id .erased) (((m.link t).part.relabel path ref).link t') := by
  have hname := Module.isEmpty_name_of_link h
  obtain ⟨hds, his, hlink⟩ := Module.link_eq_ok h
  rw [hlink] at hr ⊢
  obtain ⟨hdefinitions, hinterfaces⟩ := List.forall_mem_append.1 hr
  have hfirst := linkAll_alike (p := fun d : Definition => ∀ r ∈ d.references, r.Findable ref)
    (fun _ _ _ _ ht h hr => Definition.alike_link path ref ht h hr) ht hds
    fun d hd r hr => hdefinitions r (List.mem_flatMap.2 ⟨d, hd, hr⟩)
  obtain ⟨b, hb⟩ := hfirst.succeeds
  have hrest := linkAll_alike (l := Interface.link (.child .root m.name))
    (p := fun i : Interface => ∀ r ∈ i.operations.flatMap (·.references), r.Findable ref)
    (fun _ _ _ _ ht h hr => Interface.alike_link path ref ht h hr) hfirst.names his
    fun i hi r hr => hinterfaces r (List.mem_flatMap.2 ⟨i, hi, hr⟩)
  simp only [Linked.mapPart, relabel, Module.link, hname, hb, Bool.false_eq_true, if_false]
  refine ⟨hrest.succeeds, hrest.names, ?_⟩
  simp only [relabel, hfirst.part, hrest.part]

end Parts

end WireStub
