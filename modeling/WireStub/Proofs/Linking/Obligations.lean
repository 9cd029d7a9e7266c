import WireStub.Proofs.Linking.Scoping

/-!
# What a module has to keep to link

Linking checks a module piece by piece, and each check is an *obligation* of the module: a name is
given, a name is new, a reference has a meaning.  An obligation that declares a name is met once; from
then on the name is known.

* `Module.obligations` lists the obligations in the order in which linking comes to them: the name of a
  struct before its members, the name of a typedef before its type and its declaration behind it, and
  interfaces behind all definitions;
* `Obligation.Met` says what it takes to meet an obligation while some names are known, and
  `Obligation.fault` how linking reports that it is not met;
* `AllMet` and `FirstUnmet` speak about lists of obligations;
* `Module.Linkable` is what the obligations of a module amount to, and `Module.allMet_iff` the
  equivalence.
-/

namespace WireStub

/-- A written reference means one of the known names, read in the innermost scope that gives one, or
from the root. -/
def Resolves (known : List ScopedName) (scope : ScopedName) (written : String) : Prop :=
  (ScopedName.parse written).isRoot = false ∧ ∃ target ∈ known,
    (ScopedName.isAbsolute written = true → target = .parse written) ∧
    (ScopedName.isAbsolute written = false → Innermost known scope (.parse written) target)

/-- What linking checks at a place. -/
inductive Obligation where
  /-- The module has this name. -/
  | moduleNamed (name : String)
  /-- A declaration or an interface in the scope has this name. -/
  | named (scope : ScopedName) (name : String)
  /-- The path is declared. -/
  | declares (path : ScopedName)
  /-- A type is declared in place where none may be. -/
  | inPlace (name : String) (context : ScopedName)
  /-- A reference is looked up from the scope. -/
  | refers (scope : ScopedName) (written : String) (context : ScopedName)

namespace Obligation

/-- An obligation is met while some names are known. -/
def Met (known : List ScopedName) : Obligation → Prop
  | .moduleNamed name => name ≠ ""
  | .named _ name => Text.isBlank name = false
  | .declares path => path ∉ known
  | .inPlace _ _ => False
  | .refers scope written _ => Resolves known scope written

/-- The fault that reports an obligation that is not met. -/
def fault : Obligation → LinkError
  | .moduleNamed _ => .unnamedModule
  | .named scope _ => .emptyName scope
  | .declares path => .duplicateDeclaration path
  | .inPlace name context => .inlineNotAllowed name context
  | .refers _ written context => .unknownType written context

/-- The name that is known once the obligation is met. -/
def declared? : Obligation → Option ScopedName
  | .declares path => some path
  | .moduleNamed _ | .named _ _ | .inPlace _ _ | .refers _ _ _ => none

end Obligation

/-- The names that obligations declare. -/
def declaredNames (os : List Obligation) : List ScopedName := os.filterMap (·.declared?)

/-! ### The obligations of a module -/

/-- The obligations of an enum in a scope. -/
def EnumDecl.obligations (scope : ScopedName) (d : EnumDecl) : List Obligation :=
  [.named scope d.name, .declares (scope.child d.name)]

mutual

/-- The obligations of a type. -/
def TypeExpr.obligations (s : Site) : TypeExpr → List Obligation
  | .declared r => [.refers s.scope r.name s.context]
  | .sequence e => e.obligations s
  | .struct d =>
    match s.inlineScope with
    | some scope => d.obligations scope
    | none => [.inPlace d.name s.context]
  | .enum d =>
    match s.inlineScope with
    | some scope => d.obligations scope
    | none => [.inPlace d.name s.context]
  | .primitive _ | .string => []

/-- The obligations of a struct in a scope: its own, then those of its members. -/
def StructDecl.obligations (scope : ScopedName) : StructDecl → List Obligation
  | ⟨name, _, ms⟩ =>
    .named scope name :: .declares (scope.child name) :: Member.obligations (scope.child name) ms

/-- The obligations of the members of the struct with this path. -/
def Member.obligations (path : ScopedName) : List Member → List Obligation
  | [] => []
  | ⟨name, t, _⟩ :: ms => t.obligations (.member path name) ++ Member.obligations path ms

end

/-- The obligations of a definition in a scope. -/
def Definition.obligations (scope : ScopedName) : Definition → List Obligation
  | .struct d => d.obligations scope
  | .enum d => d.obligations scope
  | .typedef d =>
    .named scope d.name ::
      (d.type.obligations (.typedef scope d.name) ++ [.declares (scope.child d.name)])

/-- The obligations of an operation of an interface: of its return type, then of its parameters. -/
def Operation.obligations (interface : ScopedName) (o : Operation) : List Obligation :=
  o.returns.obligations (.returns interface o.name) ++
    o.parameters.flatMap fun p => p.type.obligations (.parameter interface o.name p.name)

/-- The obligations of an interface in a scope. -/
def Interface.obligations (scope : ScopedName) (i : Interface) : List Obligation :=
  .named scope i.name :: i.operations.flatMap (·.obligations (scope.child i.name))

/-- The obligations of a module, in the order in which linking comes to them. -/
def Module.obligations (m : Module) : List Obligation :=
  .moduleNamed m.name ::
    (m.definitions.flatMap (·.obligations (.child .root m.name)) ++
      m.interfaces.flatMap (·.obligations (.child .root m.name)))

/-! ### Lists of obligations -/

/-- All obligations are met, one after the other, where some names are known at the beginning. -/
def AllMet (known : List ScopedName) (os : List Obligation) : Prop :=
  ∀ before o after, os = before ++ o :: after → o.Met (known ++ declaredNames before)

/-- `o` is the first obligation of a list that is not met. -/
def FirstUnmet (known : List ScopedName) (os : List Obligation) (o : Obligation) : Prop :=
  ∃ before after, os = before ++ o :: after ∧ AllMet known before ∧
    ¬o.Met (known ++ declaredNames before)

section Lists

variable {known : List ScopedName} {xs ys : List Obligation} {o o' : Obligation}

theorem declaredNames_append : declaredNames (xs ++ ys) = declaredNames xs ++ declaredNames ys :=
  List.filterMap_append

theorem allMet_nil : AllMet known [] := by
  intro before o after h
  simp at h

theorem allMet_append :
    AllMet known (xs ++ ys) ↔ AllMet known xs ∧ AllMet (known ++ declaredNames xs) ys := by
  constructor
  · refine fun h => ⟨fun before o after hxs => h before o (after ++ ys) (by simp [hxs]),
      fun before o after hys => ?_⟩
    have hmet := h (xs ++ before) o after (by simp [hys])
    rwa [declaredNames_append, ← List.append_assoc] at hmet
  · rintro ⟨hxs, hys⟩ before o after h
    rcases List.append_eq_append_iff.1 h with ⟨mid, rfl, hmid⟩ | ⟨mid, rfl, hmid⟩
    · have hmet := hys mid o after hmid
      rwa [List.append_assoc, ← declaredNames_append] at hmet
    · cases mid with
      | nil =>
        have hmet := hys [] o after hmid.symm
        simpa [declaredNames] using hmet
      | cons p mid =>
        obtain ⟨rfl, -⟩ := List.cons.inj hmid
        exact hxs before o mid rfl

theorem allMet_cons :
    AllMet known (o :: xs) ↔ o.Met known ∧ AllMet (known ++ declaredNames [o]) xs := by
  have hsingle : AllMet known [o] ↔ o.Met known := by
    constructor
    · intro h
      simpa [declaredNames] using h [] o [] rfl
    · intro h before p after hp
      obtain ⟨rfl, rfl, rfl⟩ : before = [] ∧ o = p ∧ after = [] := by
        cases before <;> simp_all
      simpa [declaredNames] using h
  rw [← hsingle, ← allMet_append, List.singleton_append]

theorem AllMet.met (h : AllMet known xs) (ho : o ∈ xs) : ∃ known', o.Met known' := by
  obtain ⟨before, after, rfl⟩ := List.append_of_mem ho
  exact ⟨_, h before o after rfl⟩

theorem AllMet.not_firstUnmet (h : AllMet known xs) : ¬FirstUnmet known xs o := by
  rintro ⟨before, after, rfl, -, hunmet⟩
  exact hunmet (h before o after rfl)

/-- There is one first obligation that is not met. -/
theorem FirstUnmet.eq (h : FirstUnmet known xs o) (h' : FirstUnmet known xs o') : o = o' := by
  -- of two beginnings, the longer one would hold an obligation that is not met
  have hfirst {before mid after after' : List Obligation} {p q : Obligation}
      (hunmet : ¬p.Met (known ++ declaredNames before)) (hmet : AllMet known (before ++ mid))
      (heq : p :: after = mid ++ q :: after') : p = q := by
    cases mid with
    | nil => exact (List.cons.inj heq).1
    | cons r mid =>
      obtain ⟨rfl, -⟩ := List.cons.inj heq
      exact absurd (hmet before p mid rfl) hunmet
  obtain ⟨before, after, rfl, hbefore, hunmet⟩ := h
  obtain ⟨before', after', heq, hbefore', hunmet'⟩ := h'
  rcases List.append_eq_append_iff.1 heq with ⟨mid, rfl, hmid⟩ | ⟨mid, rfl, hmid⟩
  · exact hfirst hunmet hbefore' hmid
  · exact (hfirst hunmet' hbefore hmid).symm

end Lists

/-! ### Names and types declared in place -/

/-- The obligation is none of those that a declaration never has, and the name that it asks for is that
of one of the declarations. -/
def Obligation.Concerns (ds : List Definition) : Obligation → Prop
  | .named _ name => ∃ d ∈ ds, d.name = name
  | .declares _ | .refers _ _ _ => True
  | .moduleNamed _ | .inPlace _ _ => False

theorem Obligation.Concerns.mono {ds ds' : List Definition} {o : Obligation} (h : o.Concerns ds)
    (hds : ds ⊆ ds') : o.Concerns ds' := by
  cases o with
  | named scope name =>
    obtain ⟨d, hd, hname⟩ := h
    exact ⟨d, hds hd, hname⟩
  | declares | refers => trivial
  | moduleNamed | inPlace => exact h

theorem EnumDecl.concerns (scope : ScopedName) (d : EnumDecl) :
    ∀ o ∈ d.obligations scope, o.Concerns [.enum d] := by
  intro o ho
  rcases List.mem_pair.1 ho with rfl | rfl
  · exact ⟨_, List.mem_cons_self, rfl⟩
  · trivial

mutual

/-- Where types may be declared in place, names are asked for declarations only. -/
theorem TypeExpr.concerns {s : Site} (hs : s.inlineScope ≠ none) :
    ∀ e : TypeExpr, ∀ o ∈ e.obligations s, o.Concerns e.declarations
  | .primitive _, _, ho | .string, _, ho => nomatch ho
  | .declared r, o, ho => by
    obtain rfl := List.mem_singleton.1 ho
    trivial
  | .sequence e, o, ho => TypeExpr.concerns hs e o ho
  | .struct d, o, ho => by
    obtain ⟨scope, hscope⟩ := Option.ne_none_iff_exists'.1 hs
    simp only [TypeExpr.obligations, hscope] at ho
    exact StructDecl.concerns scope d o ho
  | .enum d, o, ho => by
    obtain ⟨scope, hscope⟩ := Option.ne_none_iff_exists'.1 hs
    simp only [TypeExpr.obligations, hscope] at ho
    exact d.concerns scope o ho

theorem StructDecl.concerns (scope : ScopedName) :
    ∀ d : StructDecl, ∀ o ∈ d.obligations scope, o.Concerns d.declarations
  | ⟨name, path, ms⟩, o, ho => by
    rw [StructDecl.declarations]
    rcases List.mem_cons.1 ho with rfl | ho
    · exact ⟨_, List.mem_append_right _ List.mem_cons_self, rfl⟩
    · rcases List.mem_cons.1 ho with rfl | ho
      · trivial
      · exact (Member.concerns _ ms o ho).mono (List.subset_append_left _ _)

theorem Member.concerns (path : ScopedName) :
    ∀ ms : List Member, ∀ o ∈ Member.obligations path ms, o.Concerns (Member.declarations ms)
  | [], _, ho => nomatch ho
  | ⟨name, e, dims⟩ :: ms, o, ho => by
    rw [Member.declarations]
    rcases List.mem_append.1 ho with ho | ho
    · exact (TypeExpr.concerns (Option.some_ne_none path) e o ho).mono (List.subset_append_left _ _)
    · exact (Member.concerns path ms o ho).mono (List.subset_append_right _ _)

end

theorem Definition.concerns (scope : ScopedName) (d : Definition) :
    ∀ o ∈ d.obligations scope, o.Concerns d.declarations := by
  intro o ho
  cases d with
  | struct d => exact d.concerns scope o ho
  | enum d => exact d.concerns scope o ho
  | typedef d =>
    rw [declarations]
    rcases List.mem_cons.1 ho with rfl | ho
    · exact ⟨_, List.mem_append_right _ List.mem_cons_self, rfl⟩
    rcases List.mem_append.1 ho with ho | ho
    · exact (TypeExpr.concerns (Option.some_ne_none scope) d.type o ho).mono
        (List.subset_append_left _ _)
    · obtain rfl := List.mem_singleton.1 ho
      trivial

mutual

/-- Every declaration is asked for its name. -/
theorem TypeExpr.exists_named {s : Site} (hs : s.inlineScope ≠ none) {d : Definition} :
    ∀ {e : TypeExpr}, d ∈ e.declarations → ∃ scope, .named scope d.name ∈ e.obligations s
  | .sequence e, h => TypeExpr.exists_named hs (e := e) h
  | .struct e, h => by
    obtain ⟨scope, hscope⟩ := Option.ne_none_iff_exists'.1 hs
    simp only [TypeExpr.obligations, hscope]
    exact StructDecl.exists_named scope h
  | .enum e, h => by
    obtain ⟨scope, hscope⟩ := Option.ne_none_iff_exists'.1 hs
    simp only [TypeExpr.obligations, hscope]
    obtain rfl := List.mem_singleton.1 h
    exact ⟨scope, List.mem_cons_self⟩
  | .primitive _, h | .declared _, h | .string, h => nomatch h

theorem StructDecl.exists_named (scope : ScopedName) {d : Definition} :
    ∀ {e : StructDecl}, d ∈ e.declarations → ∃ scope', .named scope' d.name ∈ e.obligations scope
  | ⟨name, path, ms⟩, h => by
    rcases List.mem_append.1 h with h | h
    · obtain ⟨scope', hnamed⟩ := Member.exists_named (scope.child name) h
      exact ⟨scope', List.mem_cons_of_mem _ (List.mem_cons_of_mem _ hnamed)⟩
    · obtain rfl := List.mem_singleton.1 h
      exact ⟨scope, List.mem_cons_self⟩

theorem Member.exists_named (path : ScopedName) {d : Definition} :
    ∀ {ms : List Member}, d ∈ Member.declarations ms →
      ∃ scope, .named scope d.name ∈ Member.obligations path ms
  | [], h => nomatch h
  | ⟨name, e, dims⟩ :: ms, h => by
    rcases List.mem_append.1 h with h | h
    · obtain ⟨scope, hnamed⟩ := TypeExpr.exists_named (s := .member path name)
        (Option.some_ne_none path) h
      exact ⟨scope, List.mem_append_left _ hnamed⟩
    · obtain ⟨scope, hnamed⟩ := Member.exists_named path h
      exact ⟨scope, List.mem_append_right _ hnamed⟩

end

theorem Definition.exists_named (scope : ScopedName) {d e : Definition} (h : d ∈ e.declarations) :
    ∃ scope', .named scope' d.name ∈ e.obligations scope := by
  cases e with
  | struct e => exact StructDecl.exists_named scope h
  | enum e =>
    obtain rfl := List.mem_singleton.1 h
    exact ⟨scope, List.mem_cons_self⟩
  | typedef e =>
    rcases List.mem_append.1 h with h | h
    · obtain ⟨scope', hnamed⟩ := TypeExpr.exists_named (s := .typedef scope e.name)
        (Option.some_ne_none scope) h
      exact ⟨scope', List.mem_cons_of_mem _ (List.mem_append_left _ hnamed)⟩
    · obtain rfl := List.mem_singleton.1 h
      exact ⟨scope, List.mem_cons_self⟩

/-- The obligation is a reference, or it refuses a type that is declared in place among the nodes. -/
def Obligation.Refuses (nodes : List TypeExpr) : Obligation → Prop
  | .refers _ _ _ => True
  | .inPlace _ _ => ∃ n ∈ nodes, ∃ d, n.Declares d
  | .moduleNamed _ | .named _ _ | .declares _ => False

theorem Obligation.Refuses.mono {nodes nodes' : List TypeExpr} {o : Obligation} (h : o.Refuses nodes)
    (hnodes : nodes ⊆ nodes') : o.Refuses nodes' := by
  cases o with
  | inPlace name context =>
    obtain ⟨n, hn, hd⟩ := h
    exact ⟨n, hnodes hn, hd⟩
  | moduleNamed | named | declares | refers => exact h

/-- Where no type may be declared in place, references are looked up and such types are refused. -/
theorem TypeExpr.refuses {s : Site} (hs : s.inlineScope = none) :
    ∀ e : TypeExpr, ∀ o ∈ e.obligations s, o.Refuses e.nodes
  | .primitive _, _, ho | .string, _, ho => nomatch ho
  | .declared r, o, ho => by
    obtain rfl := List.mem_singleton.1 ho
    trivial
  | .sequence e, o, ho => (TypeExpr.refuses hs e o ho).mono (List.subset_cons_self _ _)
  | .struct d, o, ho => by
    simp only [TypeExpr.obligations, hs] at ho
    obtain rfl := List.mem_singleton.1 ho
    exact ⟨_, List.mem_cons_self, _, .struct d⟩
  | .enum d, o, ho => by
    simp only [TypeExpr.obligations, hs] at ho
    obtain rfl := List.mem_singleton.1 ho
    exact ⟨_, List.mem_cons_self, _, .enum d⟩

theorem TypeExpr.exists_inPlace {s : Site} (hs : s.inlineScope = none) {n e : TypeExpr}
    {d : Definition} (hd : n.Declares d) (hn : n ∈ e.nodes) :
    ∃ name, .inPlace name s.context ∈ e.obligations s := by
  cases e with
  | sequence e =>
    rcases List.mem_cons.1 hn with rfl | hn
    · cases hd
    · exact TypeExpr.exists_inPlace hs hd (e := e) hn
  | struct e | enum e =>
    simp only [TypeExpr.obligations, hs]
    exact ⟨_, List.mem_cons_self⟩
  | primitive p | declared r | string =>
    obtain rfl := List.mem_singleton.1 hn
    cases hd

theorem Operation.refuses (interface : ScopedName) (op : Operation) :
    ∀ o ∈ op.obligations interface, o.Refuses op.nodes := by
  intro o ho
  rcases List.mem_append.1 ho with ho | ho
  · exact (TypeExpr.refuses rfl op.returns o ho).mono (List.subset_append_left _ _)
  · obtain ⟨p, hp, ho⟩ := List.mem_flatMap.1 ho
    refine (TypeExpr.refuses rfl p.type o ho).mono fun n hn => ?_
    exact List.mem_append_right _ (List.mem_flatMap.2 ⟨p, hp, hn⟩)

theorem Operation.exists_inPlace (interface : ScopedName) {o : Operation} {n : TypeExpr}
    (hn : n ∈ o.nodes) {d : Definition} (hd : n.Declares d) :
    ∃ name context, .inPlace name context ∈ o.obligations interface := by
  rcases List.mem_append.1 hn with hn | hn
  · obtain ⟨name, hname⟩ := TypeExpr.exists_inPlace (s := .returns interface o.name) rfl hd hn
    exact ⟨name, _, List.mem_append_left _ hname⟩
  · obtain ⟨p, hp, hn⟩ := List.mem_flatMap.1 hn
    obtain ⟨name, hname⟩ := TypeExpr.exists_inPlace (s := .parameter interface o.name p.name) rfl hd hn
    exact ⟨name, _, List.mem_append_right _ (List.mem_flatMap.2 ⟨p, hp, hname⟩)⟩

/-! ### Modules that link -/

/-- What the obligations of a module amount to, where some names are known at the beginning. -/
structure Module.Linkable (known : List ScopedName) (m : Module) : Prop where
  name : m.name ≠ ""
  /-- All declarations have names, those in place too. -/
  declarations : ∀ d ∈ m.declarations, Text.isBlank d.name = false
  interfaces : ∀ i ∈ m.interfaces, Text.isBlank i.name = false
  operations : m.OperationsDeclareNothing
  /-- No declared path is known at the beginning or declared earlier in the module. -/
  fresh : ∀ before path after, m.obligations = before ++ .declares path :: after →
    path ∉ known ++ declaredNames before
  /-- All references have a meaning among the names that are known when linking comes to them. -/
  bound : ∀ before scope written context after,
    m.obligations = before ++ .refers scope written context :: after →
      Resolves (known ++ declaredNames before) scope written

/-- Where the obligations of a module come from. -/
theorem Module.mem_obligations {m : Module} {o : Obligation} (h : o ∈ m.obligations) :
    o = .moduleNamed m.name ∨ (∃ d ∈ m.definitions, o.Concerns d.declarations) ∨
      ∃ i ∈ m.interfaces,
        o = .named (.child .root m.name) i.name ∨ ∃ op ∈ i.operations, o.Refuses op.nodes := by
  rcases List.mem_cons.1 h with heq | h
  · exact .inl heq
  rcases List.mem_append.1 h with h | h
  · obtain ⟨d, hd, ho⟩ := List.mem_flatMap.1 h
    exact .inr (.inl ⟨d, hd, d.concerns _ o ho⟩)
  · obtain ⟨i, hi, ho⟩ := List.mem_flatMap.1 h
    refine .inr (.inr ⟨i, hi, ?_⟩)
    rcases List.mem_cons.1 ho with heq | ho
    · exact .inl heq
    · obtain ⟨op, hop, ho⟩ := List.mem_flatMap.1 ho
      exact .inr ⟨op, hop, op.refuses _ o ho⟩

/-- Obligations that are met make a module linkable. -/
theorem Module.linkable_of_allMet {known : List ScopedName} {m : Module}
    (h : AllMet known m.obligations) : m.Linkable known := by
  have hdefinition {o : Obligation} {d : Definition} (hd : d ∈ m.definitions)
      (ho : o ∈ d.obligations (.child .root m.name)) : ∃ known', o.Met known' :=
    h.met (List.mem_cons_of_mem _ (List.mem_append_left _ (List.mem_flatMap.2 ⟨d, hd, ho⟩)))
  have hinterface {o : Obligation} {i : Interface} (hi : i ∈ m.interfaces)
      (ho : o ∈ i.obligations (.child .root m.name)) : ∃ known', o.Met known' :=
    h.met (List.mem_cons_of_mem _ (List.mem_append_right _ (List.mem_flatMap.2 ⟨i, hi, ho⟩)))
  refine ⟨?_, fun d hd => ?_, fun i hi => ?_, fun i hi op hop n hn d hd => ?_,
    fun before path after => h before _ after, fun before _ _ _ after => h before _ after⟩
  · obtain ⟨_, hmet⟩ := h.met List.mem_cons_self
    exact hmet
  · obtain ⟨e, he, hd⟩ := List.mem_flatMap.1 hd
    obtain ⟨scope, hnamed⟩ := Definition.exists_named (.child .root m.name) hd
    obtain ⟨_, hmet⟩ := hdefinition he hnamed
    exact hmet
  · obtain ⟨_, hmet⟩ := hinterface hi List.mem_cons_self
    exact hmet
  · obtain ⟨_, _, hinPlace⟩ := Operation.exists_inPlace (.child (.child .root m.name) i.name) hn hd
    obtain ⟨_, hmet⟩ := hinterface hi
      (List.mem_cons_of_mem _ (List.mem_flatMap.2 ⟨op, hop, hinPlace⟩))
    exact hmet

/-- All obligations of a module are met exactly if the module is linkable. -/
theorem Module.allMet_iff {known : List ScopedName} {m : Module} :
    AllMet known m.obligations ↔ m.Linkable known := by
  refine ⟨linkable_of_allMet, fun h before o after hsplit => ?_⟩
  have hmem : o ∈ m.obligations := hsplit ▸ List.mem_append_right before List.mem_cons_self
  have horigin := mem_obligations hmem
  cases o with
  | moduleNamed name =>
    rcases horigin with heq | ⟨d, -, hconcerns⟩ | ⟨i, -, heq | ⟨op, -, hrefuses⟩⟩
    · cases heq
      exact h.name
    · exact hconcerns.elim
    · cases heq
    · exact hrefuses.elim
  | named scope name =>
    rcases horigin with heq | ⟨d, hd, e, he, rfl⟩ | ⟨i, hi, heq | ⟨op, -, hrefuses⟩⟩
    · cases heq
    · exact h.declarations e (List.mem_flatMap.2 ⟨d, hd, he⟩)
    · cases heq
      exact h.interfaces i hi
    · exact hrefuses.elim
  | declares path => exact h.fresh before path after hsplit
  | inPlace name context =>
    rcases horigin with heq | ⟨d, -, hconcerns⟩ | ⟨i, hi, heq | ⟨op, hop, n, hn, d, hd⟩⟩
    · cases heq
    · exact hconcerns.elim
    · cases heq
    · exact h.operations i hi op hop n hn d hd
  | refers scope written context => exact h.bound before scope written context after hsplit

end WireStub
