import WireStub.Proofs.Linking.InPlace

/-!
# The order in which linking visits a module

Linking walks through a module once and comes to declarations and references.  These are the
*occurrences* of the module, and linking acts at each of them: it adds a declaration to the symbol
table, or looks a reference up there.

* `Module.occurrences` lists the occurrences in the order in which they are visited: a struct before
  its members, a typedef behind its type, and interfaces behind all definitions;
* `Occurrence.Act t x u` says that linking acts at `x` with the table `t` and leaves the table `u`,
  and `Occurrence.Run` is a path of such acts;
* `Module.run_link` is the run of a module, from one lemma per part, and `run_linkAll` that of a list
  of parts;
* `Occurrence.Run.act_at` stops a run at one occurrence: the table holds what was declared before.
-/

namespace WireStub

/-- A place in a module at which linking acts. -/
inductive Occurrence where
  /-- A declaration within a scope. -/
  | declares (scope : ScopedName) (d : Definition)
  /-- A reference, with the scope from which it is looked up. -/
  | refers (scope : ScopedName) (r : Reference)

mutual

/-- The occurrences within a type that stands in a scope. -/
def TypeExpr.occurrences (scope : ScopedName) : TypeExpr → List Occurrence
  | .declared r => [.refers scope r]
  | .sequence e => e.occurrences scope
  | .struct d => d.occurrences scope
  | .enum d => [.declares scope (.enum d)]
  | .primitive _ | .string => []

/-- A struct that is declared within a scope, then its members, which stand in its own scope. -/
def StructDecl.occurrences (scope : ScopedName) : StructDecl → List Occurrence
  | ⟨name, path, ms⟩ => .declares scope (.struct ⟨name, path, ms⟩) :: Member.occurrences path ms

/-- The occurrences within members that stand in a scope. -/
def Member.occurrences (scope : ScopedName) : List Member → List Occurrence
  | [] => []
  | ⟨_, t, _⟩ :: ms => t.occurrences scope ++ Member.occurrences scope ms

end

/-- The occurrences of a definition within a scope.  A typedef stands behind its type. -/
def Definition.occurrences (scope : ScopedName) : Definition → List Occurrence
  | .struct d => d.occurrences scope
  | .enum d => [.declares scope (.enum d)]
  | .typedef d => d.type.occurrences scope ++ [.declares scope (.typedef d)]

/-- The occurrences of an operation of an interface: its return type, then its parameters. -/
def Operation.occurrences (interface : ScopedName) (o : Operation) : List Occurrence :=
  o.returns.occurrences interface ++ o.parameters.flatMap (·.type.occurrences interface)

/-- The occurrences of an interface. -/
def Interface.occurrences (i : Interface) : List Occurrence :=
  i.operations.flatMap (·.occurrences i.path)

/-- The occurrences of a module, in the order in which linking visits them. -/
def Module.occurrences (m : Module) : List Occurrence :=
  m.definitions.flatMap (·.occurrences (.child .root m.name)) ++ m.interfaces.flatMap (·.occurrences)

namespace Occurrence

/-- The reference that occurs. -/
def reference? : Occurrence → Option Reference
  | .declares _ _ => none
  | .refers _ r => some r

/-- The name that is declared, with its kind. -/
def entry? : Occurrence → Option (ScopedName × Kind)
  | .declares _ d => d.kind?.map (d.path, ·)
  | .refers _ _ => none

/-- The names that are declared at occurrences, with their kinds. -/
def entries (xs : List Occurrence) : List (ScopedName × Kind) := xs.filterMap entry?

/-- What linking does at an occurrence, between the tables before and behind it.  A declaration gets
the name of its scope and its own, and that name has to be new; a reference gets what the lookup
finds. -/
inductive Act : SymbolTable → Occurrence → SymbolTable → Prop
  | declares {t u : SymbolTable} {scope : ScopedName} {d : Definition} {k : Kind} :
      d.path = scope.child d.name → d.kind? = some k → t.declare? d.path k = some u →
        Act t (.declares scope d) u
  | refers {t : SymbolTable} {scope target : ScopedName} {r : Reference} {k : Kind} :
      t.lookup? r.name scope = some (target, k) → r.target = some target → r.kind = some k →
        Act t (.refers scope r) t

/-- Acting at occurrences one after the other. -/
inductive Run : SymbolTable → List Occurrence → SymbolTable → Prop
  | nil (t : SymbolTable) : Run t [] t
  | cons {t u v : SymbolTable} {x : Occurrence} {xs : List Occurrence} :
      Act t x u → Run u xs v → Run t (x :: xs) v

variable {t u v : SymbolTable} {xs ys : List Occurrence}

theorem Run.single {x : Occurrence} (h : Act t x u) : Run t [x] u := .cons h (.nil u)

theorem run_append_iff : Run t (xs ++ ys) v ↔ ∃ u, Run t xs u ∧ Run u ys v := by
  constructor
  · intro h
    induction xs generalizing t with
    | nil => exact ⟨t, .nil t, h⟩
    | cons x xs ih =>
      obtain _ | ⟨hx, hxs⟩ := h
      obtain ⟨u, hu, hys⟩ := ih hxs
      exact ⟨u, .cons hx hu, hys⟩
  · rintro ⟨u, hxs, hys⟩
    induction hxs with
    | nil => exact hys
    | cons hx _ ih => exact .cons hx (ih hys)

theorem Run.append (hxs : Run t xs u) (hys : Run u ys v) : Run t (xs ++ ys) v :=
  run_append_iff.2 ⟨u, hxs, hys⟩

/-- An act adds what it declares. -/
theorem Act.entries_eq {x : Occurrence} (h : Act t x u) : u.entries = t.entries ++ entries [x] := by
  cases h with
  | declares _ hkind hdeclare => simp [SymbolTable.entries_of_declare? hdeclare, entries, entry?, hkind]
  | refers => simp [entries, entry?]

/-- A run adds what its occurrences declare, in their order. -/
theorem Run.entries_eq (h : Run t xs u) : u.entries = t.entries ++ entries xs := by
  induction h with
  | nil => simp [entries]
  | @cons t u v x xs hx _ ih =>
    have hentries : entries (x :: xs) = entries [x] ++ entries xs :=
      List.filterMap_append (l := [x])
    rw [ih, hx.entries_eq, hentries, List.append_assoc]

theorem Run.le (h : Run t xs u) : t ≤ u := by
  change t.entries <+: u.entries
  rw [h.entries_eq]
  exact List.prefix_append _ _

/-- A run stopped at an occurrence. -/
theorem Run.act_at {x : Occurrence} (h : Run t (xs ++ x :: ys) v) :
    ∃ u w, Run t xs u ∧ Act u x w ∧ Run w ys v := by
  obtain ⟨u, hxs, hrest⟩ := run_append_iff.1 h
  obtain _ | ⟨hx, hys⟩ := hrest
  exact ⟨u, _, hxs, hx, hys⟩

/-- The part of a run at some of its occurrences. -/
theorem Run.of_infix (h : Run t ys v) (hxs : xs <:+: ys) : ∃ t' v', Run t' xs v' ∧ v' ≤ v := by
  obtain ⟨before, after, rfl⟩ := hxs
  obtain ⟨v', hfront, hafter⟩ := run_append_iff.1 h
  obtain ⟨t', -, hrun⟩ := run_append_iff.1 hfront
  exact ⟨t', v', hrun, hafter.le⟩

/-- A reference that occurs is bound from then on. -/
theorem Run.boundIn {scope : ScopedName} {r : Reference} (h : Run t xs u)
    (hr : .refers scope r ∈ xs) : (TypeExpr.declared r).BoundIn u := by
  obtain ⟨before, after, rfl⟩ := List.append_of_mem hr
  obtain ⟨v, w, -, hact, hafter⟩ := h.act_at
  obtain _ | ⟨hlookup, htarget, hkind⟩ := hact
  exact ⟨_, _, htarget, hkind,
    SymbolTable.mem_entries_of_le hafter.le (SymbolTable.mem_entries_of_lookup? hlookup)⟩

end Occurrence

open Occurrence

/-! ### What occurs in a module -/

mutual

theorem TypeExpr.filterMap_reference?_occurrences (scope : ScopedName) :
    ∀ t : TypeExpr, (t.occurrences scope).filterMap reference? = t.references
  | .sequence e => TypeExpr.filterMap_reference?_occurrences scope e
  | .struct d => StructDecl.filterMap_reference?_occurrences scope d
  | .primitive _ | .declared _ | .string | .enum _ => rfl

theorem StructDecl.filterMap_reference?_occurrences (scope : ScopedName) :
    ∀ d : StructDecl, (d.occurrences scope).filterMap reference? = d.references
  | ⟨_, path, ms⟩ => Member.filterMap_reference?_occurrences path ms

theorem Member.filterMap_reference?_occurrences (scope : ScopedName) :
    ∀ ms : List Member, (Member.occurrences scope ms).filterMap reference? = Member.references ms
  | [] => rfl
  | ⟨_, t, _⟩ :: ms => by
    rw [Member.occurrences, Member.references, List.filterMap_append,
      TypeExpr.filterMap_reference?_occurrences scope t,
      Member.filterMap_reference?_occurrences scope ms]

end

theorem Definition.filterMap_reference?_occurrences (scope : ScopedName) (d : Definition) :
    (d.occurrences scope).filterMap reference? = d.references := by
  cases d with
  | struct d => exact d.filterMap_reference?_occurrences scope
  | enum d => rfl
  | typedef d =>
    have htype := d.type.filterMap_reference?_occurrences scope
    simp [occurrences, references, htype, reference?]

theorem Operation.filterMap_reference?_occurrences (interface : ScopedName) (o : Operation) :
    (o.occurrences interface).filterMap reference? = o.references := by
  simp only [occurrences, references, List.filterMap_append, List.filterMap_flatMap,
    TypeExpr.filterMap_reference?_occurrences]

/-- The references of a module are those that occur, in the same order. -/
theorem Module.filterMap_reference?_occurrences (m : Module) :
    m.occurrences.filterMap reference? = m.references := by
  simp only [occurrences, references, Interface.occurrences, List.filterMap_append,
    List.filterMap_flatMap, Definition.filterMap_reference?_occurrences,
    Operation.filterMap_reference?_occurrences]

mutual

theorem TypeExpr.mem_declarations_of_occurs {scope s : ScopedName} {d : Definition} :
    ∀ {t : TypeExpr}, .declares s d ∈ t.occurrences scope → d ∈ t.declarations
  | .sequence e, h => TypeExpr.mem_declarations_of_occurs (t := e) h
  | .struct e, h => StructDecl.mem_declarations_of_occurs (e := e) h
  | .enum e, h => by
    rw [TypeExpr.occurrences, List.mem_singleton] at h
    cases h
    exact List.mem_singleton_self _
  | .declared r, h => by simp [TypeExpr.occurrences] at h
  | .primitive _, h | .string, h => by cases h

theorem StructDecl.mem_declarations_of_occurs {scope s : ScopedName} {d : Definition} :
    ∀ {e : StructDecl}, .declares s d ∈ e.occurrences scope → d ∈ e.declarations
  | ⟨name, path, ms⟩, h => by
    rw [StructDecl.declarations, List.mem_append, List.mem_singleton]
    rcases List.mem_cons.1 h with h | h
    · cases h
      exact .inr rfl
    · exact .inl (Member.mem_declarations_of_occurs h)

theorem Member.mem_declarations_of_occurs {scope s : ScopedName} {d : Definition} :
    ∀ {ms : List Member}, .declares s d ∈ Member.occurrences scope ms → d ∈ Member.declarations ms
  | [], h => by cases h
  | ⟨_, t, _⟩ :: ms, h => by
    rw [Member.declarations, List.mem_append]
    rcases List.mem_append.1 h with h | h
    · exact .inl (TypeExpr.mem_declarations_of_occurs h)
    · exact .inr (Member.mem_declarations_of_occurs h)

end

theorem Definition.mem_declarations_of_occurs {scope s : ScopedName} {d e : Definition}
    (h : .declares s d ∈ e.occurrences scope) : d ∈ e.declarations := by
  cases e with
  | struct e => exact StructDecl.mem_declarations_of_occurs h
  | enum e => exact TypeExpr.mem_declarations_of_occurs (t := .enum e) h
  | typedef e =>
    rw [declarations, List.mem_append, List.mem_singleton]
    rcases List.mem_append.1 h with h | h
    · exact .inl (TypeExpr.mem_declarations_of_occurs h)
    · cases List.mem_singleton.1 h
      exact .inr rfl

/-- Without types declared in place, no declaration occurs in an operation. -/
theorem Operation.DeclaresNothing.not_declares {o : Operation} (ho : o.DeclaresNothing)
    {interface s : ScopedName} {d : Definition} : .declares s d ∉ o.occurrences interface := by
  have htype (t : TypeExpr) (ht : ∀ n ∈ t.nodes, ∀ d, ¬n.Declares d) :
      .declares s d ∉ t.occurrences interface := by
    intro h
    obtain ⟨n, hn, hd⟩ := TypeExpr.mem_declarations (TypeExpr.mem_declarations_of_occurs h)
    exact ht n hn d hd
  intro h
  rcases List.mem_append.1 h with h | h
  · exact htype o.returns (fun n hn => ho n (List.mem_append_left _ hn)) h
  · obtain ⟨p, hp, h⟩ := List.mem_flatMap.1 h
    exact htype p.type
      (fun n hn => ho n (List.mem_append_right _ (List.mem_flatMap.2 ⟨p, hp, hn⟩))) h

/-- The declarations that occur in a module are its declarations. -/
theorem Module.mem_declarations_of_occurs {m : Module} (hm : m.OperationsDeclareNothing)
    {s : ScopedName} {d : Definition} (h : .declares s d ∈ m.occurrences) : d ∈ m.declarations := by
  rcases List.mem_append.1 h with h | h
  · obtain ⟨e, he, h⟩ := List.mem_flatMap.1 h
    exact List.mem_flatMap.2 ⟨e, he, Definition.mem_declarations_of_occurs h⟩
  · obtain ⟨i, hi, h⟩ := List.mem_flatMap.1 h
    obtain ⟨o, ho, h⟩ := List.mem_flatMap.1 h
    exact absurd h (hm i hi o ho).not_declares

/-! ### Runs of the parts of a module -/

variable {t : SymbolTable}

theorem EnumDecl.run_link {scope : ScopedName} {d : EnumDecl} {b : Unit}
    (h : (d.link scope t).outcome = .ok b) :
    Run t [.declares scope (.enum (d.link scope t).part)] (d.link scope t).table := by
  obtain ⟨u, hdeclare, hlink⟩ := EnumDecl.link_eq_ok h
  rw [hlink]
  exact .single (.declares rfl rfl hdeclare)

mutual

/-- The run of a type.  A type that is declared in place belongs to the scope from which references
are looked up. -/
theorem TypeExpr.run_link {s : Site} (hs : ∀ scope ∈ s.inlineScope, scope = s.scope)
    (t : SymbolTable) :
    ∀ (e : TypeExpr) (k : Kind), (e.link s t).outcome = .ok k →
      Run t ((e.link s t).part.occurrences s.scope) (e.link s t).table
  | .primitive _, _, _ | .string, _, _ => .nil t
  | .declared r, k, h => by
    obtain ⟨target, hlookup, hlink⟩ := Reference.link_eq_ok (s := s) (r := r) h
    rw [TypeExpr.link, hlink]
    exact .single (.refers hlookup rfl rfl)
  | .sequence e, k, h => by
    obtain ⟨k', hk', hlink⟩ := TypeExpr.link_sequence_eq_ok h
    rw [hlink]
    exact TypeExpr.run_link hs t e k' hk'
  | .struct d, k, h => by
    obtain ⟨scope, hscope, hd, hlink⟩ := TypeExpr.link_struct_eq_ok h
    rw [hlink, ← hs scope hscope]
    exact StructDecl.run_link scope t d () hd
  | .enum d, k, h => by
    obtain ⟨scope, hscope, hd, hlink⟩ := TypeExpr.link_enum_eq_ok h
    rw [hlink, ← hs scope hscope]
    exact EnumDecl.run_link hd

theorem StructDecl.run_link (scope : ScopedName) (t : SymbolTable) :
    ∀ (d : StructDecl) (b : Unit), (d.link scope t).outcome = .ok b →
      Run t ((d.link scope t).part.occurrences scope) (d.link scope t).table
  | ⟨name, path, members⟩, b, h => by
    obtain ⟨u, hdeclare, hmembers, hlink⟩ := StructDecl.link_eq_ok h
    rw [hlink]
    exact .cons (.declares rfl rfl hdeclare) (Member.run_linkAll _ u members hmembers)

theorem Member.run_linkAll (path : ScopedName) (t : SymbolTable) :
    ∀ ms : List Member, (Member.linkAll path t ms).outcome = .ok () →
      Run t (Member.occurrences path (Member.linkAll path t ms).part)
        (Member.linkAll path t ms).table
  | [], _ => .nil t
  | ⟨name, type, dims⟩ :: ms, h => by
    obtain ⟨k, hk, hms, hlink⟩ := Member.linkAll_cons_eq_ok h
    rw [hlink]
    have hinline : ∀ scope ∈ (Site.member path name).inlineScope, scope = path :=
      fun scope hscope => (Option.some.inj hscope).symm
    exact (TypeExpr.run_link hinline t type k hk).append (Member.run_linkAll path _ ms hms)

end

theorem TypedefDecl.run_link {scope : ScopedName} {d : TypedefDecl} {b : Unit}
    (h : (d.link scope t).outcome = .ok b) :
    Run t ((Definition.typedef (d.link scope t).part).occurrences scope)
      (d.link scope t).table := by
  obtain ⟨k, u, hk, hdeclare, hlink⟩ := TypedefDecl.link_eq_ok h
  rw [hlink]
  obtain ⟨hkind, -⟩ := d.type.boundIn_link (.typedef scope d.name) t k hk
  have hinline : ∀ s ∈ (Site.typedef scope d.name).inlineScope, s = scope :=
    fun s hs => (Option.some.inj hs).symm
  have htype := TypeExpr.run_link hinline t d.type k hk
  exact htype.append (.single (.declares rfl (congrArg (Option.map _) hkind) hdeclare))

theorem Definition.run_link {scope : ScopedName} {d : Definition} {b : Unit}
    (h : (d.link scope t).outcome = .ok b) :
    Run t ((d.link scope t).part.occurrences scope) (d.link scope t).table := by
  cases d with
  | struct d => exact d.run_link scope t b h
  | enum d => exact EnumDecl.run_link (d := d) h
  | typedef d => exact TypedefDecl.run_link (d := d) h

/-- The run of a list of parts. -/
theorem run_linkAll {α β : Type} {link : SymbolTable → α → Linked α β} {f : α → List Occurrence}
    (hlink : ∀ t a b, (link t a).outcome = .ok b → Run t (f (link t a).part) (link t a).table)
    {as : List α} (h : (linkAll link t as).outcome = .ok ()) :
    Run t ((linkAll link t as).part.flatMap f) (linkAll link t as).table := by
  induction as generalizing t with
  | nil => exact .nil t
  | cons a as ih =>
    obtain ⟨b, hb, has, hlinkAll⟩ := linkAll_cons_eq_ok h
    rw [hlinkAll]
    exact (hlink t a b hb).append (ih has)

/-- The run of a parameter; no type is declared in place there. -/
theorem Parameter.run_link {interface : ScopedName} {operation : String} {p : Parameter} {k : Kind}
    (h : (p.link interface operation t).outcome = .ok k) :
    Run t ((p.link interface operation t).part.type.occurrences interface)
      (p.link interface operation t).table :=
  TypeExpr.run_link (s := .parameter interface operation p.name) (fun _ hs => nomatch hs) t p.type k h

theorem Operation.run_link {interface : ScopedName} {o : Operation} {b : Unit}
    (h : (o.link interface t).outcome = .ok b) :
    Run t ((o.link interface t).part.occurrences interface) (o.link interface t).table := by
  obtain ⟨k, hk, hps, hlink⟩ := Operation.link_eq_ok h
  rw [hlink]
  have hreturns := TypeExpr.run_link (s := .returns interface o.name) (fun _ hs => nomatch hs) t
    o.returns k hk
  have hparameters := run_linkAll (f := fun p : Parameter => p.type.occurrences interface)
    (fun _ _ _ hp => Parameter.run_link hp) hps
  exact hreturns.append hparameters

theorem Interface.run_link {scope : ScopedName} {i : Interface} {b : Unit}
    (h : (i.link scope t).outcome = .ok b) :
    Run t (i.link scope t).part.occurrences (i.link scope t).table := by
  obtain ⟨hos, hlink⟩ := Interface.link_eq_ok h
  rw [hlink]
  exact run_linkAll (fun _ _ _ ho => Operation.run_link ho) hos

/-- The run of a module. -/
theorem Module.run_link {m : Module} {b : Unit} (h : (m.link t).outcome = .ok b) :
    Run t (m.link t).part.occurrences (m.link t).table := by
  obtain ⟨hds, his, hlink⟩ := Module.link_eq_ok h
  rw [hlink]
  exact (run_linkAll (fun _ _ _ hd => Definition.run_link hd) hds).append
    (run_linkAll (fun _ _ _ hi => Interface.run_link hi) his)

/-- The path of a linked interface is made of the scope and its name. -/
theorem Interface.path_link {scope : ScopedName} {i : Interface} {b : Unit}
    (h : (i.link scope t).outcome = .ok b) :
    (i.link scope t).part.path = scope.child (i.link scope t).part.name := by
  obtain ⟨-, hlink⟩ := Interface.link_eq_ok h
  rw [hlink]
  rfl

theorem Module.interface_path_link {m : Module} {b : Unit} (h : (m.link t).outcome = .ok b) :
    ∀ i ∈ (m.link t).part.interfaces, i.path = .child (.child .root (m.link t).part.name) i.name := by
  obtain ⟨-, his, hlink⟩ := Module.link_eq_ok h
  rw [hlink]
  exact forall_mem_linkAll
    (p := fun _ (i : Interface) => i.path = .child (.child .root m.name) i.name)
    (Interface.le_link (.child .root m.name)) (fun _ _ _ _ hi => hi)
    (fun _ _ _ hi => Interface.path_link hi) his

/-- The run of a list of modules that links. -/
theorem run_link_modules {u : SymbolTable} {ms linked : List Module}
    (h : linkAll Module.link t ms = ⟨linked, u, .ok ()⟩) :
    Run t (linked.flatMap (·.occurrences)) u := by
  have hrun := run_linkAll (f := Module.occurrences) (fun _ _ _ hm => Module.run_link hm)
    (congrArg Linked.outcome h)
  rwa [h] at hrun

end WireStub
