import WireStub.Proofs.Linking.Obligations

/-!
# How far linking comes

Linking a part walks along its obligations.  Meeting one is a step: it declares a name, or binds a
reference, or changes nothing.  The walk ends behind the last obligation, or in front of the first one
that is not met, and everything behind that place is left as it was.

* `Obligation.Step` is a step, with the references before and behind it, and `Obligation.Walk` is a path
  of steps;
* `Obligation.Walk.le`, `Obligation.Walk.names`, `Obligation.Walk.allMet` and `Obligation.Walk.boundIn`
  say what a walk does to the table and to the references, each from what a step does;
* `Linked.Walks` says that the result of linking a part is that of a walk along its obligations;
* `Module.walks` is the conclusion, from one lemma per part, and `walks_linkAll` for lists of parts.
-/

namespace WireStub

/-- A reference has a meaning exactly if looking it up finds something. -/
theorem SymbolTable.resolves_iff {t : SymbolTable} {scope : ScopedName} {written : String} :
    Resolves t.names scope written ↔ ∃ n k, t.lookup? written scope = some (n, k) := by
  simp only [lookup?_eq_some_iff]
  constructor
  · rintro ⟨hroot, n, hn, habsolute, hrelative⟩
    obtain ⟨⟨_, k⟩, hk, rfl⟩ := List.mem_map.1 hn
    exact ⟨_, k, hroot, hk, habsolute, hrelative⟩
  · rintro ⟨n, k, hroot, hdenotes⟩
    exact ⟨hroot, n, List.mem_map_of_mem hdenotes.declared, hdenotes.absolute, hdenotes.relative⟩

namespace Obligation

/-- The reference that is looked up, as it is written. -/
def written? : Obligation → Option String
  | .refers _ written _ => some written
  | .moduleNamed _ | .named _ _ | .declares _ | .inPlace _ _ => none

/-- Meeting an obligation: from a table and a reference that is not bound yet to those behind it. -/
inductive Step : SymbolTable → Obligation → List Reference → List Reference → SymbolTable → Prop
  | moduleNamed {t : SymbolTable} {name : String} : name ≠ "" → Step t (.moduleNamed name) [] [] t
  | named {t : SymbolTable} {scope : ScopedName} {name : String} :
      Text.isBlank name = false → Step t (.named scope name) [] [] t
  | declares {t u : SymbolTable} {path : ScopedName} {k : Kind} :
      t.declare? path k = some u → Step t (.declares path) [] [] u
  | refers {t : SymbolTable} {scope context target : ScopedName} {r : Reference} {k : Kind} :
      t.lookup? r.name scope = some (target, k) →
        Step t (.refers scope r.name context) [r] [⟨r.name, some target, some k⟩] t

/-- Meeting obligations one after the other. -/
inductive Walk :
    SymbolTable → List Obligation → List Reference → List Reference → SymbolTable → Prop
  | nil (t : SymbolTable) : Walk t [] [] [] t
  | cons {t u v : SymbolTable} {o : Obligation} {os : List Obligation}
      {rs rs' ss ss' : List Reference} :
      Step t o rs rs' u → Walk u os ss ss' v → Walk t (o :: os) (rs ++ ss) (rs' ++ ss') v

variable {t u v : SymbolTable} {o : Obligation} {xs ys : List Obligation}
  {rs rs' ss ss' : List Reference}

/-! ### Steps -/

theorem Step.met (h : Step t o rs rs' u) : o.Met t.names := by
  cases h with
  | moduleNamed hname => exact hname
  | named hname => exact hname
  | declares hdeclare => exact SymbolTable.not_mem_names_of_declare? hdeclare
  | refers hlookup => exact SymbolTable.resolves_iff.2 ⟨_, _, hlookup⟩

theorem Step.names (h : Step t o rs rs' u) : u.names = t.names ++ declaredNames [o] := by
  cases h with
  | declares hdeclare => exact SymbolTable.names_declare? hdeclare
  | moduleNamed | named | refers => exact (List.append_nil _).symm

theorem Step.le (h : Step t o rs rs' u) : t ≤ u := by
  cases h with
  | declares hdeclare => exact SymbolTable.le_of_declare? hdeclare
  | moduleNamed | named | refers => exact le_refl t

theorem Step.map_name (h : Step t o rs rs' u) :
    rs.map (·.name) = [o].filterMap written? ∧ rs'.map (·.name) = [o].filterMap written? := by
  cases h <;> exact ⟨rfl, rfl⟩

theorem Step.boundIn (h : Step t o rs rs' u) : ∀ r ∈ rs', (TypeExpr.declared r).BoundIn u := by
  cases h with
  | refers hlookup =>
    intro r hr
    obtain rfl := List.mem_singleton.1 hr
    exact ⟨_, _, rfl, rfl, SymbolTable.mem_entries_of_lookup? hlookup⟩
  | moduleNamed | named | declares => exact fun _ hr => nomatch hr

/-! ### Walks -/

theorem Walk.single (h : Step t o rs rs' u) : Walk t [o] rs rs' u := by
  simpa using Walk.cons h (.nil u)

theorem Walk.append (h : Walk t xs rs rs' u) (h' : Walk u ys ss ss' v) :
    Walk t (xs ++ ys) (rs ++ ss) (rs' ++ ss') v := by
  induction h with
  | nil => exact h'
  | cons hstep _ ih =>
    rw [List.append_assoc, List.append_assoc]
    exact .cons hstep (ih h')

/-- A walk only adds to the table. -/
theorem Walk.le (h : Walk t xs rs rs' u) : t ≤ u := by
  induction h with
  | nil t => exact le_refl t
  | cons hstep _ ih => exact hstep.le.trans ih

/-- A walk adds the names that its obligations declare, in their order. -/
theorem Walk.names (h : Walk t xs rs rs' u) : u.names = t.names ++ declaredNames xs := by
  induction h with
  | nil => exact (List.append_nil _).symm
  | @cons _ _ _ o os _ _ _ _ hstep _ ih =>
    rw [ih, hstep.names, List.append_assoc, ← declaredNames_append, List.singleton_append]

theorem Walk.allMet (h : Walk t xs rs rs' u) : AllMet t.names xs := by
  induction h with
  | nil => exact allMet_nil
  | cons hstep _ ih => exact allMet_cons.2 ⟨hstep.met, hstep.names ▸ ih⟩

/-- A walk binds the references of its obligations, and changes none of their names. -/
theorem Walk.map_name (h : Walk t xs rs rs' u) :
    rs.map (·.name) = xs.filterMap written? ∧ rs'.map (·.name) = xs.filterMap written? := by
  induction h with
  | nil => exact ⟨rfl, rfl⟩
  | @cons _ _ _ o os _ _ _ _ hstep _ ih =>
    have hcons : (o :: os).filterMap written? = [o].filterMap written? ++ os.filterMap written? :=
      List.filterMap_append (l := [o])
    rw [List.map_append, List.map_append, hstep.map_name.1, hstep.map_name.2, ih.1, ih.2, hcons]
    exact ⟨rfl, rfl⟩

/-- What a walk binds is declared behind it. -/
theorem Walk.boundIn (h : Walk t xs rs rs' u) : ∀ r ∈ rs', (TypeExpr.declared r).BoundIn u := by
  induction h with
  | nil => exact fun _ hr => nomatch hr
  | cons hstep hwalk ih =>
    intro r hr
    rcases List.mem_append.1 hr with hr | hr
    · exact (hstep.boundIn r hr).mono hwalk.le
    · exact ih r hr

end Obligation

open Obligation

/-! ### Results of linking -/

/-- The result of linking a part, from the table `t`, is that of a walk along the obligations of the
part.  It has the references `rs` before linking and `rs'` behind it. -/
inductive Linked.Walks {α β : Type} (l : Linked α β) (t : SymbolTable) (os : List Obligation)
    (rs rs' : List Reference) : Prop
  | arrives (b : β) : l.outcome = .ok b → Walk t os rs rs' l.table → Walks l t os rs rs'
  | stops {met ahead : List Obligation} {o : Obligation} {old new rest : List Reference} :
      os = met ++ o :: ahead → rs = old ++ rest → rs' = new ++ rest → Walk t met old new l.table →
        ¬o.Met l.table.names → l.outcome = .error o.fault → Walks l t os rs rs'

namespace Linked.Walks

variable {α α' β β' : Type} {l : Linked α β} {l' : Linked α' β'} {t u : SymbolTable}
  {xs ys : List Obligation} {rs rs' ss ss' : List Reference} {o : Obligation}

theorem mapPart {f : α → α'} (h : l.Walks t xs rs rs') : (l.mapPart f).Walks t xs rs rs' := by
  cases h with
  | arrives b hb hwalk => exact .arrives b hb hwalk
  | stops hxs hrs hrs' hwalk hunmet he => exact .stops hxs hrs hrs' hwalk hunmet he

theorem mapOutcome {f : β → β'} (h : l.Walks t xs rs rs') :
    (l.mapOutcome f).Walks t xs rs rs' := by
  cases h with
  | arrives b hb hwalk =>
    exact .arrives (f b) (by simp [Linked.mapOutcome, hb, Except.map]) hwalk
  | stops hxs hrs hrs' hwalk hunmet he =>
    exact .stops hxs hrs hrs' hwalk hunmet (by simp [Linked.mapOutcome, he, Except.map])

/-- Linking stops at once if the first obligation is not met. -/
theorem unmet {a : α} (h : ¬o.Met t.names) :
    (⟨a, t, .error o.fault⟩ : Linked α β).Walks t (o :: xs) rs rs :=
  .stops (List.nil_append _).symm (List.nil_append _).symm (List.nil_append _).symm (.nil t) h rfl

/-- Linking goes on behind a step without a reference. -/
theorem step (hstep : Step t o [] [] u) (h : l.Walks u xs rs rs') : l.Walks t (o :: xs) rs rs' := by
  cases h with
  | arrives b hb hwalk => exact .arrives b hb (.cons hstep hwalk)
  | stops hxs hrs hrs' hwalk hunmet he =>
    subst hxs
    exact .stops List.cons_append.symm hrs hrs' (.cons hstep hwalk) hunmet he

/-- A part that fails ends the linking, and what comes behind it stays as it was. -/
theorem of_error {e : LinkError} {a : α'} (h : l.Walks t xs rs rs') (he : l.outcome = .error e)
    (ss : List Reference) :
    (⟨a, l.table, .error e⟩ : Linked α' β').Walks t (xs ++ ys) (rs ++ ss) (rs' ++ ss) := by
  cases h with
  | arrives b hb => cases hb.symm.trans he
  | @stops met ahead o old new rest hxs hrs hrs' hwalk hunmet ho =>
    obtain rfl := Except.error.inj (ho.symm.trans he)
    subst hxs hrs hrs'
    exact .stops (by rw [List.append_assoc, List.cons_append]) (List.append_assoc _ _ _)
      (List.append_assoc _ _ _) hwalk hunmet rfl

/-- Linking goes on behind a part that links. -/
theorem append {b : β} (h : l.Walks t xs rs rs') (hb : l.outcome = .ok b)
    (h' : l'.Walks l.table ys ss ss') : l'.Walks t (xs ++ ys) (rs ++ ss) (rs' ++ ss') := by
  cases h with
  | stops _ _ _ _ _ he => cases he.symm.trans hb
  | arrives _ _ hwalk =>
    cases h' with
    | arrives b' hb' hwalk' => exact .arrives b' hb' (hwalk.append hwalk')
    | stops hys hss hss' hwalk' hunmet he =>
      subst hys hss hss'
      exact .stops (List.append_assoc _ _ _).symm (List.append_assoc _ _ _).symm
        (List.append_assoc _ _ _).symm (hwalk.append hwalk') hunmet he

/-- A last part without references comes behind a part that links. -/
theorem append_last {b : β} (h : l.Walks t xs rs rs') (hb : l.outcome = .ok b)
    (h' : l'.Walks l.table ys [] []) : l'.Walks t (xs ++ ys) rs rs' := by
  simpa only [List.append_nil] using h.append hb h'

end Linked.Walks

/-- Linking a list of parts walks along their obligations. -/
theorem walks_linkAll {α β : Type} {l : SymbolTable → α → Linked α β} {f : α → List Obligation}
    {g : α → List Reference} (hlink : ∀ t a, (l t a).Walks t (f a) (g a) (g (l t a).part))
    (t : SymbolTable) (as : List α) :
    (linkAll l t as).Walks t (as.flatMap f) (as.flatMap g) ((linkAll l t as).part.flatMap g) := by
  induction as generalizing t with
  | nil => exact .arrives () rfl (.nil t)
  | cons a as ih =>
    rw [linkAll]
    cases houtcome : (l t a).outcome with
    | error e =>
      simp only [List.flatMap_cons]
      exact (hlink t a).of_error houtcome _
    | ok b =>
      simp only [Linked.mapPart, List.flatMap_cons]
      exact (hlink t a).append houtcome (ih _).mapPart

/-! ### Types -/

theorem not_met_named {known : List ScopedName} {scope : ScopedName} {name : String}
    (h : Text.isBlank name = true) : ¬Obligation.Met known (.named scope name) := by
  intro hmet
  cases h.symm.trans hmet

theorem not_met_declares {t : SymbolTable} {path : ScopedName} {k : Kind}
    (h : t.declare? path k = none) : ¬Obligation.Met t.names (.declares path) :=
  fun hnew => hnew ((SymbolTable.declare?_eq_none_iff t path k).1 h)

theorem Reference.walks (s : Site) (t : SymbolTable) (r : Reference) :
    (r.link s t).Walks t [.refers s.scope r.name s.context] [r] [(r.link s t).part] := by
  unfold Reference.link
  split
  · rename_i target kind hlookup
    exact .arrives kind rfl (.single (.refers hlookup))
  · rename_i hlookup
    refine .unmet (o := .refers s.scope r.name s.context) fun hmet => ?_
    obtain ⟨n, k, hfound⟩ := SymbolTable.resolves_iff.1 hmet
    cases hlookup.symm.trans hfound

theorem EnumDecl.walks (scope : ScopedName) (t : SymbolTable) (d : EnumDecl) :
    (d.link scope t).Walks t (d.obligations scope) [] [] := by
  unfold EnumDecl.link
  split
  · rename_i hblank
    exact .unmet (not_met_named hblank)
  · rename_i hblank
    refine .step (.named (eq_false_of_ne_true hblank)) ?_
    simp only
    split
    · rename_i hdeclare
      exact .unmet (not_met_declares hdeclare)
    · rename_i u hdeclare
      exact .step (.declares hdeclare) (.arrives () rfl (.nil u))

mutual

/-- Linking a type walks along its obligations. -/
theorem TypeExpr.walks (s : Site) (t : SymbolTable) :
    ∀ e : TypeExpr,
      (e.link s t).Walks t (e.obligations s) e.references (e.link s t).part.references
  | .primitive _ => .arrives .scalar rfl (.nil t)
  | .string => .arrives .string rfl (.nil t)
  | .declared r => (r.walks s t).mapPart
  | .sequence e => (TypeExpr.walks s t e).mapPart.mapOutcome
  | .struct d => by
    rw [TypeExpr.link, TypeExpr.obligations]
    cases s.inlineScope with
    | some scope => exact (StructDecl.walks scope t d).mapPart.mapOutcome
    | none => exact .unmet (o := .inPlace d.name s.context) id
  | .enum d => by
    rw [TypeExpr.link, TypeExpr.obligations]
    cases s.inlineScope with
    | some scope => exact (d.walks scope t).mapPart.mapOutcome
    | none => exact .unmet (o := .inPlace d.name s.context) id

theorem StructDecl.walks (scope : ScopedName) (t : SymbolTable) :
    ∀ d : StructDecl,
      (d.link scope t).Walks t (d.obligations scope) d.references (d.link scope t).part.references
  | ⟨name, path, ms⟩ => by
    rw [StructDecl.link, StructDecl.obligations]
    split
    · rename_i hblank
      exact .unmet (not_met_named hblank)
    · rename_i hblank
      refine .step (.named (eq_false_of_ne_true hblank)) ?_
      simp only
      -- the struct is declared before its members are linked
      split
      · rename_i hdeclare
        exact .unmet (not_met_declares hdeclare)
      · rename_i u hdeclare
        exact .step (.declares hdeclare) (Member.walks (scope.child name) u ms).mapPart

/-- Linking the members of a struct walks along their obligations. -/
theorem Member.walks (path : ScopedName) (t : SymbolTable) :
    ∀ ms : List Member,
      (Member.linkAll path t ms).Walks t (Member.obligations path ms) (Member.references ms)
        (Member.references (Member.linkAll path t ms).part)
  | [] => .arrives () rfl (.nil t)
  | ⟨name, type, dims⟩ :: ms => by
    have htype := TypeExpr.walks (.member path name) t type
    rw [Member.linkAll]
    cases houtcome : (type.link (.member path name) t).outcome with
    | error e => exact htype.of_error houtcome _
    | ok k => exact htype.append houtcome (Member.walks path _ ms).mapPart

end

/-! ### Parts of a module -/

theorem TypedefDecl.walks (scope : ScopedName) (t : SymbolTable) (d : TypedefDecl) :
    (d.link scope t).Walks t ((Definition.typedef d).obligations scope) d.type.references
      (d.link scope t).part.type.references := by
  have htype := d.type.walks (.typedef scope d.name) t
  unfold TypedefDecl.link
  split
  · rename_i hblank
    exact .unmet (not_met_named hblank)
  · rename_i hblank
    refine .step (.named (eq_false_of_ne_true hblank)) ?_
    simp only
    cases houtcome : (d.type.link (.typedef scope d.name) t).outcome with
    | error e => simpa only [List.append_nil] using htype.of_error houtcome []
    | ok k =>
      simp only
      -- the typedef is declared behind its type
      split
      · rename_i hdeclare
        exact htype.append_last houtcome (.unmet (not_met_declares hdeclare))
      · rename_i u hdeclare
        exact htype.append_last houtcome (.step (.declares hdeclare) (.arrives () rfl (.nil u)))

theorem Definition.walks (scope : ScopedName) (t : SymbolTable) (d : Definition) :
    (d.link scope t).Walks t (d.obligations scope) d.references
      (d.link scope t).part.references := by
  cases d with
  | struct d => exact (d.walks scope t).mapPart
  | enum d => exact (d.walks scope t).mapPart
  | typedef d => exact (d.walks scope t).mapPart

theorem Operation.walks (interface : ScopedName) (t : SymbolTable) (o : Operation) :
    (o.link interface t).Walks t (o.obligations interface) o.references
      (o.link interface t).part.references := by
  have hreturns := o.returns.walks (.returns interface o.name) t
  unfold Operation.link
  simp only
  cases houtcome : (o.returns.link (.returns interface o.name) t).outcome with
  | error e => exact hreturns.of_error houtcome _
  | ok k =>
    have hparameters := walks_linkAll (l := Parameter.link interface o.name)
      (g := fun p => p.type.references)
      (fun t p => (p.type.walks (.parameter interface o.name p.name) t).mapPart)
      (o.returns.link (.returns interface o.name) t).table o.parameters
    exact hreturns.append houtcome hparameters.mapPart

theorem Interface.walks (scope : ScopedName) (t : SymbolTable) (i : Interface) :
    (i.link scope t).Walks t (i.obligations scope) (i.operations.flatMap (·.references))
      ((i.link scope t).part.operations.flatMap (·.references)) := by
  unfold Interface.link
  split
  · rename_i hblank
    exact .unmet (not_met_named hblank)
  · rename_i hblank
    refine .step (.named (eq_false_of_ne_true hblank)) ?_
    exact (walks_linkAll (Operation.walks (scope.child i.name)) t i.operations).mapPart

/-- Linking a module walks along its obligations. -/
theorem Module.walks (t : SymbolTable) (m : Module) :
    (m.link t).Walks t m.obligations m.references (m.link t).part.references := by
  have hdefinitions := walks_linkAll (Definition.walks (.child .root m.name)) t m.definitions
  unfold Module.link
  split
  · rename_i hempty
    exact .unmet (o := .moduleNamed m.name) fun hname => hname (String.isEmpty_iff.1 hempty)
  · rename_i hempty
    refine .step (.moduleNamed fun hname => hempty (String.isEmpty_iff.2 hname)) ?_
    simp only
    cases houtcome : (linkAll (Definition.link (.child .root m.name)) t m.definitions).outcome with
    | error e => exact hdefinitions.of_error houtcome _
    | ok b =>
      exact hdefinitions.append houtcome
        (walks_linkAll (Interface.walks (.child .root m.name)) _ m.interfaces).mapPart

end WireStub
