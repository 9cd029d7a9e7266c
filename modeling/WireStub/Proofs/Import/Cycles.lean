import WireStub.Proofs.FileTree
import WireStub.Proofs.Import.Recording

/-!
# Reported cycles

A file that is met while it is open closes a cycle.  But a call that fails leaves files open, and a later
call that meets one of them reports a cycle there, whatever was wrong with it.  It is never a file whose
imports are in order: a call succeeds or fails as it would without any calls before it.

* `LeadsToFault` says that the imports of a file are not in order, and `FailsInside` that this is not
  because the file itself does not load;
* `Stops` lists the ways in which a visit fails; what is reported and what is left open follow by
  induction on it: `Stops.fault`, `Stops.leadsToFault` and `Stops.failsInside`;
* `Resolver.Settled` is what every call keeps, and `Resolver.Settled.loadMain_eq_none_iff` says when a
  call succeeds;
* `reported_cycles_iff` is the main statement.
-/

namespace WireStub

variable {t : FileTree} {dirs : List String}

/-- The file, or one that its imports lead to, is at fault. -/
def LeadsToFault (t : FileTree) (dirs : List String) (p : Path) : Prop :=
  ∃ e, ImportFault t dirs (Relation.ReflTransGen (Imports t dirs) p) e

/-- The file itself loads, but its imports lead to a fault. -/
def FailsInside (t : FileTree) (dirs : List String) (p : Path) : Prop :=
  (∃ f, SchemaFile.load t p = .ok f) ∧ LeadsToFault t dirs p

theorem ImportFault.mono {R S : Path → Prop} {e : LoadError} (h : ImportFault t dirs R e)
    (hRS : ∀ p, R p → S p) : ImportFault t dirs S e := by
  cases h with
  | unloadable hp hload => exact .unloadable (hRS _ hp) hload
  | unresolved hp hload hname hnone => exact .unresolved (hRS _ hp) hload hname hnone
  | cycle hp hcycle => exact .cycle (hRS _ hp) hcycle

/-- A fault behind an import is one behind the file. -/
theorem ImportFault.of_reflTransGen {p q : Path} {e : LoadError}
    (h : ImportFault t dirs (Relation.ReflTransGen (Imports t dirs) q) e)
    (hpq : Relation.ReflTransGen (Imports t dirs) p q) :
    ImportFault t dirs (Relation.ReflTransGen (Imports t dirs) p) e :=
  h.mono fun _ => hpq.trans

theorem LeadsToFault.of_reflTransGen {p q : Path} (h : LeadsToFault t dirs q)
    (hpq : Relation.ReflTransGen (Imports t dirs) p q) : LeadsToFault t dirs p :=
  h.imp fun _ he => he.of_reflTransGen hpq

/-- The imports of files that are loaded are in order. -/
theorem Ordered.not_leadsToFault {files : List LoadedFile} (h : Ordered t dirs files) {p : Path}
    (hp : p ∈ paths files) : ¬LeadsToFault t dirs p := by
  rintro ⟨e, hfault⟩
  have hreached (q : Path) (hq : Relation.ReflTransGen (Imports t dirs) p q) : q ∈ paths files :=
    h.mem_paths_of_reflTransGen hp hq
  cases hfault with
  | unloadable hq hload =>
    obtain ⟨f, hf, -⟩ := h.exists_load (hreached _ hq)
    exact nomatch hload.symm.trans hf
  | unresolved hq hload hname hnone =>
    obtain ⟨f, hf, himports⟩ := h.exists_load (hreached _ hq)
    cases hload.symm.trans hf
    obtain ⟨r, hr⟩ := himports _ hname
    exact hnone r hr
  | cycle hq hcycle => exact h.not_transGen (hreached _ hq) hcycle

theorem FileTree.Found.imports {p q : Path} (h : t.Found p) (hq : Imports t dirs p q) :
    t.Found q := by
  obtain ⟨f, -, name, -, hresolves⟩ := hq
  cases hresolves with
  | beside hbeside => exact h.parent.resolve? hbeside
  | included _ _ _ hdir => exact FileTree.Found.root.resolve? hdir

/-! ### Visits that fail -/

/-- How a visit of a file can fail: the file is open, it does not load, one of its imports leads
nowhere, or the visit of a file that it imports fails. -/
inductive Stops (t : FileTree) (dirs : List String) : List Path → Path → VisitFailure → Prop
  | again {opened : List Path} {p : Path} : p ∈ opened →
      Stops t dirs opened p ⟨.importCycle p, opened⟩
  | unloadable {opened : List Path} {p : Path} {e : LoadError} : SchemaFile.load t p = .error e →
      Stops t dirs opened p ⟨e, opened⟩
  | unresolved {opened : List Path} {p : Path} {f : SchemaFile} {name : String} :
      SchemaFile.load t p = .ok f → name ∈ f.imports → (∀ q, ¬ImportResolves t dirs p name q) →
        Stops t dirs opened p ⟨.importNotFound name p, opened ++ [p]⟩
  | inside {opened : List Path} {p q : Path} {e : VisitFailure} : Imports t dirs p q →
      Stops t dirs (opened ++ [p]) q e → Stops t dirs opened p e

namespace Stops

variable {opened : List Path} {p : Path} {e : VisitFailure}

/-- What is reported is wrong with a file that is reached, or it is a file that was open already. -/
theorem fault (h : Stops t dirs opened p e) :
    ImportFault t dirs (Relation.ReflTransGen (Imports t dirs) p) e.fault ∨
      ∃ q ∈ opened, e.fault = .importCycle q ∧ Relation.ReflTransGen (Imports t dirs) p q := by
  induction h with
  | @again _ p hp => exact .inr ⟨p, hp, rfl, .refl⟩
  | unloadable hload => exact .inl (.unloadable .refl hload)
  | unresolved hload hname hnone => exact .inl (.unresolved .refl hload hname hnone)
  | @inside opened p q e hpq _ ih =>
    rcases ih with hfault | ⟨r, hr, hcycle, hqr⟩
    · exact .inl (hfault.of_reflTransGen (.single hpq))
    rcases List.mem_append.1 hr with hr | hr
    · exact .inr ⟨r, hr, hcycle, .head hpq hqr⟩
    · -- the visit has come back to the file that it began with
      obtain rfl := List.mem_singleton.1 hr
      rw [hcycle]
      exact .inl (.cycle .refl (.head' hpq hqr))

/-- No file is closed. -/
theorem subset_opened (h : Stops t dirs opened p e) : opened ⊆ e.opened := by
  induction h with
  | again => exact List.Subset.refl _
  | unloadable => exact List.Subset.refl _
  | unresolved => exact List.subset_append_left _ _
  | inside _ _ ih => exact List.Subset.trans (List.subset_append_left _ _) ih

/-- The file is left open if it loads. -/
theorem mem_opened (h : Stops t dirs opened p e) (hload : ∃ f, SchemaFile.load t p = .ok f) :
    p ∈ e.opened := by
  obtain ⟨f, hf⟩ := hload
  cases h with
  | again hp => exact hp
  | unloadable he => exact nomatch hf.symm.trans he
  | unresolved => exact List.mem_append_right _ List.mem_cons_self
  | inside _ hstops => exact hstops.subset_opened (List.mem_append_right _ List.mem_cons_self)

/-- Where the imports of all open files lead to a fault, so do those of the file. -/
theorem leadsToFault (h : Stops t dirs opened p e) (hopened : ∀ q ∈ opened, LeadsToFault t dirs q) :
    LeadsToFault t dirs p := by
  rcases h.fault with hfault | ⟨q, hq, -, hpq⟩
  · exact ⟨e.fault, hfault⟩
  · exact (hopened q hq).of_reflTransGen hpq

/-- The files that are left open load, and their imports lead to a fault. -/
theorem failsInside (h : Stops t dirs opened p e) (hopened : ∀ q ∈ opened, FailsInside t dirs q) :
    ∀ q ∈ e.opened, FailsInside t dirs q := by
  -- a file that the visit opens loads
  have hopen {opened : List Path} {p : Path} {e : VisitFailure} (hstops : Stops t dirs opened p e)
      (hload : ∃ f, SchemaFile.load t p = .ok f) (hopened : ∀ q ∈ opened, FailsInside t dirs q) :
      ∀ q ∈ opened ++ [p], FailsInside t dirs q := by
    have hp : FailsInside t dirs p := ⟨hload, hstops.leadsToFault fun r hr => (hopened r hr).2⟩
    exact List.forall_mem_append.2 ⟨hopened, List.forall_mem_singleton.2 hp⟩
  induction h with
  | again => exact hopened
  | unloadable => exact hopened
  | unresolved hload hname hnone =>
    exact hopen (.unresolved hload hname hnone) ⟨_, hload⟩ hopened
  | inside hpq hstops ih =>
    obtain ⟨f, hload, -⟩ := id hpq
    exact ih (hopen (.inside hpq hstops) ⟨f, hload⟩ hopened)

/-- The files that are left open are found as those before them. -/
theorem found (h : Stops t dirs opened p e) (hp : t.Found p) (hopened : ∀ q ∈ opened, t.Found q) :
    ∀ q ∈ e.opened, t.Found q := by
  have hopen {opened : List Path} {p : Path} (hp : t.Found p) (hopened : ∀ q ∈ opened, t.Found q) :
      ∀ q ∈ opened ++ [p], t.Found q :=
    List.forall_mem_append.2 ⟨hopened, List.forall_mem_singleton.2 hp⟩
  induction h with
  | again => exact hopened
  | unloadable => exact hopened
  | unresolved => exact hopen hp hopened
  | inside hpq _ ih => exact ih (hp.imports hpq) (hopen hp hopened)

end Stops

mutual

theorem visitFile_stops (t : FileTree) (dirs : List String) (opened : List Path)
    (files : List LoadedFile) (p : Path) {e : VisitFailure}
    (h : (visitFile t dirs opened files p).failure = some e) : Stops t dirs opened p e := by
  by_cases hopen : p ∈ opened
  · rw [visitFile, if_pos hopen] at h
    cases h
    exact .again hopen
  by_cases hold : p ∈ paths files
  · rw [visitFile, if_neg hopen, if_pos (any_path_eq_iff.2 hold)] at h
    cases h
  cases hload : SchemaFile.load t p with
  | error e =>
    rw [visitFile_of_error hopen hold hload] at h
    cases h
    exact .unloadable hload
  | ok f =>
    rw [visitFile_of_ok hopen hold hload] at h
    simp only at h
    split at h
    · rename_i e' he'
      cases h
      rcases visitImports_stops t dirs (opened ++ [p]) files p hload f.imports (fun _ h => h) he' with
        ⟨name, hname, hnone, rfl⟩ | ⟨q, hq, hstops⟩
      · exact .unresolved hload hname hnone
      · exact .inside hq hstops
    · cases h
termination_by (unopened t opened, 0)
decreasing_by
  exact Prod.Lex.left _ _ (unopened_append_lt (SchemaFile.mem_textFiles_of_load hload) hopen)

/-- Visiting imports fails at one that leads nowhere, or in one of the files. -/
theorem visitImports_stops (t : FileTree) (dirs : List String) (opened : List Path)
    (files : List LoadedFile) (base : Path) {f : SchemaFile}
    (hload : SchemaFile.load t base = .ok f) (names : List String) (hnames : names ⊆ f.imports)
    {e : VisitFailure} (h : (visitImports t dirs opened files base names).failure = some e) :
    (∃ name ∈ f.imports, (∀ q, ¬ImportResolves t dirs base name q) ∧
        e = ⟨.importNotFound name base, opened⟩) ∨
      ∃ q, Imports t dirs base q ∧ Stops t dirs opened q e := by
  match names with
  | [] =>
    rw [visitImports] at h
    cases h
  | name :: names =>
    have hname : name ∈ f.imports := hnames List.mem_cons_self
    rw [visitImports] at h
    split at h
    · rename_i hnone
      cases h
      refine .inl ⟨name, hname, fun q hq => ?_, rfl⟩
      exact nomatch hnone.symm.trans (resolveImport?_eq_some_iff.2 hq)
    · rename_i q hq
      simp only at h
      split at h
      · rename_i e' he'
        cases h
        exact .inr ⟨q, ⟨f, hload, name, hname, resolveImport?_eq_some_iff.1 hq⟩,
          visitFile_stops t dirs opened files q he'⟩
      · exact visitImports_stops t dirs opened _ base hload names
          (List.subset_of_cons_subset hnames) h
termination_by (unopened t opened, names.length + 1)

end

/-! ### Calls -/

namespace Resolver

variable {s : Resolver} {text : String}

/-- The state of loading behind any calls: the ledger records ordered files, and the files that are
left open have a fault behind them. -/
structure Settled (t : FileTree) (dirs : List String) (s : Resolver) : Prop where
  includeDirs : s.includeDirs = dirs
  files : ∃ files, s.ledger.Records files ∧ Ordered t dirs files
  opened : ∀ p ∈ s.opened, FailsInside t dirs p
  found : ∀ p ∈ s.opened, t.Found p

namespace Settled

theorem start (t : FileTree) (dirs : List String) : (start dirs).Settled t dirs :=
  ⟨rfl, ⟨[], .empty, .nil⟩, fun _ h => (nomatch h), fun _ h => nomatch h⟩

/-- A visit from a settled state: it loads the file, whose imports are in order, or it stops. -/
theorem visitFile (h : s.Settled t dirs) (p : Path) :
    (∃ files, (Ledger.visitFile t dirs s.opened s.ledger p).ledger.Records files ∧
        Ordered t dirs files ∧
        ((Ledger.visitFile t dirs s.opened s.ledger p).failure = none → ¬LeadsToFault t dirs p)) ∧
      ∀ e, (Ledger.visitFile t dirs s.opened s.ledger p).failure = some e →
        Stops t dirs s.opened p e := by
  obtain ⟨files, hrecords, hordered⟩ := h.files
  obtain ⟨hvisit, hfailure⟩ := Ledger.visitFile_records t dirs s.opened files s.ledger p hrecords
  obtain ⟨hgrows, hmem⟩ := visitFile_grows t dirs s.opened files p
  have hfiles := hgrows.ordered hordered
  rw [hfailure]
  exact ⟨⟨_, hvisit, hfiles, fun hnone => hfiles.not_leadsToFault (hmem hnone)⟩,
    fun e => visitFile_stops t dirs s.opened files p⟩

/-- What a call reports, and what it leaves open. -/
theorem loadMain (h : s.Settled t dirs) (text : String) : (s.loadMain t text).1.Settled t dirs := by
  unfold Resolver.loadMain
  split
  · exact h
  rename_i p hp
  obtain ⟨⟨files, hrecords, hordered, -⟩, hstops⟩ := h.visitFile p
  rw [h.includeDirs]
  simp only
  split
  · rename_i e he
    exact ⟨rfl, ⟨files, hrecords, hordered⟩, (hstops e he).failsInside h.opened,
      (hstops e he).found (FileTree.Found.root.resolve? hp) h.found⟩
  · exact ⟨rfl, ⟨_, hrecords.markMain hordered.nodup p, hordered.markMain p⟩, h.opened,
      h.found⟩

theorem loadEach (h : s.Settled t dirs) (texts : List String) :
    (s.loadEach t texts).1.Settled t dirs := by
  induction texts generalizing s with
  | nil => exact h
  | cons text texts ih => exact ih (h.loadMain text)

/-- A call succeeds if the imports of the file are in order, whatever calls there were before. -/
theorem loadMain_eq_none_iff (h : s.Settled t dirs) :
    (s.loadMain t text).2 = none ↔ ∃ p, t.resolve? .root text = some p ∧ ¬LeadsToFault t dirs p := by
  unfold Resolver.loadMain
  cases hp : t.resolve? .root text with
  | none => simp
  | some p =>
    obtain ⟨⟨files, -, -, hloaded⟩, hstops⟩ := h.visitFile p
    rw [h.includeDirs]
    simp only [Option.some.injEq, exists_eq_left']
    cases hfailure : (Ledger.visitFile t dirs s.opened s.ledger p).failure with
    | none => simpa using hloaded hfailure
    | some e => simpa using (hstops e hfailure).leadsToFault fun q hq => (h.opened q hq).2

/-- A call for a file that fails inside leaves it open. -/
theorem mem_opened_loadMain (h : s.Settled t dirs) {p : Path} (hp : FailsInside t dirs p)
    (htext : t.resolve? .root text = some p) : p ∈ (s.loadMain t text).1.opened := by
  obtain ⟨⟨files, -, -, hloaded⟩, hstops⟩ := h.visitFile p
  simp only [Resolver.loadMain, htext, h.includeDirs]
  cases hfailure : (Ledger.visitFile t dirs s.opened s.ledger p).failure with
  | none => exact absurd hp.2 (hloaded hfailure)
  | some e => exact (hstops e hfailure).mem_opened hp.1

/-- A cycle is reported at a file that leads to itself, or at one that was left open. -/
theorem transGen_or_mem_opened (h : s.Settled t dirs) {p : Path}
    (hcycle : (s.loadMain t text).2 = some (.importCycle p)) :
    Relation.TransGen (Imports t dirs) p p ∨ p ∈ s.opened := by
  unfold Resolver.loadMain at hcycle
  split at hcycle
  · cases hcycle
  rename_i q hq
  obtain ⟨-, hstops⟩ := h.visitFile q
  rw [h.includeDirs] at hcycle
  simp only at hcycle
  split at hcycle
  · rename_i e he
    have hfault : e.fault = .importCycle p := Option.some.inj hcycle
    rcases (hstops e he).fault with hgenuine | ⟨r, hr, hreported, -⟩
    · exact .inl (hfault ▸ hgenuine).transGen
    · cases hfault.symm.trans hreported
      exact .inr hr
  · cases hcycle

end Settled

/-- A call for a file that was left open reports a cycle there. -/
theorem loadMain_of_mem_opened {p : Path} (hp : p ∈ s.opened)
    (htext : t.resolve? .root text = some p) : (s.loadMain t text).2 = some (.importCycle p) := by
  rw [loadMain, htext]
  simp only
  rw [Ledger.visitFile, if_pos hp]

/-- Every result is that of a call behind others. -/
theorem exists_call_of_mem {texts : List String} {result : Option LoadError}
    (h : result ∈ (s.loadEach t texts).2) :
    ∃ before text, ((s.loadEach t before).1.loadMain t text).2 = result := by
  induction texts generalizing s with
  | nil => cases h
  | cons text texts ih =>
    rcases List.mem_cons.1 h with h | h
    · exact ⟨[], text, h.symm⟩
    · obtain ⟨before, text', hresult⟩ := ih h
      exact ⟨text :: before, text', hresult⟩

/-- The state behind calls for main files, whether some of them have failed or not. -/
def behind (t : FileTree) (dirs texts : List String) : Resolver :=
  ((start dirs).loadEach t texts).1

theorem settled_behind (t : FileTree) (dirs texts : List String) :
    (behind t dirs texts).Settled t dirs := (Settled.start t dirs).loadEach texts

end Resolver

/-- **Cycles are reported at files with faults behind them.**  A call behind any others succeeds exactly
if the imports of its file are in order.  Where it reports a cycle, the file leads to itself, or an
earlier call has failed inside it and left it open; and a file that was left open is reported as a cycle
whenever a call names it.  So all reported cycles are cycles exactly if every file that can be named and
loads, but has a fault behind its imports, leads to itself. -/
theorem reported_cycles_iff (t : FileTree) (dirs : List String) :
    (∀ before text,
      (((Resolver.behind t dirs before).loadMain t text).2 = none ↔
        ∃ p, t.resolve? .root text = some p ∧ ¬LeadsToFault t dirs p) ∧
      (∀ p, ((Resolver.behind t dirs before).loadMain t text).2 = some (.importCycle p) →
        Relation.TransGen (Imports t dirs) p p ∨ p ∈ (Resolver.behind t dirs before).opened) ∧
      ∀ p ∈ (Resolver.behind t dirs before).opened, FailsInside t dirs p ∧
        (t.resolve? .root text = some p →
          ((Resolver.behind t dirs before).loadMain t text).2 = some (.importCycle p))) ∧
      ((∀ texts p, some (.importCycle p) ∈ ((Resolver.start dirs).loadEach t texts).2 →
          Relation.TransGen (Imports t dirs) p p) ↔
        ∀ text p, t.resolve? .root text = some p → FailsInside t dirs p →
          Relation.TransGen (Imports t dirs) p p) := by
  refine ⟨fun before text => ?_, fun hcycles text p htext hfails => ?_, fun hfails texts p hp => ?_⟩
  · have hs := Resolver.settled_behind t dirs before
    exact ⟨hs.loadMain_eq_none_iff, fun p => hs.transGen_or_mem_opened,
      fun p hp => ⟨hs.opened p hp, Resolver.loadMain_of_mem_opened hp⟩⟩
  · -- a first call for the file fails, and a second one finds it open
    have hopened := (Resolver.Settled.start t dirs).mem_opened_loadMain hfails htext
    refine hcycles [text, text] p ?_
    simp [Resolver.loadEach, Resolver.loadMain_of_mem_opened hopened htext]
  · obtain ⟨before, text, hresult⟩ := Resolver.exists_call_of_mem hp
    have hs := Resolver.settled_behind t dirs before
    rcases hs.transGen_or_mem_opened hresult with hcycle | hopened
    · exact hcycle
    · obtain ⟨text', htext'⟩ := (hs.found p hopened).exists_resolve?
      exact hfails text' p htext' (hs.opened p hopened)

/-- A file with an import that leads nowhere. -/
def strayFiles : FileTree := ⟨[(⟨["stray.yaml"]⟩, .text "imports: [gone.yaml]")]⟩

/-- The file imports nothing that exists, but the second call for it reports a cycle. -/
theorem stray_import_becomes_cycle :
    ((Resolver.start []).loadEach strayFiles ["stray.yaml", "stray.yaml"]).2 =
        [some (.importNotFound "gone.yaml" ⟨["stray.yaml"]⟩), some (.importCycle ⟨["stray.yaml"]⟩)] ∧
      ¬Relation.TransGen (Imports strayFiles []) ⟨["stray.yaml"]⟩ ⟨["stray.yaml"]⟩ := by
  obtain ⟨f, hload, himports, -⟩ :=
    SchemaFile.exists_load (t := strayFiles) ⟨["stray.yaml"]⟩ ["gone.yaml"] [] (by decide +kernel)
  have htext : strayFiles.resolve? .root "stray.yaml" = some ⟨["stray.yaml"]⟩ := rfl
  have hgone : resolveImport? strayFiles [] ⟨["stray.yaml"]⟩ "gone.yaml" = none := rfl
  have hvisit : Ledger.visitFile strayFiles [] [] .empty ⟨["stray.yaml"]⟩ =
      ⟨.empty, some ⟨.importNotFound "gone.yaml" ⟨["stray.yaml"]⟩, [⟨["stray.yaml"]⟩]⟩⟩ := by
    rw [Ledger.visitFile_of_ok List.not_mem_nil List.not_mem_nil hload]
    simp [himports, Ledger.visitImports, hgone]
  refine ⟨?_, fun hcycle => ?_⟩
  · simp [Resolver.loadEach, Resolver.loadMain, Resolver.start, htext, hvisit, Ledger.visitFile]
  · obtain ⟨q, ⟨g, hg, name, hname, hresolves⟩, -⟩ := Relation.TransGen.head'_iff.1 hcycle
    cases hload.symm.trans hg
    rw [himports, List.mem_singleton] at hname
    rw [← resolveImport?_eq_some_iff, hname, hgone] at hresolves
    cases hresolves

end WireStub
