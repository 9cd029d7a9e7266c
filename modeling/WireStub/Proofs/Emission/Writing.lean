import WireStub.Emission
import WireStub.Proofs.Except
import WireStub.Proofs.FileTree

/-!
# Files that are written one after the other

An emission makes its directory and then writes file after file, up to the first that cannot be written.
What it leaves behind depends on the files that were written only.

* `Written` relates the trees before and after some files have been written: nothing is hidden
  (`Written.tree_extends`), a place holds what was written to it last (`Written.last`), and all other places
  are as they were (`Written.entry?`);
* `WritesInto` are the ways in which an emission of files ends, `writesInto_writeInto` says that
  `writeInto` ends in one of them, and `WritesInto.entry?` what has changed by then.
-/

namespace WireStub

/-- Where a generated file is found in a tree. -/
def GeneratedFile.place? (f : GeneratedFile) (t : FileTree) (dir : String) : Option Path :=
  t.resolve? .root (f.path dir)

/-- Files have been written into a directory, one after the other. -/
inductive Written (dir : String) : FileTree → List GeneratedFile → FileTree → Prop
  | nil (t : FileTree) : Written dir t [] t
  | cons {t t₁ t' : FileTree} {f : GeneratedFile} {fs : List GeneratedFile} :
      t.write? (f.path dir) (.text f.contents) = some t₁ → Written dir t₁ fs t' →
      Written dir t (f :: fs) t'

variable {t t' : FileTree} {dir : String} {f : GeneratedFile} {fs done : List GeneratedFile}
  {q : Path}

namespace Written

/-- Writing hides nothing. -/
theorem tree_extends (h : Written dir t fs t') : t.Extends t' := by
  induction h with
  | nil => exact .refl _
  | cons hf _ ih => exact (FileTree.write?_eq_some hf).1.trans ih

/-- Writing changes nothing outside the places of the files. -/
theorem entry? (h : Written dir t fs t') (hq : ∀ f ∈ fs, f.place? t' dir ≠ some q) :
    t'.entry? q = t.entry? q := by
  induction h with
  | nil => rfl
  | cons hf hfs ih =>
    obtain ⟨hf', hfs'⟩ := List.forall_mem_cons.1 hq
    obtain ⟨-, p, hp, -, helse⟩ := FileTree.write?_eq_some hf
    have hne : q ≠ p := fun heq => hf' (heq ▸ hfs.tree_extends.resolve? hp)
    rw [ih hfs', helse q hne]

/-- The first file has a place, and stays there unless a later one has the same place. -/
theorem first (h : Written dir t (f :: fs) t') : ∃ t₁, Written dir t₁ fs t' ∧
    ∃ p, f.place? t' dir = some p ∧
      ((∀ g ∈ fs, g.place? t' dir ≠ some p) → t'.entry? p = some (.text f.contents)) := by
  obtain _ | ⟨hf, hfs⟩ := h
  obtain ⟨-, p, hp, hentry, -⟩ := FileTree.write?_eq_some hf
  refine ⟨_, hfs, p, hfs.tree_extends.resolve? hp, fun hlater => ?_⟩
  rw [hfs.entry? hlater, hentry]

/-- A place holds what was written to it last. -/
theorem last {before after : List GeneratedFile} (h : Written dir t (before ++ f :: after) t') :
    ∃ p, f.place? t' dir = some p ∧
      ((∀ g ∈ after, g.place? t' dir ≠ some p) → t'.entry? p = some (.text f.contents)) := by
  induction before generalizing t with
  | nil =>
    obtain ⟨-, -, hf⟩ := h.first
    exact hf
  | cons g before ih =>
    obtain ⟨t₁, hrest, -⟩ := h.first
    exact ih hrest

/-- A file that has been written has a place. -/
theorem exists_place (h : Written dir t fs t') (hf : f ∈ fs) : ∃ p, f.place? t' dir = some p := by
  obtain ⟨before, after, rfl⟩ := List.append_of_mem hf
  obtain ⟨p, hp, -⟩ := h.last
  exact ⟨p, hp⟩

end Written

/-! ### Writing that stops -/

-- `rw [writeAll]` would evaluate the write to prove this equation
theorem writeAll_cons (t : FileTree) (dir : String) (f : GeneratedFile) (fs : List GeneratedFile) :
    writeAll t dir (f :: fs) =
      match t.write? (f.path dir) (.text f.contents) with
      | none => ⟨t, .error (.inaccessible (f.path dir))⟩
      | some t =>
        ⟨(writeAll t dir fs).tree, (writeAll t dir fs).outcome.map (f.path dir :: ·)⟩ :=
  (rfl)

/-- All files are written, or those before one that cannot be. -/
theorem writeAll_cases (t : FileTree) (dir : String) (fs : List GeneratedFile) :
    (∃ t', Written dir t fs t' ∧ writeAll t dir fs = ⟨t', .ok (fs.map (·.path dir))⟩) ∨
      ∃ done f rest t', fs = done ++ f :: rest ∧ Written dir t done t' ∧
        t'.write? (f.path dir) (.text f.contents) = none ∧
        writeAll t dir fs = ⟨t', .error (.inaccessible (f.path dir))⟩ := by
  induction fs generalizing t with
  | nil => exact .inl ⟨t, .nil t, rfl⟩
  | cons f fs ih =>
    rw [writeAll_cons]
    split
    · rename_i hf
      exact .inr ⟨[], f, fs, t, rfl, .nil t, hf, rfl⟩
    · rename_i t₁ hf
      rcases ih t₁ with ⟨t', hfs, heq⟩ | ⟨done, g, rest, t', rfl, hdone, hg, heq⟩
      · exact .inl ⟨t', .cons hf hfs, by rw [heq]; rfl⟩
      · exact .inr ⟨f :: done, g, rest, t', rfl, .cons hf hdone, hg, by rw [heq]; rfl⟩

/-- How the writing of files into a directory ends, and which files are written by then. -/
inductive WritesInto (t : FileTree) (dir : String) (fs : List GeneratedFile) :
    List GeneratedFile → Emission → Prop
  /-- The directory cannot be made. -/
  | noDirectory {t' : FileTree} : t.makeDirs dir = (t', false) →
      WritesInto t dir fs [] ⟨t', .error (.inaccessible dir)⟩
  /-- All files are written. -/
  | complete {made t' : FileTree} : t.makeDirs dir = (made, true) → Written dir made fs t' →
      WritesInto t dir fs fs ⟨t', .ok (fs.map (·.path dir))⟩
  /-- A file cannot be written; those before it are. -/
  | stopped {made t' : FileTree} {f : GeneratedFile} {done rest : List GeneratedFile} :
      t.makeDirs dir = (made, true) → fs = done ++ f :: rest → Written dir made done t' →
      t'.write? (f.path dir) (.text f.contents) = none →
      WritesInto t dir fs done ⟨t', .error (.inaccessible (f.path dir))⟩

/-- The writing of files ends in one of these ways. -/
theorem writesInto_writeInto (t : FileTree) (dir : String) (fs : List GeneratedFile) :
    ∃ done, WritesInto t dir fs done (writeInto t dir fs) := by
  rw [writeInto]
  split
  · rename_i hmade
    exact ⟨[], .noDirectory hmade⟩
  · rename_i made hmade
    rcases writeAll_cases made dir fs with ⟨t', hfs, heq⟩ | ⟨done, f, rest, t', hfs, hdone, hf, heq⟩
    · rw [heq]
      exact ⟨fs, .complete hmade hfs⟩
    · rw [heq]
      exact ⟨done, .stopped hmade hfs hdone hf⟩

namespace WritesInto

variable {e : Emission} {paths : List String}

/-- The files are written into the tree with the new directories. -/
theorem written (h : WritesInto t dir fs done e) : Written dir (t.makeDirs dir).1 done e.tree := by
  cases h with
  | noDirectory hmade =>
    rw [hmade]
    exact .nil _
  | complete hmade hfs =>
    rw [hmade]
    exact hfs
  | stopped hmade _ hdone =>
    rw [hmade]
    exact hdone

/-- The first files are written. -/
theorem initial (h : WritesInto t dir fs done e) : done <+: fs := by
  cases h with
  | noDirectory => exact ⟨fs, rfl⟩
  | complete => exact ⟨[], List.append_nil fs⟩
  | stopped _ hfs => exact ⟨_, hfs.symm⟩

/-- Without a fault, all files are written. -/
theorem of_ok (h : WritesInto t dir fs done e) (hok : e.outcome = .ok paths) :
    done = fs ∧ paths = fs.map (·.path dir) := by
  cases h with
  | noDirectory => cases hok
  | complete => exact ⟨rfl, (Except.ok.inj hok).symm⟩
  | stopped => cases hok

/-- Behind a file that is written, the directory is there. -/
theorem exists_directory (h : WritesInto t dir fs done e) (hf : f ∈ done) :
    ∃ d, e.tree.resolve? .root dir = some d := by
  have hfound {made t' : FileTree} (hmade : t.makeDirs dir = (made, true))
      (hwritten : Written dir made done t') : ∃ d, t'.resolve? .root dir = some d := by
    obtain ⟨d, hd⟩ := FileTree.exists_resolve?_of_makeDirs hmade
    exact ⟨d, hwritten.tree_extends.resolve? hd⟩
  cases h with
  | noDirectory => cases hf
  | complete hmade hfs => exact hfound hmade hfs
  | stopped hmade _ hdone => exact hfound hmade hdone

/-- Outside the places of the files that are written, only directories are new. -/
theorem entry? (h : WritesInto t dir fs done e)
    (hq : ∀ f ∈ done, f.place? e.tree dir ≠ some q) :
    e.tree.entry? q = t.entry? q ∨ t.entry? q = none ∧ e.tree.entry? q = some .directory := by
  rw [h.written.entry? hq]
  exact t.addsDirectories_makeDirs dir q

end WritesInto

end WireStub
