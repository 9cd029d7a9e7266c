import WireStub.Proofs.Import.Closure

/-!
# What a visit adds

A visit loads files behind those that are loaded already, one after the other, each of them behind its
imports.  This holds from whatever files are open, also from those that an earlier failure left open,
and whether the visit fails or not.

* `Grows` lists what a visit can do, and everything that visits keep follows by induction on it:
  `Grows.ordered`, `Grows.exists_added` and so on;
* `visitFile_grows` and `visitImports_grows` are the walk.
-/

namespace WireStub

variable {t : FileTree} {dirs : List String} {opened : List Path} {files : List LoadedFile}

/-- The loaded files behind a visit that begins with `files`: further ones are loaded behind their
imports, none of them open or a main file. -/
inductive Grows (t : FileTree) (dirs : List String) (opened : List Path) (files : List LoadedFile) :
    List LoadedFile → Prop
  | refl : Grows t dirs opened files files
  | load {fs : List LoadedFile} {f : LoadedFile} : Grows t dirs opened files fs →
      LoadedBehind t dirs fs f → f.path ∉ opened → f.isMain = false →
        Grows t dirs opened files (fs ++ [f])

namespace Grows

variable {fs gs : List LoadedFile}

theorem trans (h : Grows t dirs opened files fs) (h' : Grows t dirs opened fs gs) :
    Grows t dirs opened files gs := by
  induction h' with
  | refl => exact h
  | load _ hbehind hopen hmain ih => exact .load ih hbehind hopen hmain

/-- With fewer open files a visit can do more. -/
theorem mono {opened' : List Path} (h : Grows t dirs opened' files fs) (hopened : opened ⊆ opened') :
    Grows t dirs opened files fs := by
  induction h with
  | refl => exact .refl
  | load _ hbehind hopen hmain ih => exact .load ih hbehind (fun h => hopen (hopened h)) hmain

/-- Behind the files from the beginning there are only new ones. -/
theorem exists_added (h : Grows t dirs opened files fs) :
    ∃ added, fs = files ++ added ∧ ∀ f ∈ added, f.path ∉ opened ∧ f.isMain = false := by
  induction h with
  | refl => exact ⟨[], (List.append_nil files).symm, fun _ hf => nomatch hf⟩
  | @load fs f _ _ hopen hmain ih =>
    obtain ⟨added, rfl, hadded⟩ := ih
    refine ⟨added ++ [f], List.append_assoc files added [f], fun g hg => ?_⟩
    rcases List.mem_append.1 hg with hg | hg
    · exact hadded g hg
    · rw [List.mem_singleton.1 hg]
      exact ⟨hopen, hmain⟩

theorem mem_paths (h : Grows t dirs opened files fs) {p : Path} (hp : p ∈ paths files) :
    p ∈ paths fs := by
  obtain ⟨added, rfl, -⟩ := h.exists_added
  rw [paths_append]
  exact List.mem_append_left _ hp

theorem not_mem_paths (h : Grows t dirs opened files fs) {p : Path} (hopen : p ∈ opened)
    (hp : p ∉ paths files) : p ∉ paths fs := by
  obtain ⟨added, rfl, hadded⟩ := h.exists_added
  rw [paths_append, List.mem_append, not_or]
  refine ⟨hp, fun hmem => ?_⟩
  obtain ⟨f, hf, rfl⟩ := List.mem_map.1 hmem
  exact (hadded f hf).1 hopen

theorem ordered (h : Grows t dirs opened files fs) (hfiles : Ordered t dirs files) :
    Ordered t dirs fs := by
  induction h with
  | refl => exact hfiles
  | load _ hbehind _ _ ih => exact .snoc ih hbehind

end Grows

mutual

/-- Visiting a file: if it does not fail, the file is loaded. -/
theorem visitFile_grows (t : FileTree) (dirs : List String) (opened : List Path)
    (files : List LoadedFile) (p : Path) :
    Grows t dirs opened files (visitFile t dirs opened files p).files ∧
      ((visitFile t dirs opened files p).failure = none →
        p ∈ paths (visitFile t dirs opened files p).files) := by
  by_cases hopen : p ∈ opened
  · rw [visitFile, if_pos hopen]
    exact ⟨.refl, fun h => nomatch h⟩
  by_cases hold : p ∈ paths files
  · rw [visitFile, if_neg hopen, if_pos (any_path_eq_iff.2 hold)]
    exact ⟨.refl, fun _ => hold⟩
  cases hload : SchemaFile.load t p with
  | error e =>
    rw [visitFile_of_error hopen hold hload]
    exact ⟨.refl, fun h => nomatch h⟩
  | ok f =>
    obtain ⟨himports, hresolved⟩ :=
      visitImports_grows t dirs (opened ++ [p]) files p f.imports
    have hgrows := himports.mono (List.subset_append_left opened [p])
    rw [visitFile_of_ok hopen hold hload]
    simp only
    split
    · exact ⟨hgrows, fun h => nomatch h⟩
    · rename_i hnone
      -- the file was open during its imports, so they have not loaded it
      have hfresh := himports.not_mem_paths (List.mem_append_right opened List.mem_cons_self) hold
      exact ⟨hgrows.load ⟨hfresh, f, hload, rfl, hresolved hnone⟩ hopen rfl, fun _ => by simp⟩
termination_by (unopened t opened, 0)
decreasing_by
  exact Prod.Lex.left _ _ (unopened_append_lt (SchemaFile.mem_textFiles_of_load hload) hopen)

/-- Visiting imports: if it does not fail, all of them lead to loaded files. -/
theorem visitImports_grows (t : FileTree) (dirs : List String) (opened : List Path)
    (files : List LoadedFile) (base : Path) (names : List String) :
    Grows t dirs opened files (visitImports t dirs opened files base names).files ∧
      ((visitImports t dirs opened files base names).failure = none → ∀ name ∈ names,
        ∃ q ∈ paths (visitImports t dirs opened files base names).files,
          ImportResolves t dirs base name q) := by
  match names with
  | [] =>
    rw [visitImports]
    exact ⟨.refl, fun _ name hname => nomatch hname⟩
  | name :: names =>
    rw [visitImports]
    split
    · exact ⟨.refl, fun h => nomatch h⟩
    · rename_i p hp
      obtain ⟨hfirst, hmem⟩ := visitFile_grows t dirs opened files p
      simp only
      split
      · exact ⟨hfirst, fun h => nomatch h⟩
      · rename_i hnone
        obtain ⟨hrest, hresolved⟩ :=
          visitImports_grows t dirs opened (visitFile t dirs opened files p).files base names
        refine ⟨hfirst.trans hrest, fun h name' hname' => ?_⟩
        rcases List.mem_cons.1 hname' with rfl | hname'
        · exact ⟨p, hrest.mem_paths (hmem hnone), resolveImport?_eq_some_iff.1 hp⟩
        · exact hresolved h name' hname'
termination_by (unopened t opened, names.length + 1)

end

end WireStub
