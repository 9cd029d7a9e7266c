import WireStub.Proofs.Emission

/-!
# Where the files of an emission lie

The path text of a unit is the text of the output directory with the name of the module behind it, or
that name alone if it is absolute.  Nothing looks for slashes in the name, so its parts are followed like
those of any path text: a name like `../notes` leads out of the output directory, and `/notes` has never
been in it.

* `CUnit.components_fileName` splits a file name at the slashes that the name of the module has, and
  `CUnit.isAbsolute_fileName` says where it starts;
* `GeneratedFile.LiesIn` says that a file lies directly in the output directory;
* `CUnit.Renders.exists_place` finds the directory in which a unit lies;
* `Schema.written_lies_in_iff` is the conclusion: a written unit lies in the output directory exactly if
  the parts before the last slash of its module's name lead there.
-/

namespace WireStub

/-- The parts of a file name before the last slash are those of the name of the module. -/
theorem CUnit.components_fileName (u : CUnit) (name : String) :
    Path.components (u.fileName name) =
      Path.folders name ++ [u.fileName (Path.baseName name)] := by
  have hending : '/' ∉ (u.ending ++ if u.isHeader then ".h" else ".c").toList := by
    cases u <;> decide
  rw [fileName, fileName, String.append_assoc, Path.components_append name hending,
    String.append_assoc]

/-- A file name starts where the name of the module does. -/
theorem CUnit.isAbsolute_fileName (u : CUnit) (name : String) :
    Path.isAbsolute (u.fileName name) = Path.isAbsolute name := by
  by_cases hname : name = ""
  · rw [hname]
    cases u <;> decide
  · rw [fileName, String.append_assoc, Path.isAbsolute_append hname]

/-- A file lies directly in the output directory. -/
def GeneratedFile.LiesIn (f : GeneratedFile) (t : FileTree) (dir : String) : Prop :=
  ∃ d n, t.resolve? .root dir = some d ∧ f.place? t dir = some (d.child n)

/-- A file is written in an emission. -/
def Schema.Writes (o : Options) (s : Schema) (t : FileTree) (dir : String) (f : GeneratedFile) :
    Prop :=
  ∃ fs done, s.render o = .ok fs ∧ WritesInto t dir fs done (s.emit o t dir) ∧ f ∈ done

variable {o : Options} {s : Schema} {t : FileTree} {dir : String} {f : GeneratedFile}

/-- The directory of a unit is found by the parts of the module's name that stand before its last slash:
from the root if that name is absolute, and else from the output directory. -/
theorem CUnit.Renders.exists_place {m : LoadedModule} {u : CUnit} {p d : Path}
    (hf : CUnit.Renders o (m, u) f) (hd : t.resolve? .root dir = some d)
    (hp : f.place? t dir = some p) :
    ∃ d', t.walk? (d.start m.module.name) (Path.folders m.module.name) = some d' ∧
      p = d'.child (u.fileName (Path.baseName m.module.name)) := by
  rw [GeneratedFile.place?, GeneratedFile.path, hf.1, FileTree.resolve?_joinText_of_resolve? hd,
    FileTree.resolve?, CUnit.components_fileName, FileTree.walk?_append, Option.bind_eq_some_iff] at hp
  obtain ⟨d', hd', hp⟩ := hp
  obtain ⟨-, -, rfl⟩ := (FileTree.walk?_name (CUnit.fileName_not_special _ _)).1 hp
  rw [Path.start, u.isAbsolute_fileName] at hd'
  exact ⟨d', hd', rfl⟩

namespace Schema

/-- A file that is written is a unit of a main module, and found in the end, as the output directory
is. -/
theorem Writes.exists_unit (h : s.Writes o t dir f) :
    ∃ m ∈ s.mainModules, ∃ u, CUnit.Renders o (m, u) f ∧
      ∃ d p, (s.emit o t dir).tree.resolve? .root dir = some d ∧
        f.place? (s.emit o t dir).tree dir = some p := by
  obtain ⟨fs, done, hrender, hdone, hf⟩ := h
  obtain ⟨⟨m, u⟩, hm, hunit⟩ :=
    exists_left_of_forall₂ (renders_of_render hrender) (hdone.initial.subset hf)
  obtain ⟨d, hd⟩ := hdone.exists_directory hf
  obtain ⟨p, hp⟩ := hdone.written.exists_place hf
  exact ⟨m, mem_units.1 hm, u, hunit, d, p, hd, hp⟩

/-- An emission that succeeds writes every unit of its main modules. -/
theorem exists_writes {t' : FileTree} {paths : List String}
    (h : s.emit o t dir = ⟨t', .ok paths⟩) {m : LoadedModule} (hm : m ∈ s.mainModules) (u : CUnit) :
    ∃ f, s.Writes o t dir f ∧ CUnit.Renders o (m, u) f := by
  obtain ⟨fs, -, hrender, -, -⟩ := exists_of_emit h
  obtain ⟨done, hdone⟩ := writesInto_emit hrender t dir
  obtain ⟨f, hf, hunit⟩ := exists_left_of_forall₂ (renders_of_render hrender).flip (mem_units.2 hm)
  obtain ⟨rfl, -⟩ := hdone.of_ok (by rw [h])
  exact ⟨f, ⟨done, done, hrender, hdone, hf⟩, hunit⟩

end Schema

/-- **Units lie where the names of their modules lead to.**  A file that is written in an emission is a
unit of a main module.  Its directory is where the parts of the module's name before the last slash lead
to, from the root if the name is absolute and else from the output directory.  So the file lies directly
in the output directory if and only if they lead there, and it does if the name has no slash. -/
theorem Schema.written_lies_in_iff {o : Options} {s : Schema} {t : FileTree} {dir : String}
    {f : GeneratedFile} (h : s.Writes o t dir f) :
    ∃ m ∈ s.mainModules, ∃ u, CUnit.Renders o (m, u) f ∧
      ∃ d d', (s.emit o t dir).tree.resolve? .root dir = some d ∧
        (s.emit o t dir).tree.walk? (d.start m.module.name) (Path.folders m.module.name) =
          some d' ∧
        f.place? (s.emit o t dir).tree dir =
          some (d'.child (u.fileName (Path.baseName m.module.name))) ∧
        (f.LiesIn (s.emit o t dir).tree dir ↔ d' = d) ∧
        ('/' ∉ m.module.name.toList → f.LiesIn (s.emit o t dir).tree dir) := by
  obtain ⟨m, hm, u, hunit, d, p, hd, hp⟩ := h.exists_unit
  obtain ⟨d', hd', rfl⟩ := hunit.exists_place hd hp
  have hlies : f.LiesIn (s.emit o t dir).tree dir ↔ d' = d := by
    constructor
    · rintro ⟨e, n, he, hplace⟩
      cases hd.symm.trans he
      exact (Path.child_inj.1 (Option.some.inj (hp.symm.trans hplace))).1
    · rintro rfl
      exact ⟨d', _, hd, hp⟩
  refine ⟨m, hm, u, hunit, d, d', hd, hd', hp, hlies, fun hslash => hlies.2 ?_⟩
  rw [Path.start, Path.isAbsolute_eq_false hslash, Path.folders_eq_nil hslash] at hd'
  exact (Option.some.inj hd').symm

/-- An output directory with a directory in it. -/
def detourFiles : FileTree := ⟨[(⟨["out"]⟩, .directory), (⟨["out", "sub"]⟩, .directory)]⟩

/-- A module whose name leads into that directory and back. -/
def detourModule : LoadedModule := ⟨⟨"sub/../Level", [], []⟩, ⟨["level.yaml"]⟩, true⟩

theorem Schema.written_lies_in_iff_detour :
    ∃ f, Schema.Writes {} ⟨[detourModule]⟩ detourFiles "out" f ∧ f.name = "sub/../Level.h" ∧
      f.LiesIn (Schema.emit {} ⟨[detourModule]⟩ detourFiles "out").tree "out" := by
  have hrun : (Schema.emit {} ⟨[detourModule]⟩ detourFiles "out").outcome.toOption.isSome ∧
      (Schema.emit {} ⟨[detourModule]⟩ detourFiles "out").tree.resolve? .root "out" =
        some ⟨["out"]⟩ ∧
      (Schema.emit {} ⟨[detourModule]⟩ detourFiles "out").tree.walk? ⟨["out"]⟩ ["sub", ".."] =
        some ⟨["out"]⟩ := by decide +kernel
  obtain ⟨hok, hout, hback⟩ := hrun
  obtain ⟨paths, hpaths⟩ := Option.isSome_iff_exists.1 hok
  obtain ⟨f, hwrites, hname, -⟩ := Schema.exists_writes (Emission.eq_of_outcome hpaths)
    (List.mem_singleton_self detourModule) .declarations
  obtain ⟨m, hm, u, -, d, d', hd, hd', -, hlies, -⟩ := Schema.written_lies_in_iff hwrites
  obtain rfl := List.mem_singleton.1 hm
  cases hout.symm.trans hd
  exact ⟨f, hwrites, hname, hlies.2 (Option.some.inj (hd'.symm.trans hback))⟩

/-- Modules whose names lead out of the output directory, one step back and from the root, beside a file
that is no output. -/
def noteFiles : FileTree :=
  ⟨[(⟨["a.yaml"]⟩, .text "modules: [\x7bname: ../notes\x7d, \x7bname: /atlas\x7d]"),
    (⟨["notes.h"]⟩, .text "kept")]⟩

/-- What the file holds. -/
def noteSchema : Schema :=
  ⟨[⟨⟨"../notes", [], []⟩, ⟨["a.yaml"]⟩, true⟩, ⟨⟨"/atlas", [], []⟩, ⟨["a.yaml"]⟩, true⟩]⟩

/-- The units of both modules are written beside the output directory, where one of them takes the place
of the file. -/
theorem Schema.emission_leaves_directory :
    Schema.load noteFiles ["a.yaml"] [] = .ok noteSchema ∧
      ∃ t' paths, noteSchema.emit {} noteFiles "out" = ⟨t', .ok paths⟩ ∧
        t'.resolve? .root "out" = some ⟨["out"]⟩ ∧
        (∀ name ∈ ["notes.h", "atlas.h"], ∃ f, noteSchema.Writes {} noteFiles "out" f ∧
          f.place? t' "out" = some ⟨[name]⟩ ∧ ¬f.LiesIn t' "out") ∧
        t'.textAt? "notes.h" ≠ some "kept" := by
  have hload : Schema.load noteFiles ["a.yaml"] [] = .ok noteSchema := by
    rw [Schema.load_of_names (p := ⟨["a.yaml"]⟩) ["../notes", "/atlas"] rfl (by decide +kernel)]
    rfl
  have hrun : (noteSchema.emit {} noteFiles "out").outcome.toOption.isSome ∧
      (noteSchema.emit {} noteFiles "out").tree.resolve? .root "out" = some ⟨["out"]⟩ ∧
      (noteSchema.emit {} noteFiles "out").tree.resolve? .root "out/../notes.h" =
        some ⟨["notes.h"]⟩ ∧
      (noteSchema.emit {} noteFiles "out").tree.resolve? .root "/atlas.h" = some ⟨["atlas.h"]⟩ ∧
      (noteSchema.emit {} noteFiles "out").tree.textAt? "notes.h" ≠ some "kept" := by
    decide +kernel
  obtain ⟨hok, hout, hnotes, hatlas, hlost⟩ := hrun
  obtain ⟨paths, hpaths⟩ := Option.isSome_iff_exists.1 hok
  have hemit := Emission.eq_of_outcome hpaths
  have hstray {m : LoadedModule} (hm : m ∈ noteSchema.mainModules) {name : String}
      (hplace : (noteSchema.emit {} noteFiles "out").tree.resolve? .root
        (Path.joinText "out" (CUnit.declarations.fileName m.module.name)) = some ⟨[name]⟩) :
      ∃ f, noteSchema.Writes {} noteFiles "out" f ∧
        f.place? (noteSchema.emit {} noteFiles "out").tree "out" = some ⟨[name]⟩ ∧
        ¬f.LiesIn (noteSchema.emit {} noteFiles "out").tree "out" := by
    obtain ⟨f, hwrites, hname, -⟩ := Schema.exists_writes hemit hm .declarations
    have hf : f.place? (noteSchema.emit {} noteFiles "out").tree "out" = some ⟨[name]⟩ := by
      rw [GeneratedFile.place?, GeneratedFile.path, hname]
      exact hplace
    refine ⟨f, hwrites, hf, ?_⟩
    rintro ⟨d, n, hd, hchild⟩
    cases hout.symm.trans hd
    exact absurd (hf.symm.trans hchild) (by simp [Path.child])
  refine ⟨hload, _, paths, hemit, hout, fun name hname => ?_, hlost⟩
  rcases List.mem_pair.1 hname with rfl | rfl
  · exact hstray List.mem_cons_self hnotes
  · exact hstray (List.mem_cons_of_mem _ List.mem_cons_self) hatlas

end WireStub
