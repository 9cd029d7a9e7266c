import WireStub.Proofs.Emission

/-!
# The order of rendering and writing

All main modules are rendered before the output directory is touched.  So a fault of any module, however
late it stands, leaves the files as they were, and a fault of writing leaves the first units there.

* `Schema.exists_first_fault`: a schema is not rendered because of the first module with a fault;
* `Schema.emission_all_or_first_units` is the conclusion.
-/

namespace WireStub

namespace Schema

variable {o : Options} {s : Schema}

/-- A fault of rendering is that of the first main module that has one. -/
theorem exists_first_fault {e : RenderError} (h : s.render o = .error e) :
    ∃ before first after, s.mainModules = before ++ first :: after ∧
      (∀ m ∈ before, ∃ fs, m.module.render o = .ok fs) ∧ first.module.render o = .error e :=
  exists_first_of_mapM_eq_error (map_eq_error.1 h)

/-- A schema is rendered exactly if all its main modules are. -/
theorem exists_render_iff :
    (∃ fs, s.render o = .ok fs) ↔ ∀ m ∈ s.mainModules, ∃ fs, m.module.render o = .ok fs := by
  constructor
  · rintro ⟨fs, h⟩ m hm
    obtain ⟨groups, hgroups, -⟩ := map_eq_ok.1 h
    exact exists_ok_of_mapM hgroups hm
  · intro h
    refine exists_ok_of_forall fun e he => ?_
    obtain ⟨before, first, after, hmodules, -, hfault⟩ := exists_first_fault he
    obtain ⟨fs, hfs⟩ := h first (hmodules ▸ List.mem_append_right _ List.mem_cons_self)
    rw [hfs] at hfault
    cases hfault

end Schema

/-- **Rendering comes before writing.**  If a main module has a fault, whichever it is, the emission
ends with the fault of the first such module and changes no file.  Otherwise the units of all main
modules are written one after the other, and of no other module: all of them, or those before the first
that cannot be written.  Apart from the places of the units that are written, only directories are
new. -/
theorem Schema.emission_all_or_first_units (o : Options) (s : Schema) (t : FileTree) (dir : String) :
    (∀ m ∈ s.mainModules, ∀ e, m.module.render o = .error e →
      ∃ before first after e', s.mainModules = before ++ first :: after ∧
        (∀ b ∈ before, ∃ fs, b.module.render o = .ok fs) ∧
        first.module.render o = .error e' ∧ s.emit o t dir = ⟨t, .error (.render e')⟩) ∧
    ((∀ m ∈ s.mainModules, ∃ fs, m.module.render o = .ok fs) →
      ∃ fs done, List.Forall₂ (CUnit.Renders o) s.units fs ∧
        WritesInto t dir fs done (s.emit o t dir) ∧ done <+: fs ∧
        (∀ paths, (s.emit o t dir).outcome = .ok paths →
          done = fs ∧ paths = fs.map (·.path dir)) ∧
        (∀ before f after, done = before ++ f :: after →
          ∃ p, f.place? (s.emit o t dir).tree dir = some p ∧
            ((∀ g ∈ after, g.place? (s.emit o t dir).tree dir ≠ some p) →
              (s.emit o t dir).tree.entry? p = some (.text f.contents))) ∧
        ∀ q, (∀ f ∈ done, f.place? (s.emit o t dir).tree dir ≠ some q) →
          (s.emit o t dir).tree.entry? q = t.entry? q ∨
            t.entry? q = none ∧ (s.emit o t dir).tree.entry? q = some .directory) := by
  constructor
  · intro m hm e he
    have hfault : ¬∃ fs, s.render o = .ok fs := fun hrender => by
      obtain ⟨fs, hfs⟩ := exists_render_iff.1 hrender m hm
      rw [he] at hfs
      cases hfs
    cases hrender : s.render o with
    | ok fs => exact absurd ⟨fs, hrender⟩ hfault
    | error e' =>
      obtain ⟨before, first, after, hmodules, hbefore, hfirst⟩ := exists_first_fault hrender
      exact ⟨before, first, after, e', hmodules, hbefore, hfirst,
        emit_of_render_error hrender t dir⟩
  · intro hall
    obtain ⟨fs, hrender⟩ := exists_render_iff.2 hall
    obtain ⟨done, hdone⟩ := writesInto_emit hrender t dir
    refine ⟨fs, done, renders_of_render hrender, hdone, hdone.initial, fun _ => hdone.of_ok, ?_,
      fun q => hdone.entry?⟩
    rintro before f after rfl
    exact hdone.written.last

/-- Behind the modules of the gauge, a module with a field that has no value. -/
def leakSchema : Schema :=
  let valve : StructDecl := ⟨"Valve", ⟨["Leak", "Valve"]⟩, [⟨"flow", .primitive .void, []⟩]⟩
  ⟨gaugeSchema.modules ++ [⟨⟨"Leak", [.struct valve], []⟩, ⟨["leak.yaml"]⟩, true⟩]⟩

/-- An output directory in which a directory has the name of a unit. -/
def blockedFiles : FileTree :=
  ⟨[(⟨["out"]⟩, .directory), (⟨["out", "Gauge_stub.h"]⟩, .directory)]⟩

/-- The last module has a fault, so the first ones are not written; without it, three units are
written. -/
theorem Schema.emission_all_or_first_units_leak :
    (∃ m ∈ leakSchema.mainModules, ∃ e, m.module.render {} = .error e) ∧
      (∃ e, leakSchema.emit {} blockedFiles "out" = ⟨blockedFiles, .error (.render e)⟩) ∧
      (∀ m ∈ gaugeSchema.mainModules, ∃ fs, m.module.render {} = .ok fs) ∧
      (∃ fs done, List.Forall₂ (CUnit.Renders {}) gaugeSchema.units fs ∧
        WritesInto blockedFiles "out" fs done (gaugeSchema.emit {} blockedFiles "out") ∧
        done <+: fs) ∧
      (gaugeSchema.emit {} blockedFiles "out").outcome =
        .error (.inaccessible "out/Gauge_stub.h") ∧
      (gaugeSchema.emit {} blockedFiles "out").tree.entries.map (·.1.display) =
        ["out", "out/Gauge_stub.h", "out/Gauge.h", "out/Gauge_unmarshal.h",
          "out/Gauge_unmarshal.c"] := by
  have hfault : ∃ m ∈ leakSchema.mainModules, ∃ e, m.module.render {} = .error e :=
    ⟨_, List.getLast_mem (by decide : leakSchema.mainModules ≠ []), _, rfl⟩
  have hrendered : ∀ m ∈ gaugeSchema.mainModules, ∃ fs, m.module.render {} = .ok fs := by
    have hsome : ∀ m ∈ gaugeSchema.mainModules, (m.module.render {}).toOption.isSome := by
      decide +kernel
    intro m hm
    obtain ⟨fs, hfs⟩ := Option.isSome_iff_exists.1 (hsome m hm)
    exact ⟨fs, toOption_eq_some.1 hfs⟩
  obtain ⟨m, hm, e, he⟩ := hfault
  obtain ⟨-, -, -, e', -, -, -, hleak⟩ :=
    (Schema.emission_all_or_first_units {} leakSchema blockedFiles "out").1 m hm e he
  obtain ⟨fs, done, hunits, hdone, hinitial, -⟩ :=
    (Schema.emission_all_or_first_units {} gaugeSchema blockedFiles "out").2 hrendered
  exact ⟨⟨m, hm, e, he⟩, ⟨e', hleak⟩, hrendered, ⟨fs, done, hunits, hdone, hinitial⟩,
    by decide +kernel, by decide +kernel⟩

end WireStub
