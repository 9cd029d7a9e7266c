import WireStub.ScopedName

/-!
# Reading back a scoped name

A scoped name is read back from what is written of it, if it is well formed: its segments are not empty
and have neither colons nor white space at their ends.

* `ScopedName.IsSegment` says it of a segment, and `ScopedName.WellFormed` of all segments of a name;
  `ScopedName.IsPlain` and `ScopedName.AllPlain` exclude white space altogether;
* `ScopedName.pieces_intercalate`: between the separators stand the segments, and
  `ScopedName.eq_of_display_eq` tells names apart by their texts;
* `ScopedName.parse_display` is the conclusion, and `ScopedName.parse_absolute` and
  `ScopedName.isAbsolute_display` say what a leading separator changes.
-/

namespace WireStub

namespace ScopedName

/-- A name that can stand between separators: it is not empty and has no colons, and no white space at
its ends. -/
structure IsSegment (s : String) : Prop where
  nonempty : s ≠ ""
  noColon : ':' ∉ s.toList
  noSpaceFirst : ∀ c ∈ s.toList.head?, Text.isSpace c = false
  noSpaceLast : ∀ c ∈ s.toList.getLast?, Text.isSpace c = false

instance (s : String) : Decidable (IsSegment s) :=
  decidable_of_iff (s ≠ "" ∧ ':' ∉ s.toList ∧ s.toList.head?.any Text.isSpace = false ∧
      s.toList.getLast?.any Text.isSpace = false)
    ⟨fun ⟨h, h', hfirst, hlast⟩ =>
      ⟨h, h', (Option.any_eq_false _ _).1 hfirst, (Option.any_eq_false _ _).1 hlast⟩,
    fun h => ⟨h.nonempty, h.noColon, (Option.any_eq_false _ _).2 h.noSpaceFirst,
      (Option.any_eq_false _ _).2 h.noSpaceLast⟩⟩

/-- All segments can stand between separators. -/
def WellFormed (n : ScopedName) : Prop := ∀ s ∈ n.segments, IsSegment s

instance (n : ScopedName) : Decidable n.WellFormed :=
  inferInstanceAs (Decidable (∀ s ∈ n.segments, IsSegment s))

/-- A name that is not empty and has neither colons nor white space. -/
structure IsPlain (s : String) : Prop where
  nonempty : s ≠ ""
  noColon : ':' ∉ s.toList
  noSpace : ∀ c ∈ s.toList, Text.isSpace c = false

instance (s : String) : Decidable (IsPlain s) :=
  decidable_of_iff (s ≠ "" ∧ ':' ∉ s.toList ∧ s.toList.all fun c => !Text.isSpace c)
    ⟨fun ⟨h, h', h''⟩ => ⟨h, h', by simpa using h''⟩,
      fun h => ⟨h.nonempty, h.noColon, by simpa using h.noSpace⟩⟩

/-- All segments are plain. -/
def AllPlain (n : ScopedName) : Prop := ∀ s ∈ n.segments, IsPlain s

namespace AllPlain

variable {n : ScopedName}

theorem root : AllPlain .root := fun _ hs => nomatch hs

theorem child (hn : n.AllPlain) {s : String} (hs : IsPlain s) : (n.child s).AllPlain := by
  intro s' hs'
  rcases List.mem_append.1 hs' with hs' | hs'
  · exact hn s' hs'
  · exact List.mem_singleton.1 hs' ▸ hs

end AllPlain

theorem IsPlain.isSegment {s : String} (h : IsPlain s) : IsSegment s where
  nonempty := h.nonempty
  noColon := h.noColon
  noSpaceFirst c hc := h.noSpace c (List.mem_of_mem_head? hc)
  noSpaceLast c hc := h.noSpace c (List.mem_of_mem_getLast? hc)

theorem AllPlain.wellFormed {n : ScopedName} (h : n.AllPlain) : n.WellFormed :=
  fun s hs => (h s hs).isSegment

theorem IsSegment.toList_ne_nil {s : String} (h : IsSegment s) : s.toList ≠ [] :=
  fun hnil => h.nonempty (String.toList_eq_nil_iff.1 hnil)

theorem IsSegment.trim {s : String} (h : IsSegment s) : Text.trim s.toList = s.toList :=
  Text.trim_eq_self h.noSpaceFirst h.noSpaceLast

/-! ### Pieces -/

theorem pieces_eq_singleton : ∀ {cs : List Char}, ':' ∉ cs → pieces cs = [cs]
  | [], _ => rfl
  | c :: cs, h => by
    obtain ⟨hc, hcs⟩ := not_or.1 (mt List.mem_cons.2 h)
    rw [pieces, pieces_eq_singleton hcs]
    exact fun _ hcolon => absurd hcolon.symm hc

/-- A piece ends at the first separator. -/
theorem pieces_append : ∀ {cs : List Char}, ':' ∉ cs → ∀ r : List Char,
    pieces (cs ++ ':' :: ':' :: r) = cs :: pieces r
  | [], _, r => rfl
  | c :: cs, h, r => by
    obtain ⟨hc, hcs⟩ := not_or.1 (mt List.mem_cons.2 h)
    rw [List.cons_append, pieces, pieces_append hcs]
    exact fun _ hcolon => absurd hcolon.symm hc

theorem pieces_intercalate : ∀ {css : List (List Char)}, css ≠ [] → (∀ cs ∈ css, ':' ∉ cs) →
    pieces ([':', ':'].intercalate css) = css
  | [], h, _ => absurd rfl h
  | [cs], _, h => by simpa [List.intercalate] using pieces_eq_singleton (h cs List.mem_cons_self)
  | cs :: cs' :: css, _, h => by
    obtain ⟨hcs, hcss⟩ := List.forall_mem_cons.1 h
    have hrest := pieces_intercalate (List.cons_ne_nil cs' css) hcss
    rw [List.intercalate_cons_cons, List.append_assoc]
    exact (pieces_append hcs _).trans (congrArg (cs :: ·) hrest)

/-- Behind one and the same first segment, texts without colons are told apart when they are written. -/
theorem eq_of_display_eq {s : String} {ss ts : List String} (hss : ss ≠ []) (hts : ts ≠ [])
    (hplain : ∀ x ∈ ss, ':' ∉ x.toList) (hplain' : ∀ x ∈ ts, ':' ∉ x.toList)
    (h : (ScopedName.mk (s :: ss)).display = (ScopedName.mk (s :: ts)).display) : ss = ts := by
  have hdisplay {xs : List String} (hxs : xs ≠ []) :
      (ScopedName.mk (s :: xs)).display.toList =
        s.toList ++ [':', ':'] ++ [':', ':'].intercalate (xs.map String.toList) := by
    obtain ⟨x, xs, rfl⟩ := List.exists_cons_of_ne_nil hxs
    rw [display, String.toList_intercalate, List.map_cons, List.map_cons, List.intercalate_cons_cons]
    rfl
  have hpieces {xs : List String} (hxs : xs ≠ []) (hcolon : ∀ x ∈ xs, ':' ∉ x.toList) :
      pieces ([':', ':'].intercalate (xs.map String.toList)) = xs.map String.toList :=
    pieces_intercalate (by simpa using hxs) (by simpa using hcolon)
  have hrest : [':', ':'].intercalate (ss.map String.toList) =
      [':', ':'].intercalate (ts.map String.toList) := by
    have htext := congrArg String.toList h
    rwa [hdisplay hss, hdisplay hts, List.append_cancel_left_eq] at htext
  have hlists := congrArg pieces hrest
  rw [hpieces hss hplain, hpieces hts hplain'] at hlists
  exact (List.map_inj_right fun _ _ => String.toList_inj.1).1 hlists

/-! ### Reading back -/

variable {n : ScopedName}

theorem pieces_display (h : n.WellFormed) (hroot : n.isRoot = false) :
    pieces n.display.toList = n.segments.map String.toList := by
  rw [display, String.toList_intercalate]
  refine pieces_intercalate ?_ fun cs hcs => ?_
  · simpa [isRoot] using hroot
  · obtain ⟨s, hs, rfl⟩ := List.mem_map.1 hcs
    exact (h s hs).noColon

/-- A well-formed name is read back. -/
theorem parse_display (h : n.WellFormed) : parse n.display = n := by
  cases hroot : n.isRoot with
  | true =>
    obtain rfl : n = root := congrArg ScopedName.mk (List.isEmpty_iff.1 hroot)
    rfl
  | false =>
    have htrim : (n.segments.map String.toList).map Text.trim = n.segments.map String.toList := by
      rw [List.map_map]
      exact List.map_congr_left fun s hs => (h s hs).trim
    have hkeep : ∀ cs ∈ n.segments.map String.toList, (!cs.isEmpty) = true := by
      intro cs hcs
      obtain ⟨s, hs, rfl⟩ := List.mem_map.1 hcs
      simpa using (h s hs).nonempty
    rw [parse, pieces_display h hroot, htrim, List.filter_eq_self.2 hkeep, List.map_map]
    simp [Function.comp_def]

/-- A written well-formed name does not start with a separator. -/
theorem isAbsolute_display (h : n.WellFormed) (hroot : n.isRoot = false) :
    isAbsolute n.display = false := by
  obtain ⟨_ | ⟨s, segments⟩⟩ := n
  · cases hroot
  have hs := h s List.mem_cons_self
  obtain ⟨c, cs, hcs⟩ := List.exists_cons_of_ne_nil hs.toList_ne_nil
  have hcolon : ':' ≠ c := fun hc => hs.noColon (hcs ▸ hc ▸ List.mem_cons_self)
  have hspace : Text.isSpace c = false := hs.noSpaceFirst c (by simp [hcs])
  -- the first character of the name is that of its first segment
  obtain ⟨rest, hrest⟩ : ∃ rest, (ScopedName.mk (s :: segments)).display.toList = c :: rest := by
    rw [display, String.toList_intercalate]
    cases segments with
    | nil => exact ⟨cs, by simpa using hcs⟩
    | cons s' segments =>
      rw [List.map_cons, List.map_cons, List.intercalate_cons_cons, hcs]
      exact ⟨_, rfl⟩
  have htrim : Text.trimStart (c :: rest) = c :: rest :=
    Text.trimStart_eq_self fun _ hfirst => Option.some.inj hfirst ▸ hspace
  rw [isAbsolute, hrest, htrim]
  simp [List.isPrefixOf, hcolon]

/-! A separator put before a text makes it start at the root, and the path stays the same. -/

theorem parse_absolute (s : String) : parse ("::" ++ s) = parse s := by
  have hpieces : pieces ("::" ++ s).toList = [] :: pieces s.toList := by
    rw [String.toList_append]
    rfl
  rw [parse, parse, hpieces, List.map_cons, List.filter_cons_of_neg (by decide)]

theorem isAbsolute_absolute (s : String) : isAbsolute ("::" ++ s) = true := by
  have htrim : Text.trimStart ("::" ++ s).toList = ':' :: ':' :: s.toList := by
    rw [String.toList_append]
    rfl
  rw [isAbsolute, htrim]
  simp [List.isPrefixOf]

end ScopedName

end WireStub
