import Mathlib.Data.List.Basic
import Mathlib.Tactic.SplitIfs
import WireStub.FileTree

/-!
# Following paths through a tree that is written to

A path text leads to a file by way of directories.  What is written to a tree changes one place, which
was no directory, so the path texts that led somewhere lead there still.

* `Path.components_joinText` and `Path.components_append` split a path text at its slashes;
* `FileTree.Extends` compares a tree with a later one, and `FileTree.Extends.resolve?` follows a path
  text in both;
* `FileTree.write?_eq_some` says all that a write does;
* `FileTree.AddsDirectories` is all that the making of directories does, and
  `FileTree.exists_resolve?_of_makeDirs` says that it leads to a directory;
* `FileTree.resolve?_joinText` follows the path text of a file by way of its directory;
* `FileTree.Found` are the places that path texts lead to, and every place that is found along one has
  a path text from the root: `FileTree.Found.exists_resolve?`.
-/

namespace WireStub

namespace Path

theorem splitSlash_ne_nil (cs : List Char) : splitSlash cs ≠ [] := by
  fun_cases splitSlash cs <;> simp_all

/-- No part of a path text holds a slash. -/
theorem not_mem_of_mem_splitSlash {cs part : List Char} (h : part ∈ splitSlash cs) : '/' ∉ part := by
  induction cs generalizing part with
  | nil =>
    rw [List.mem_singleton.1 h]
    exact List.not_mem_nil
  | cons c cs ih =>
    obtain ⟨first, rest, hsplit⟩ := List.exists_cons_of_ne_nil (splitSlash_ne_nil cs)
    rw [hsplit] at ih
    simp only [splitSlash, hsplit] at h
    split at h
    · rcases List.mem_cons.1 h with rfl | h
      · exact List.not_mem_nil
      · exact ih h
    · rename_i hc
      rcases List.mem_cons.1 h with rfl | h
      · rw [List.mem_cons, not_or]
        exact ⟨fun heq => hc (by rw [heq, beq_self_eq_true]), ih List.mem_cons_self⟩
      · exact ih (List.mem_cons_of_mem _ h)

theorem splitSlash_eq_singleton {cs : List Char} (h : '/' ∉ cs) : splitSlash cs = [cs] := by
  induction cs with
  | nil => rfl
  | cons c cs ih =>
    obtain ⟨hc, hcs⟩ := not_or.1 (mt List.mem_cons.2 h)
    simp [splitSlash, ih hcs, Ne.symm hc]

/-- A slash separates the parts before it from those behind it. -/
theorem splitSlash_append_slash (xs ys : List Char) :
    splitSlash (xs ++ '/' :: ys) = splitSlash xs ++ splitSlash ys := by
  induction xs with
  | nil =>
    obtain ⟨p, ps, h⟩ := List.exists_cons_of_ne_nil (splitSlash_ne_nil ys)
    simp [splitSlash, h]
  | cons c xs ih =>
    obtain ⟨p, ps, h⟩ := List.exists_cons_of_ne_nil (splitSlash_ne_nil xs)
    simp only [List.cons_append, splitSlash, ih, h]
    split <;> rfl

/-- Letters without a slash belong to the last part. -/
theorem splitSlash_append (xs : List Char) {ys : List Char} (hys : '/' ∉ ys) :
    ∃ parts last, splitSlash xs = parts ++ [last] ∧
      splitSlash (xs ++ ys) = parts ++ [last ++ ys] := by
  induction xs with
  | nil => exact ⟨[], [], rfl, splitSlash_eq_singleton hys⟩
  | cons c xs ih =>
    obtain ⟨parts, last, hxs, hboth⟩ := ih
    cases parts with
    | nil =>
      simp only [List.nil_append] at hxs hboth
      by_cases hc : c = '/'
      · exact ⟨[[]], last, by simp [splitSlash, hxs, hc], by simp [splitSlash, hboth, hc]⟩
      · exact ⟨[], c :: last, by simp [splitSlash, hxs, hc], by simp [splitSlash, hboth, hc]⟩
    | cons p parts =>
      by_cases hc : c = '/'
      · exact ⟨[] :: p :: parts, last, by simp [splitSlash, hxs, hc],
          by simp [splitSlash, hboth, hc]⟩
      · exact ⟨(c :: p) :: parts, last, by simp [splitSlash, hxs, hc],
          by simp [splitSlash, hboth, hc]⟩

theorem components_eq_singleton {name : String} (h : '/' ∉ name.toList) :
    components name = [name] := by
  simp [components, splitSlash_eq_singleton h]

theorem components_ne_nil (text : String) : components text ≠ [] := by
  simp [components, splitSlash_ne_nil]

theorem isAbsolute_append {a : String} (ha : a ≠ "") (b : String) :
    isAbsolute (a ++ b) = isAbsolute a := by
  obtain ⟨c, cs, hcs⟩ := List.exists_cons_of_ne_nil (mt String.toList_eq_nil_iff.1 ha)
  simp [isAbsolute, hcs]

theorem isAbsolute_eq_false {name : String} (h : '/' ∉ name.toList) : isAbsolute name = false := by
  rw [isAbsolute, beq_eq_false_iff_ne]
  exact fun hhead => h (List.mem_of_head? hhead)

theorem joinText_of_isAbsolute {name : String} (h : isAbsolute name = true) (dir : String) :
    joinText dir name = name := by
  rw [joinText, h, Bool.true_or, if_pos rfl]

theorem isAbsolute_joinText {name : String} (h : isAbsolute name = false) (dir : String) :
    isAbsolute (joinText dir name) = isAbsolute dir := by
  unfold joinText
  split
  · rename_i hdir
    rw [h, Bool.false_or, String.isEmpty_iff] at hdir
    rw [h, hdir]
    rfl
  · rename_i hdir
    simp only [h, Bool.false_or, String.isEmpty_iff] at hdir
    split
    · exact isAbsolute_append hdir name
    · rw [String.append_assoc, isAbsolute_append hdir]

theorem start_root (text : String) : root.start text = root := by
  rw [start]
  split <;> rfl

/-- The parts of a path text in a directory are those of the directory, without an empty last one, and
then those of the text. -/
theorem components_joinText (dir : String) :
    ∃ front, (components dir = front ∨ components dir = front ++ [""]) ∧
      ∀ name : String, isAbsolute name = false →
        components (joinText dir name) = front ++ components name := by
  by_cases hdir : dir.isEmpty
  · obtain rfl := String.isEmpty_iff.1 hdir
    exact ⟨[], .inr rfl, fun name _ => by simp [joinText]⟩
  by_cases hslash : dir.toList.getLast? = some '/'
  · -- the directory ends in a slash itself
    obtain ⟨cs, hcs⟩ := List.getLast?_eq_some_iff.1 hslash
    refine ⟨(splitSlash cs).map String.ofList, .inr ?_, fun name h => ?_⟩
    · simp [components, hcs, splitSlash_append_slash, splitSlash]
    · simp [joinText, h, hdir, components, hcs, splitSlash_append_slash]
  · refine ⟨components dir, .inl rfl, fun name h => ?_⟩
    simp [joinText, h, hdir, hslash, components, splitSlash_append_slash]

theorem child_inj {p q : Path} {m n : String} : p.child m = q.child n ↔ p = q ∧ m = n := by
  cases p
  cases q
  simp [child, and_comm, List.append_singleton_inj]

/-- File names without slashes are told apart by their path texts. -/
theorem eq_of_joinText_eq {dir m n : String} (hm : '/' ∉ m.toList) (hn : '/' ∉ n.toList)
    (h : joinText dir m = joinText dir n) : m = n := by
  obtain ⟨front, -, hfront⟩ := components_joinText dir
  have hparts : front ++ components m = front ++ components n := by
    rw [← hfront m (isAbsolute_eq_false hm), h, hfront n (isAbsolute_eq_false hn)]
  simpa [components_eq_singleton hm, components_eq_singleton hn] using hparts

/-- The parts of a path text before its last slash. -/
def folders (text : String) : List String := (components text).dropLast

/-- The part of a path text behind its last slash. -/
def baseName (text : String) : String := (components text).getLastD ""

/-- Letters without a slash belong to the part behind the last slash. -/
theorem components_append (text : String) {s : String} (hs : '/' ∉ s.toList) :
    components (text ++ s) = folders text ++ [baseName text ++ s] := by
  obtain ⟨parts, last, htext, hboth⟩ := splitSlash_append text.toList hs
  simp [folders, baseName, components, htext, hboth]

theorem folders_eq_nil {text : String} (h : '/' ∉ text.toList) : folders text = [] := by
  rw [folders, components_eq_singleton h]
  rfl

end Path

namespace FileTree

/-- The text of the file that a path text leads to. -/
def textAt? (t : FileTree) (text : String) : Option String :=
  (t.resolve? .root text).bind t.readText?

theorem entry?_child (t : FileTree) (p : Path) (n : String) :
    t.entry? (p.child n) = t.entries.lookup (p.child n) := by
  unfold entry?
  simp [Path.child]

/-- What is put at the place of an entry is there, and nothing else has changed. -/
theorem entry?_put (t : FileTree) (p : Path) (n : String) (e : FileEntry) (q : Path) :
    FileTree.entry? (t.put (p.child n) e) q = if q = p.child n then some e else t.entry? q := by
  by_cases hq : q = p.child n
  · rw [if_pos hq, hq, entry?_child, put, Keyed.lookup_put, if_pos rfl]
  · rw [if_neg hq, entry?, entry?, put, Keyed.lookup_put, if_neg hq]

/-- The parts of a path are followed one after the other. -/
theorem walk?_cons (t : FileTree) (p : Path) (n : String) (ns : List String) :
    t.walk? p (n :: ns) = (t.walk? p [n]).bind (t.walk? · ns) := by
  simp only [walk?]
  split_ifs <;> rfl

theorem walk?_append (t : FileTree) (p : Path) (ns ms : List String) :
    t.walk? p (ns ++ ms) = (t.walk? p ns).bind (t.walk? · ms) := by
  induction ns generalizing p with
  | nil => rfl
  | cons n ns ih =>
    rw [List.cons_append, walk?_cons, walk?_cons t p n ns, Option.bind_assoc]
    exact congrArg _ (funext fun q => ih q)

/-- A part that is not special leads to the entry with its name. -/
theorem walk?_name {t : FileTree} {p q : Path} {n : String} (hn : n ∉ ["", ".", ".."]) :
    t.walk? p [n] = some q ↔
      t.isDirectory p ∧ (t.entry? (p.child n)).isSome ∧ q = p.child n := by
  simp only [List.mem_cons, List.not_mem_nil, or_false, not_or] at hn
  obtain ⟨hempty, hdot, hback⟩ := hn
  by_cases hdir : t.isDirectory p <;> by_cases hentry : (t.entry? (p.child n)).isSome <;>
    simp [walk?, hempty, hdot, hback, hdir, hentry, eq_comm (a := q)]

/-- What exists in a tree exists in another one, and directories are directories there. -/
structure Extends (t t' : FileTree) : Prop where
  isDirectory : ∀ p, t.isDirectory p → t'.isDirectory p
  exists_entry : ∀ p, (t.entry? p).isSome → (t'.entry? p).isSome

namespace Extends

variable {t t' t'' : FileTree}

theorem refl (t : FileTree) : t.Extends t := ⟨fun _ => id, fun _ => id⟩

theorem trans (h : t.Extends t') (h' : t'.Extends t'') : t.Extends t'' :=
  ⟨fun p => h'.isDirectory p ∘ h.isDirectory p, fun p => h'.exists_entry p ∘ h.exists_entry p⟩

/-- An entry that is put where no directory is hides nothing. -/
theorem put {p : Path} {n : String} (h : t.isDirectory (p.child n) = false) (e : FileEntry) :
    t.Extends (t.put (p.child n) e) := by
  refine ⟨fun q hq => ?_, fun q hq => ?_⟩
  · have hne : q ≠ p.child n := fun heq => by simp [heq, h] at hq
    rwa [FileTree.isDirectory, entry?_put, if_neg hne]
  · rw [entry?_put]
    split
    · rfl
    · exact hq

theorem walk?_part (h : t.Extends t') {p q : Path} {n : String}
    (hq : t.walk? p [n] = some q) : t'.walk? p [n] = some q := by
  simp only [FileTree.walk?] at hq ⊢
  split_ifs at hq ⊢ <;> simp_all [h.isDirectory, h.exists_entry]

/-- Parts of a path that lead somewhere lead there still. -/
theorem walk? (h : t.Extends t') {p q : Path} {ns : List String}
    (hq : t.walk? p ns = some q) : t'.walk? p ns = some q := by
  induction ns generalizing p with
  | nil => exact hq
  | cons n ns ih =>
    rw [walk?_cons, Option.bind_eq_some_iff] at hq ⊢
    obtain ⟨r, hr, hq⟩ := hq
    exact ⟨r, h.walk?_part hr, ih hq⟩

/-- A path text that leads somewhere leads there still. -/
theorem resolve? (h : t.Extends t') {p q : Path} {text : String}
    (hq : t.resolve? p text = some q) : t'.resolve? p text = some q := by
  exact h.walk? hq

end Extends

/-- Empty last parts of a path text stay at a directory. -/
theorem walk?_empty {t : FileTree} {p : Path} (h : t.isDirectory p) : t.walk? p [""] = some p := by
  simp [walk?, h]

/-- Only in a directory can parts be followed. -/
theorem isDirectory_of_walk? {t : FileTree} {p q : Path} {ns : List String} (hns : ns ≠ [])
    (h : t.walk? p ns = some q) : t.isDirectory p := by
  obtain ⟨n, ns, rfl⟩ := List.exists_cons_of_ne_nil hns
  rw [walk?] at h
  split at h
  · cases h
  · rename_i hdir
    simpa using hdir

/-- An absolute path text is followed from the root, whatever directory it is joined to. -/
theorem resolve?_joinText_of_isAbsolute {t : FileTree} {p : Path} {dir name : String}
    (h : Path.isAbsolute name = true) :
    t.resolve? p (Path.joinText dir name) = t.walk? .root (Path.components name) := by
  rw [Path.joinText_of_isAbsolute h, resolve?, Path.start, if_pos h]

/-- Any other one is followed from where the text of the directory leads to. -/
theorem resolve?_joinText {t : FileTree} {p q : Path} {dir name : String}
    (h : Path.isAbsolute name = false) :
    t.resolve? p (Path.joinText dir name) = some q ↔
      ∃ d, t.resolve? p dir = some d ∧ t.walk? d (Path.components name) = some q := by
  obtain ⟨front, hfront, hparts⟩ := Path.components_joinText dir
  have hstart : p.start (Path.joinText dir name) = p.start dir := by
    rw [Path.start, Path.start, Path.isAbsolute_joinText h]
  simp only [resolve?, hstart, hparts name h, walk?_append, Option.bind_eq_some_iff]
  refine exists_congr fun d => and_congr_left fun hd => ?_
  have hisdir := isDirectory_of_walk? (Path.components_ne_nil name) hd
  rcases hfront with hfront | hfront
  · rw [hfront]
  · rw [hfront, walk?_append, Option.bind_eq_some_iff]
    constructor
    · exact fun h => ⟨d, h, walk?_empty hisdir⟩
    · rintro ⟨d', hd', hstay⟩
      have hd'dir := isDirectory_of_walk? (List.cons_ne_nil _ _) hstay
      cases (walk?_empty hd'dir).symm.trans hstay
      exact hd'

/-- From a directory that is found, any path text is followed as if it were joined to it. -/
theorem resolve?_joinText_of_resolve? {t : FileTree} {p q d : Path} {dir : String}
    (hd : t.resolve? p dir = some d) (name : String) :
    t.resolve? p (Path.joinText dir name) = some q ↔ t.resolve? d name = some q := by
  cases hname : Path.isAbsolute name with
  | true => rw [resolve?_joinText_of_isAbsolute hname, resolve?, Path.start, if_pos hname]
  | false =>
    have hd' : t.resolve? d name = t.walk? d (Path.components name) := by
      rw [resolve?, Path.start, hname, if_neg Bool.false_ne_true]
    rw [resolve?_joinText hname, hd']
    constructor
    · rintro ⟨e, he, hq⟩
      cases hd.symm.trans he
      exact hq
    · exact fun hq => ⟨d, hd, hq⟩

/-- File names without slashes are told apart by the places that they have in a directory. -/
theorem eq_of_resolve?_joinText {t : FileTree} {p q : Path} {dir m n : String} (hm : '/' ∉ m.toList)
    (hn : '/' ∉ n.toList) (hm' : m ∉ ["", ".", ".."]) (hn' : n ∉ ["", ".", ".."])
    (hp : t.resolve? p (Path.joinText dir m) = some q)
    (hq : t.resolve? p (Path.joinText dir n) = some q) : m = n := by
  obtain ⟨d, hd, hp⟩ := (resolve?_joinText (Path.isAbsolute_eq_false hm)).1 hp
  obtain ⟨d', hd', hq⟩ := (resolve?_joinText (Path.isAbsolute_eq_false hn)).1 hq
  cases hd.symm.trans hd'
  rw [Path.components_eq_singleton hm, walk?_name hm'] at hp
  rw [Path.components_eq_singleton hn, walk?_name hn'] at hq
  exact (Path.child_inj.1 (hp.2.2.symm.trans hq.2.2)).2

/-- A write puts the file where its path text leads to from then on, leaves all other places as they
were, and hides nothing. -/
theorem write?_eq_some {t t' : FileTree} {text : String} {e : FileEntry}
    (h : t.write? text e = some t') :
    t.Extends t' ∧ ∃ p, t'.resolve? .root text = some p ∧ t'.entry? p = some e ∧
      ∀ q, q ≠ p → t'.entry? q = t.entry? q := by
  rw [write?] at h
  split at h
  · cases h
  simp only at h
  split at h
  case h_2 => cases h
  rename_i dir n hdir hn
  split at h
  case isFalse => cases h
  rename_i hfree
  cases h
  simp only [Bool.and_eq_true, Bool.not_eq_true'] at hfree
  obtain ⟨⟨hisdir, hname⟩, hfree⟩ := hfree
  have hext : t.Extends (t.put (dir.child n) e) := .put hfree e
  have hentry : FileTree.entry? (t.put (dir.child n) e) (dir.child n) = some e := by
    rw [entry?_put, if_pos rfl]
  refine ⟨hext, dir.child n, ?_, hentry, fun q hq => by rw [entry?_put, if_neg hq]⟩
  have hspecial : n ∉ ["", ".", ".."] := by
    simp only [isFileName, Bool.and_eq_true, bne_iff_ne] at hname
    simp [hname]
  have hparts : Path.components text = (Path.components text).dropLast ++ [n] :=
    (List.dropLast_append_getLast? n hn).symm
  rw [resolve?, Path.start_root, hparts, walk?_append, hext.walk? hdir, Option.bind_some,
    walk?_name hspecial]
  exact ⟨hext.isDirectory dir hisdir, by rw [hentry]; rfl, rfl⟩

/-! ### New directories -/

/-- A tree is another one with more directories. -/
def AddsDirectories (t t' : FileTree) : Prop :=
  ∀ q, t'.entry? q = t.entry? q ∨ t.entry? q = none ∧ t'.entry? q = some .directory

namespace AddsDirectories

variable {t t' t'' : FileTree}

theorem refl (t : FileTree) : t.AddsDirectories t := fun _ => .inl rfl

theorem trans (h : t.AddsDirectories t') (h' : t'.AddsDirectories t'') :
    t.AddsDirectories t'' := by
  intro q
  rcases h' q with heq | ⟨hnone, hnew⟩
  · rw [heq]
    exact h q
  · rcases h q with heq | ⟨-, hnew'⟩
    · exact .inr ⟨heq ▸ hnone, hnew⟩
    · rw [hnone] at hnew'
      cases hnew'

theorem put {p : Path} {n : String} (h : t.entry? (p.child n) = none) :
    t.AddsDirectories (t.put (p.child n) .directory) := by
  intro q
  rw [entry?_put]
  split
  · rename_i hq
    exact .inr ⟨hq ▸ h, rfl⟩
  · exact .inl rfl

end AddsDirectories

theorem addsDirectories_makeAlong (t : FileTree) (p : Path) (ns : List String) :
    t.AddsDirectories (t.makeAlong p ns).1 := by
  fun_induction makeAlong t p ns with
  | case1 => exact .refl _
  | case2 _ _ _ _ _ ih => exact ih
  | case3 _ _ _ _ _ _ ih => exact ih
  | case4 _ _ _ _ _ _ _ ih => exact ih
  | case5 => exact .refl _
  | case6 _ _ _ _ _ _ hfree _ ih => exact (AddsDirectories.put hfree).trans ih
  | case7 => exact .refl _

/-- Making directories does nothing else, also when it fails. -/
theorem addsDirectories_makeDirs (t : FileTree) (text : String) :
    t.AddsDirectories (t.makeDirs text).1 := by
  rw [makeDirs]
  split
  · exact .refl _
  · exact addsDirectories_makeAlong _ _ _

theorem AddsDirectories.tree_extends {t t' : FileTree} (h : t.AddsDirectories t') : t.Extends t' := by
  refine ⟨fun q hq => ?_, fun q hq => ?_⟩
  · rcases h q with heq | ⟨-, hnew⟩
    · rwa [isDirectory, heq]
    · rw [isDirectory, hnew, beq_self_eq_true]
  · rcases h q with heq | ⟨-, hnew⟩
    · rwa [heq]
    · rw [hnew]
      rfl

theorem extends_of_makeAlong {t t' : FileTree} {p : Path} {ns : List String} {made : Bool}
    (h : t.makeAlong p ns = (t', made)) : t.Extends t' := by
  have hadds := addsDirectories_makeAlong t p ns
  rw [h] at hadds
  exact hadds.tree_extends

/-- A place and all that lie around it are directories. -/
def Opens (t : FileTree) (p : Path) : Prop := ∀ q : Path, q.names <+: p.names → t.isDirectory q

namespace Opens

variable {t t' : FileTree} {p : Path}

theorem root (t : FileTree) : t.Opens .root := by
  intro q hq
  rw [isDirectory, entry?, List.prefix_nil.1 hq]
  rfl

theorem isDirectory (h : t.Opens p) : t.isDirectory p := h p (List.prefix_refl _)

theorem parent (h : t.Opens p) : t.Opens p.parent :=
  fun q hq => h q (hq.trans (List.dropLast_prefix _))

theorem child (h : t.Opens p) {n : String} (hn : t.isDirectory (p.child n)) : t.Opens (p.child n) := by
  intro q hq
  rcases List.prefix_concat_iff.1 hq with hq | hq
  · obtain rfl : q = p.child n := congrArg Path.mk hq
    exact hn
  · exact h q hq

theorem tree_extends (h : t.Opens p) (ht : t.Extends t') : t'.Opens p :=
  fun q hq => ht.isDirectory q (h q hq)

end Opens

/-- Parts along which all directories are made lead somewhere. -/
theorem exists_walk?_of_makeAlong {t t' : FileTree} {p : Path} {ns : List String} (hp : t.Opens p)
    (h : t.makeAlong p ns = (t', true)) : ∃ q, t'.walk? p ns = some q := by
  have hext := extends_of_makeAlong h
  have hdir := (hp.tree_extends hext).isDirectory
  fun_induction makeAlong t p ns with
  | case1 => exact ⟨_, rfl⟩
  | case2 t p n ns hstay ih =>
    simpa [walk?, hdir, hstay] using ih hp h hext hdir
  | case3 t p n ns hstay hback ih =>
    have hopen := hp.parent
    simpa [walk?, hdir, hstay, hback] using
      ih hopen h hext (hopen.tree_extends hext).isDirectory
  | case4 t p n ns hstay hback hentry ih =>
    have hopen := hp.child (n := n) (by rw [isDirectory, hentry, beq_self_eq_true])
    have hsome := hext.exists_entry (p.child n) (by rw [hentry]; rfl)
    simpa [walk?, hdir, hstay, hback, hsome] using
      ih hopen h hext (hopen.tree_extends hext).isDirectory
  | case5 => cases h
  | case6 t p n ns hstay hback hfree hname ih =>
    -- the new directory is there, and what comes behind it only adds more
    have hput := (AddsDirectories.put (n := n) hfree).tree_extends
    have hnew : FileTree.isDirectory (t.put (p.child n) .directory) (p.child n) := by
      rw [isDirectory, entry?_put, if_pos rfl, beq_self_eq_true]
    have hopen := (hp.tree_extends hput).child hnew
    have hrest := extends_of_makeAlong h
    have hsome := (hopen.tree_extends hrest).isDirectory
    have hentry : (t'.entry? (p.child n)).isSome := by
      rw [eq_of_beq hsome]
      rfl
    simpa [walk?, hdir, hstay, hback, hentry] using ih hopen h hrest hsome
  | case7 => cases h

/-- A path text whose directories are made leads somewhere. -/
theorem exists_resolve?_of_makeDirs {t t' : FileTree} {text : String}
    (h : t.makeDirs text = (t', true)) : ∃ p, t'.resolve? .root text = some p := by
  rw [makeDirs] at h
  split at h
  · cases h
  · rw [resolve?, Path.start_root]
    exact exists_walk?_of_makeAlong (.root t) h

/-! ### Found places -/

/-- The places that path texts lead to: from the root, entry by entry, by names that are no special
parts. -/
inductive Found (t : FileTree) : Path → Prop
  | root : Found t .root
  | child {p : Path} {n : String} : Found t p → t.isDirectory p → (t.entry? (p.child n)).isSome →
      n ∉ ["", ".", ".."] → '/' ∉ n.toList → Found t (p.child n)

namespace Found

variable {t : FileTree} {p q : Path}

theorem parent (h : t.Found p) : t.Found p.parent := by
  cases h with
  | root => exact .root
  | @child p n hp =>
    have hparent : (p.child n).parent = p := by simp [Path.parent, Path.child]
    rwa [hparent]

/-- What is found from a found place. -/
theorem walk? (h : t.Found p) {ns : List String} (hns : ∀ n ∈ ns, '/' ∉ n.toList)
    (hq : t.walk? p ns = some q) : t.Found q := by
  induction ns generalizing p with
  | nil =>
    cases hq
    exact h
  | cons n ns ih =>
    have hrest : ∀ m ∈ ns, '/' ∉ m.toList := fun m hm => hns m (List.mem_cons_of_mem n hm)
    simp only [FileTree.walk?] at hq
    split_ifs at hq with hdir hstay hback hentry
    · exact ih h hrest hq
    · exact ih h.parent hrest hq
    · rw [Bool.not_eq_true', Bool.not_eq_false] at hdir
      simp only [Bool.or_eq_true, beq_iff_eq, not_or] at hstay hback
      exact ih (.child h hdir hentry (by simp [hstay, hback]) (hns n List.mem_cons_self)) hrest hq

theorem resolve? (h : t.Found p) {text : String} (hq : t.resolve? p text = some q) : t.Found q := by
  have hstart : t.Found (p.start text) := by
    rw [Path.start]
    split
    · exact .root
    · exact h
  refine hstart.walk? (fun n hn => ?_) hq
  obtain ⟨part, hpart, rfl⟩ := List.mem_map.1 hn
  rw [String.toList_ofList]
  exact Path.not_mem_of_mem_splitSlash hpart

/-- A found place has a path text from the root. -/
theorem exists_resolve? (h : t.Found p) : ∃ text, t.resolve? .root text = some p := by
  induction h with
  | root => exact ⟨"", rfl⟩
  | @child p n _ hdir hentry hn hslash ih =>
    obtain ⟨text, htext⟩ := ih
    have hparts : Path.components (text ++ "/" ++ n) = Path.components text ++ [n] := by
      simp [Path.components, Path.splitSlash_append_slash, Path.splitSlash_eq_singleton hslash]
    refine ⟨text ++ "/" ++ n, ?_⟩
    rw [FileTree.resolve?, Path.start_root] at htext ⊢
    rw [hparts, walk?_append, htext, Option.bind_some, walk?_name hn]
    exact ⟨hdir, hentry, rfl⟩

end Found

end FileTree

end WireStub
