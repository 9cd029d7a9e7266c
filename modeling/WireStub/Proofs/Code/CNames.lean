import Mathlib.Data.List.Basic
import WireStub.Code.Codec
import WireStub.Proofs.Code.Identifier

/-!
# C names

The C name of a path is what is left when its segments are joined by underscores.  Where the segments
end is not written in it: the underscores of a segment look like those between two segments.  So a C
name tells the *words* of the path, the texts between all underscores, and nothing more.

* `Identifier.IsValid` says that a text is an identifier of C;
* `Identifier.splitOn_ofScopedName` reads the words of a path off its C name, and
  `Identifier.ofScopedName_eq_iff` compares two C names;
* `ScopedName.eq_of_words_eq`: without underscores in the segments, the words are the path;
* `Half.functionName_eq_iff` compares the names of two codec functions.
-/

namespace WireStub

namespace Identifier

/-- An identifier of C: letters, digits and underscores, and no digit at the beginning. -/
structure IsValid (s : String) : Prop where
  nonempty : s ≠ ""
  wordChars : s.toList.all isWordChar = true
  noDigit : s.toList.head?.any (·.isDigit) = false

instance (s : String) : Decidable (IsValid s) :=
  decidable_of_iff
    (s ≠ "" ∧ s.toList.all isWordChar = true ∧ s.toList.head?.any (·.isDigit) = false)
    ⟨fun ⟨h, h', h''⟩ => ⟨h, h', h''⟩, fun h => ⟨h.nonempty, h.wordChars, h.noDigit⟩⟩

/-- An identifier has no foreign character in it. -/
theorem IsValid.not_mem {s : String} (h : IsValid s) {c : Char} (hc : isWordChar c = false) :
    c ∉ s.toList := by
  intro hmem
  cases hc.symm.trans (List.all_eq_true.1 h.wordChars c hmem)

/-- No identifier needs to be flattened. -/
theorem IsValid.flattenSegment {s : String} (h : IsValid s) : flattenSegment s = s := by
  have hkeep : ∀ c ∈ s.toList, (if c == '<' || c == '>' || c == ':' then '_' else c) = c := by
    intro c hc
    split
    · rename_i hforeign
      simp only [Bool.or_eq_true, beq_iff_eq] at hforeign
      rcases hforeign with (rfl | rfl) | rfl <;> exact absurd hc (h.not_mem rfl)
    · rfl
  rw [Identifier.flattenSegment, List.map_congr_left hkeep, List.map_id', String.ofList_toList]

/-- Between the underscores of a joined text stand the words of its parts. -/
theorem splitOn_intercalate_underscore : ∀ {css : List (List Char)}, css ≠ [] →
    (['_'].intercalate css).splitOn '_' = css.flatMap (·.splitOn '_')
  | [], h => absurd rfl h
  | [cs], _ => by simp
  | cs :: cs' :: css, _ => by
    have hrest := splitOn_intercalate_underscore (List.cons_ne_nil cs' css)
    rw [List.intercalate_cons_cons, List.append_assoc, List.singleton_append,
      List.splitOn_append_cons_self, hrest]
    rfl

/-- Joining texts adds no character but those of the separator. -/
theorem mem_intercalate {c : Char} {sep : List Char} : ∀ {css : List (List Char)},
    c ∈ sep.intercalate css → c ∈ sep ∨ ∃ cs ∈ css, c ∈ cs
  | [], h => by simp at h
  | [cs], h => .inr ⟨cs, List.mem_cons_self, by simpa using h⟩
  | cs :: cs' :: css, h => by
    rw [List.intercalate_cons_cons, List.append_assoc, List.mem_append, List.mem_append] at h
    rcases h with h | h | h
    · exact .inr ⟨cs, List.mem_cons_self, h⟩
    · exact .inl h
    · exact (mem_intercalate h).imp_right fun ⟨d, hd, hc⟩ => ⟨d, List.mem_cons_of_mem _ hd, hc⟩

end Identifier

namespace ScopedName

/-- All segments are identifiers of C. -/
def AllValid (n : ScopedName) : Prop := ∀ s ∈ n.segments, Identifier.IsValid s

/-- The words of a path: the texts between the underscores of its segments. -/
def words (n : ScopedName) : List (List Char) := n.segments.flatMap (·.toList.splitOn '_')

/-- Without underscores, the words of a path are its segments. -/
theorem words_eq_segments {n : ScopedName} (h : ∀ s ∈ n.segments, '_' ∉ s.toList) :
    n.words = n.segments.map String.toList := by
  rw [words, List.map_eq_flatMap]
  exact List.flatMap_congr fun s hs => List.splitOn_eq_singleton (h s hs)

theorem eq_of_words_eq {p q : ScopedName} (hp : ∀ s ∈ p.segments, '_' ∉ s.toList)
    (hq : ∀ s ∈ q.segments, '_' ∉ s.toList) (h : p.words = q.words) : p = q := by
  rw [words_eq_segments hp, words_eq_segments hq] at h
  have hinj : Function.Injective String.toList := fun _ _ => String.toList_inj.1
  exact congrArg ScopedName.mk (List.map_injective_iff.2 hinj h)

end ScopedName

open ScopedName

namespace Identifier

variable {p q : ScopedName}

theorem toList_ofScopedName (h : p.AllValid) :
    (ofScopedName p).toList = ['_'].intercalate (p.segments.map String.toList) := by
  have hflatten : p.segments.map flattenSegment = p.segments := by
    rw [List.map_congr_left fun s hs => (h s hs).flattenSegment, List.map_id']
  rw [ofScopedName, hflatten, String.toList_intercalate]
  rfl

/-- In the C name of what is declared in a scope, an underscore stands behind the scope. -/
theorem ofScopedName_child (h : p.isRoot = false) (s : String) :
    ofScopedName (p.child s) = ofScopedName p ++ ("_" ++ flattenSegment s) := by
  have hne : p.segments.map flattenSegment ≠ [] := by simpa [isRoot] using h
  rw [ofScopedName, segments_child, List.map_append, List.map_singleton,
    String.intercalate_append_of_ne_nil hne (List.cons_ne_nil _ _), String.intercalate_singleton,
    String.append_assoc]
  rfl

/-- The words of a C name are those of the path. -/
theorem splitOn_ofScopedName (h : p.AllValid) (hroot : p.isRoot = false) :
    (ofScopedName p).toList.splitOn '_' = p.words := by
  have hne : p.segments.map String.toList ≠ [] := by simpa [isRoot] using hroot
  rw [toList_ofScopedName h, splitOn_intercalate_underscore hne, List.flatMap_map]
  rfl

/-- Two paths have the same C name exactly if they have the same words. -/
theorem ofScopedName_eq_iff (hp : p.AllValid) (hq : q.AllValid) (hproot : p.isRoot = false)
    (hqroot : q.isRoot = false) : ofScopedName p = ofScopedName q ↔ p.words = q.words := by
  constructor
  · intro h
    rw [← splitOn_ofScopedName hp hproot, h, splitOn_ofScopedName hq hqroot]
  · intro h
    rw [← splitOn_ofScopedName hp hproot, ← splitOn_ofScopedName hq hqroot] at h
    have hjoined := congrArg (['_'].intercalate ·) h
    simpa only [List.intercalate_splitOn, String.toList_inj] using hjoined

theorem space_not_mem_ofScopedName (h : p.AllValid) : ' ' ∉ (ofScopedName p).toList := by
  intro hspace
  rw [toList_ofScopedName h] at hspace
  rcases mem_intercalate hspace with hspace | ⟨cs, hcs, hspace⟩
  · exact absurd (List.mem_singleton.1 hspace) (by decide)
  · obtain ⟨s, hs, rfl⟩ := List.mem_map.1 hcs
    exact (h s hs).not_mem rfl hspace

end Identifier

/-- Without spaces, codec functions are named after the type. -/
theorem CType.codecPrefix_eq_name {c : CType} (h : ' ' ∉ c.name.toList) : c.codecPrefix = c.name := by
  have hkeep : ∀ ch ∈ c.name.toList, (if ch == ' ' then '_' else ch) = ch := by
    intro ch hch
    have hne : ch ≠ ' ' := fun heq => h (heq ▸ hch)
    simp [hne]
  rw [codecPrefix, List.map_congr_left hkeep, List.map_id', String.ofList_toList]

theorem append_marshal_ne (s t : String) : s ++ "_marshal" ≠ t ++ "_unmarshal" := by
  intro heq
  have hlast := congrArg (·.toList.reverse) heq
  simp at hlast

/-- The name of a codec function tells its half and the beginning that it shares with the other half. -/
theorem Half.functionName_eq_iff {h h' : Half} {c c' : CType} :
    h.functionName c = h'.functionName c' ↔ h = h' ∧ c.codecPrefix = c'.codecPrefix := by
  cases h <;> cases h' <;> simp [functionName, append_marshal_ne, Ne.symm (append_marshal_ne _ _)]

end WireStub
