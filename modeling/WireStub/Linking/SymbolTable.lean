import WireStub.Schema.Basic

/-!
# Symbol tables

A symbol table holds the declarations seen so far, in order, each with its kind.

* `SymbolTable.declare?` adds a name that is new;
* `SymbolTable.lookup?` finds the declaration that a reference means: innermost scope first, or from
  the root if the reference starts with `::`.
-/

namespace WireStub

/-- The declared names, in the order of their declaration, with the kinds behind them. -/
structure SymbolTable where
  entries : List (ScopedName × Kind)
  /-- No name is declared twice. -/
  nodup : (entries.map (·.1)).Nodup

namespace SymbolTable

/-- The table without names. -/
def empty : SymbolTable := ⟨[], .nil⟩

/-- The declared names. -/
def names (t : SymbolTable) : List ScopedName := t.entries.map (·.1)

/-- The kind of a declared name. -/
def kind? (t : SymbolTable) (n : ScopedName) : Option Kind := t.entries.lookup n

/-- Declares a new name; a name that is declared already is refused. -/
def declare? (t : SymbolTable) (n : ScopedName) (k : Kind) : Option SymbolTable :=
  if h : n ∈ t.names then none
  else some ⟨t.entries ++ [(n, k)], by
    rw [List.map_append, List.nodup_append]
    refine ⟨t.nodup, by simp, ?_⟩
    rintro a ha b hb rfl
    simp only [List.map_cons, List.map_nil, List.mem_singleton] at hb
    exact h (hb ▸ ha)⟩

/-- The declaration that a path means when it is read within a scope. -/
def within? (t : SymbolTable) (path scope : ScopedName) : Option (ScopedName × Kind) :=
  (t.kind? (scope.join path)).map (scope.join path, ·)

/-- The declaration that a reference means.  A reference that starts with `::` is read from the
root; any other in the innermost scope that has a declaration for it.  A reference without a name
means nothing. -/
def lookup? (t : SymbolTable) (written : String) (scope : ScopedName) :
    Option (ScopedName × Kind) :=
  let path := ScopedName.parse written
  if path.isRoot then none
  else if ScopedName.isAbsolute written then t.within? path .root
  else scope.enclosing.findSome? (t.within? path)

theorem kind?_eq_none_iff (t : SymbolTable) (n : ScopedName) :
    t.kind? n = none ↔ n ∉ t.names := by
  simp only [kind?, names, List.lookup_eq_none_iff, List.mem_map, Prod.exists, exists_and_right,
    exists_eq_right, not_exists]
  constructor
  · intro h k hk
    simpa using h _ hk
  · rintro h ⟨a, k⟩ hk
    simp only [bne_iff_ne, ne_eq]
    rintro rfl
    exact h k hk

@[simp] theorem names_declare? {t t' : SymbolTable} {n : ScopedName} {k : Kind}
    (h : t.declare? n k = some t') : t'.names = t.names ++ [n] := by
  unfold declare? at h
  split at h
  · cases h
  · cases h; simp [names]

theorem declare?_eq_none_iff (t : SymbolTable) (n : ScopedName) (k : Kind) :
    t.declare? n k = none ↔ n ∈ t.names := by
  unfold declare?
  split <;> simp_all

end SymbolTable

end WireStub
