import WireStub.Text.Blank

/-!
# Scoped names

A scoped name is the path of a declaration: the module, the enclosing structs, and the name
itself.  It is written with `::` between its segments.

* `ScopedName.parse` reads a reference: segments are trimmed, and empty ones are dropped, so a
  leading `::` and stray separators do not matter;
* `ScopedName.display` writes a name;
* `ScopedName.enclosing` lists the scopes around a place, innermost first.
-/

namespace WireStub

/-- The path of a declaration, outermost segment first.  The root has no segments. -/
structure ScopedName where
  segments : List String
  deriving DecidableEq, Repr, Inhabited

namespace ScopedName

/-- The scope around all modules. -/
def root : ScopedName := ⟨[]⟩

/-- Whether this is the root.  A declaration with an empty scoped name has not been linked. -/
def isRoot (n : ScopedName) : Bool := n.segments.isEmpty

/-- The name of `s` declared within `n`. -/
def child (n : ScopedName) (s : String) : ScopedName := ⟨n.segments ++ [s]⟩

/-- The path `m` read within `n`. -/
def join (n m : ScopedName) : ScopedName := ⟨n.segments ++ m.segments⟩

/-- The scope that `n` is declared in; the root is in none. -/
def parent? (n : ScopedName) : Option ScopedName :=
  if n.segments.isEmpty then none else some ⟨n.segments.dropLast⟩

/-- The innermost segment. -/
def identifier? (n : ScopedName) : Option String := n.segments.getLast?

/-- The segments of the path with `::` between them. -/
def display (n : ScopedName) : String := String.intercalate "::" n.segments

/-- The scopes `n`, its parent, and so on to the root. -/
def enclosing (n : ScopedName) : List ScopedName :=
  (List.range (n.segments.length + 1)).reverse.map fun k => ⟨n.segments.take k⟩

/-- The pieces of a text between the separators `::`, which are found from the left. -/
def pieces : List Char → List (List Char)
  | [] => [[]]
  | ':' :: ':' :: r => [] :: pieces r
  | c :: r =>
    match pieces r with
    | [] => [[c]]
    | p :: ps => (c :: p) :: ps

/-- Reads a path: the pieces between `::`, trimmed, without the empty ones. -/
def parse (s : String) : ScopedName :=
  ⟨(((pieces s.toList).map Text.trim).filter (!·.isEmpty)).map String.ofList⟩

/-- Whether a reference is written with a separator. -/
def isQualified (s : String) : Bool := decide (1 < (pieces s.toList).length)

/-- Whether a reference starts at the root: it is written with a leading `::`. -/
def isAbsolute (s : String) : Bool := [':', ':'].isPrefixOf (Text.trimStart s.toList)

/-- Names are ordered segment by segment, and segments character by character. -/
def compare (n m : ScopedName) : Ordering :=
  go n.segments m.segments
where
  /-- The first segments that differ decide, or else the shorter path comes first. -/
  go : List String → List String → Ordering
    | [], [] => .eq
    | [], _ :: _ => .lt
    | _ :: _, [] => .gt
    | s :: ss, t :: ts => (Ord.compare s t).then (go ss ts)

@[simp] theorem segments_root : root.segments = [] := rfl

@[simp] theorem segments_child (n : ScopedName) (s : String) :
    (n.child s).segments = n.segments ++ [s] := rfl

@[simp] theorem segments_join (n m : ScopedName) :
    (n.join m).segments = n.segments ++ m.segments := rfl

@[simp] theorem root_join (n : ScopedName) : root.join n = n := rfl

@[simp] theorem parent?_child (n : ScopedName) (s : String) : (n.child s).parent? = some n := by
  simp [parent?, child]

/-- The scopes around a name are its prefixes. -/
theorem mem_enclosing {n m : ScopedName} : m ∈ n.enclosing ↔ m.segments <+: n.segments := by
  simp only [enclosing, List.mem_map, List.mem_reverse, List.mem_range]
  constructor
  · rintro ⟨k, -, rfl⟩
    exact List.take_prefix k n.segments
  · intro h
    refine ⟨m.segments.length, by have := h.length_le; omega, ?_⟩
    exact congrArg ScopedName.mk (List.prefix_iff_eq_take.1 h).symm

end ScopedName

end WireStub
