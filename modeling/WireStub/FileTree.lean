import WireStub.Keyed

/-!
# File trees

The files that the program reads and writes, as a value: a directory tree below a root.  The program
runs at the root, so that is where absolute path texts start and relative ones do, too.  Nothing lies
above it: the directory around the root is the root.

* `Path.start` is where a path text starts, and `FileTree.resolve?` follows it from there to what exists;
* `FileTree.makeDirs` and `FileTree.write?` change the tree; the first keeps the directories it has
  made when it fails.
-/

namespace WireStub

/-- The place of an entry in a tree: the names that lead to it from the root. -/
structure Path where
  names : List String
  deriving DecidableEq, Repr, Inhabited

namespace Path

/-- The root of a tree. -/
def root : Path := ⟨[]⟩

/-- The place of an entry of a directory. -/
def child (p : Path) (name : String) : Path := ⟨p.names ++ [name]⟩

/-- The directory that holds an entry; the root holds itself. -/
def parent (p : Path) : Path := ⟨p.names.dropLast⟩

/-- The text of a place: its names with slashes between them, and `.` for the root. -/
def display (p : Path) : String :=
  if p.names.isEmpty then "." else String.intercalate "/" p.names

/-- The parts of a path text between slashes. -/
def splitSlash : List Char → List (List Char)
  | [] => [[]]
  | c :: r =>
    match splitSlash r with
    | [] => [[c]]
    | p :: ps => if c == '/' then [] :: p :: ps else (c :: p) :: ps

/-- The parts of a path text. -/
def components (text : String) : List String := (splitSlash text.toList).map String.ofList

/-- Whether a path text starts at the root, wherever it is followed from. -/
def isAbsolute (text : String) : Bool := text.toList.head? == some '/'

/-- Where a path text starts that is followed from the directory `dir`. -/
def start (dir : Path) (text : String) : Path := if isAbsolute text then root else dir

/-- The path text of `name` in the directory `dir`; an absolute one stays as it is. -/
def joinText (dir name : String) : String :=
  if isAbsolute name || dir.isEmpty then name
  else if dir.toList.getLast? == some '/' then dir ++ name
  else dir ++ "/" ++ name

end Path

/-- What is found at a place. -/
inductive FileEntry where
  | directory
  | text (contents : String)
  /-- A file whose bytes are no text. -/
  | binary
  deriving DecidableEq, Repr

/-- The entries below the root. -/
structure FileTree where
  entries : List (Path × FileEntry)
  deriving DecidableEq, Repr

namespace FileTree

/-- The tree without entries. -/
def empty : FileTree := ⟨[]⟩

/-- What is at a place; the root is a directory. -/
def entry? (t : FileTree) (p : Path) : Option FileEntry :=
  if p.names.isEmpty then some .directory else t.entries.lookup p

/-- Whether a place is a directory. -/
def isDirectory (t : FileTree) (p : Path) : Bool := t.entry? p == some .directory

/-- The text of the file at a place. -/
def readText? (t : FileTree) (p : Path) : Option String :=
  match t.entry? p with
  | some (.text s) => some s
  | _ => none

/-- The places of all text files. -/
def textFiles (t : FileTree) : List Path :=
  t.entries.filterMap fun (p, e) => match e with
    | .text _ => some p
    | _ => none

/-- Follows parts of a path text from a place.  Each part has to start in a directory; an empty part
and `.` stay there, and `..` goes back to the directory around it. -/
def walk? (t : FileTree) (p : Path) : List String → Option Path
  | [] => some p
  | n :: ns =>
    if !t.isDirectory p then none
    else if n == "" || n == "." then t.walk? p ns
    else if n == ".." then t.walk? p.parent ns
    else if (t.entry? (p.child n)).isSome then t.walk? (p.child n) ns
    else none

/-- The place that a path text leads to from a directory, if something exists there. -/
def resolve? (t : FileTree) (dir : Path) (text : String) : Option Path :=
  t.walk? (dir.start text) (Path.components text)

/-- Puts an entry at a place. -/
def put (t : FileTree) (p : Path) (e : FileEntry) : FileTree := ⟨Keyed.put p e t.entries⟩

/-- Whether a part of a path can name a new entry: it has at most 255 bytes. -/
def isFileName (n : String) : Bool :=
  n != "" && n != "." && n != ".." && n.utf8ByteSize ≤ 255

/-- A path text that no entry can have: it holds a NUL. -/
def isForeign (text : String) : Bool := text.toList.contains '\x00'

/-- Makes the directories along parts of a path, and tells whether all exist in the end. -/
def makeAlong (t : FileTree) (p : Path) : List String → FileTree × Bool
  | [] => (t, true)
  | n :: ns =>
    if n == "" || n == "." then t.makeAlong p ns
    else if n == ".." then t.makeAlong p.parent ns
    else
      match t.entry? (p.child n) with
      | some .directory => t.makeAlong (p.child n) ns
      | some _ => (t, false)
      | none =>
        if isFileName n then (t.put (p.child n) .directory).makeAlong (p.child n) ns
        else (t, false)

/-- Makes the directories of a path text that do not exist, and tells whether all exist in the
end. -/
def makeDirs (t : FileTree) (text : String) : FileTree × Bool :=
  if isForeign text then (t, false) else t.makeAlong .root (Path.components text)

/-- Writes a file to a path text.  Its directory has to exist, and no directory may have its
name. -/
def write? (t : FileTree) (text : String) (e : FileEntry) : Option FileTree :=
  if isForeign text then none
  else
    let parts := Path.components text
    match t.walk? .root parts.dropLast, parts.getLast? with
    | some dir, some n =>
      let p := dir.child n
      if t.isDirectory dir && isFileName n && !t.isDirectory p then some (t.put p e) else none
    | _, _ => none

theorem mem_textFiles_of_readText? {t : FileTree} {p : Path} {s : String}
    (h : t.readText? p = some s) : p ∈ t.textFiles := by
  unfold readText? entry? at h
  split at h
  · rename_i s' he
    split at he
    · cases he
    · obtain ⟨l₁, l₂, hl, -⟩ := List.lookup_eq_some_iff.1 he
      simp only [textFiles, List.mem_filterMap]
      exact ⟨(p, .text s'), by simp [hl], rfl⟩
  · cases h

end FileTree

end WireStub
