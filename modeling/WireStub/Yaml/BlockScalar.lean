import WireStub.Yaml.Glyph

/-!
# Block scalars

Literal (`|`) and folded (`>`) scalars: a header, then the lines that are indented to a common
column.

* `BlockHeader.read?` reads the header;
* `detectIndent?` finds the column of the first line that holds text;
* `blockScalar?` reads the whole scalar.
-/

namespace WireStub

namespace Yaml

/-- What becomes of the line breaks at the end of a block scalar. -/
inductive Chomping where
  | strip
  | clip
  | keep

/-- The header of a block scalar. -/
structure BlockHeader where
  chomping : Chomping
  /-- Columns behind the parent's, if given. -/
  increment : Option Nat

namespace BlockHeader

/-- A chomping indicator. -/
def chomping? : List Glyph → Option (Chomping × List Glyph)
  | g :: r =>
    if g.char == '+' then some (.keep, r) else if g.char == '-' then some (.strip, r) else none
  | [] => none

/-- An indentation indicator. -/
def increment? : List Glyph → Option (Nat × List Glyph)
  | g :: r => if g.char.isDigit then some (g.char.toNat - 48, r) else none
  | [] => none

/-- Reads the indicators in either order and the rest of the header line, which may hold a comment
only.  An indentation of 0 is refused. -/
def read? (gs : List Glyph) : Option (BlockHeader × List Glyph) := do
  let (header, rest) :=
    match chomping? gs with
    | some (c, r) =>
      match increment? r with
      | some (n, r') => (BlockHeader.mk c (some n), r')
      | none => (⟨c, none⟩, r)
    | none =>
      match increment? gs with
      | some (n, r) =>
        match chomping? r with
        | some (c, r') => (⟨c, some n⟩, r')
        | none => (⟨.clip, some n⟩, r)
      | none => (⟨.clip, none⟩, gs)
  if header.increment == some 0 then none
  match ← skipComment? rest with
  | [] => some (header, [])
  | _ :: r => some (header, r)

end BlockHeader

/-- The deepest column that the leading blank lines and the first line of text reach by spaces.  A
tab among them is refused. -/
def detectIndent? (deepest : Nat) : List Glyph → Option Nat
  | [] => some deepest
  | g :: r =>
    if g.char == ' ' || g.isBreak then detectIndent? (max deepest g.column) r
    else if g.char == '\t' then none
    else some (max deepest g.column)

/-- The text of a block scalar that is being read. -/
structure BlockText where
  text : String
  /-- The break behind the last line. -/
  lead : String
  /-- The breaks of the blank lines behind it. -/
  trail : String
  /-- The last line starts with a blank. -/
  afterBlank : Bool

namespace BlockText

/-- No line yet. -/
def empty : BlockText := ⟨"", "", "", false⟩

/-- Begins a line.  In a folded scalar the break between two lines that start with text becomes a
space, or vanishes before blank lines. -/
def beginLine (folded startsBlank : Bool) (t : BlockText) : BlockText :=
  let joint :=
    if folded && t.lead == "\n" && !t.afterBlank && !startsBlank then
      if t.trail.isEmpty then " " else ""
    else t.lead
  ⟨t.text ++ joint ++ t.trail, "", "", startsBlank⟩

/-- The whole text: its final breaks are stripped, clipped to one, or kept. -/
def finish (t : BlockText) : Chomping → String
  | .strip => t.text
  | .clip => t.text ++ t.lead
  | .keep => t.text ++ t.lead ++ t.trail

end BlockText

/-- Reads the lines of a block scalar whose text starts at column `indent`.  `inLine` tells whether
the reader is behind the margin of a line. -/
def blockLines (folded : Bool) (indent : Nat) (inLine : Bool) (t : BlockText) :
    List Glyph → Option (BlockText × List Glyph)
  | [] => some (t, [])
  | g :: r =>
    if inLine then
      if g.isBreak then
        blockLines folded indent false { t with lead := String.singleton g.char } r
      else blockLines folded indent true { t with text := t.text.push g.char } r
    else if g.column < indent && g.char == ' ' then blockLines folded indent false t r
    else if g.column < indent && g.char == '\t' then none
    else if g.isBreak then
      blockLines folded indent false { t with trail := t.trail.push g.char } r
    else if g.column == indent then
      let t := t.beginLine folded g.isBlank
      blockLines folded indent true { t with text := t.text.push g.char } r
    else some (t, g :: r)

/-- Reads a block scalar from behind its `|` or `>`, within a parent whose content starts at column
`least`. -/
def blockScalar? (folded : Bool) (least : Nat) (parent : Option Nat) (gs : List Glyph) :
    Option (String × List Glyph) := do
  let (header, rest) ← BlockHeader.read? gs
  let indent ←
    match header.increment with
    | some n => some (parent.getD 0 + n)
    | none => (detectIndent? 0 rest).map fun n => max (max n least) 1
  let (t, rest) ← blockLines folded indent false BlockText.empty rest
  some (t.finish header.chomping, rest)

end Yaml

end WireStub
