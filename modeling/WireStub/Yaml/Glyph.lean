/-!
# Positioned characters

A YAML text is read as a list of *glyphs*: characters with their line, column and index.  A line
break is one glyph, whatever characters write it, so the readers of scalars and tokens recurse on
the list alone.

* `Glyph.ofText?` positions the characters of a text, if all are allowed in a YAML stream.
-/

namespace WireStub

namespace Yaml

/-- The characters that a YAML stream may hold. -/
def isAllowed (c : Char) : Bool :=
  let n := c.toNat
  n == 0x09 || n == 0x0A || n == 0x0D || (0x20 ≤ n && n ≤ 0x7E) || n == 0x85 ||
    (0xA0 ≤ n && n ≤ 0xD7FF) || (0xE000 ≤ n && n ≤ 0xFFFD) || 0x10000 ≤ n

/-- The line break characters: carriage return, line feed, next line, and the line and paragraph
separators. -/
def isBreak (c : Char) : Bool :=
  c == '\n' || c == '\r' || c == '\u0085' || c == '\u2028' || c == '\u2029'

/-- Spaces and tabs. -/
def isBlank (c : Char) : Bool := c == ' ' || c == '\t'

/-- The characters of anchor names and directive names. -/
def isNameChar (c : Char) : Bool := c.isAlphanum || c == '_' || c == '-'

/-- A character of a text and where it stands. -/
structure Glyph where
  char : Char
  line : Nat
  column : Nat
  index : Nat
  deriving DecidableEq, Repr

namespace Glyph

/-- The position of each character.  Carriage return, line feed and their pair, and the next line
character become a line feed; the line and paragraph separators stay. -/
def position (line column index : Nat) : List Char → List Glyph
  | [] => []
  | '\r' :: '\n' :: r => ⟨'\n', line, column, index⟩ :: position (line + 1) 0 (index + 2) r
  | c :: r =>
    if c == '\u2028' || c == '\u2029' then
      ⟨c, line, column, index⟩ :: position (line + 1) 0 (index + 1) r
    else if isBreak c then
      ⟨'\n', line, column, index⟩ :: position (line + 1) 0 (index + 1) r
    else ⟨c, line, column, index⟩ :: position line (column + 1) (index + 1) r

/-- The glyphs of a text whose characters are all allowed. -/
def ofText? (s : String) : Option (List Glyph) :=
  if s.toList.all isAllowed then some (position 0 0 0 s.toList) else none

/-- Whether a glyph is a line break. -/
def isBreak (g : Glyph) : Bool := Yaml.isBreak g.char

/-- Whether a glyph is a space or a tab. -/
def isBlank (g : Glyph) : Bool := Yaml.isBlank g.char

end Glyph

/-- Whether a token that stands alone may end here: at the end, a break or a blank. -/
def endsToken : List Glyph → Bool
  | [] => true
  | g :: _ => g.isBlank || g.isBreak

/-- Whether a document marker `---` or `...` begins here. -/
def atMarker : List Glyph → Bool
  | a :: b :: c :: r =>
    a.column == 0 && (a.char == '-' || a.char == '.') && b.char == a.char && c.char == a.char &&
      endsToken r
  | _ => false

/-- The text of the glyphs up to the first that fails a test, and the rest. -/
def spanText (p : Char → Bool) (gs : List Glyph) : String × List Glyph :=
  (String.ofList ((gs.takeWhile (p ·.char)).map (·.char)), gs.dropWhile (p ·.char))

/-- The glyphs behind spaces and tabs. -/
def skipBlanks (gs : List Glyph) : List Glyph := gs.dropWhile (·.isBlank)

/-- The rest of a line that may hold a comment, if it holds nothing else: the glyphs from its
break on. -/
def skipComment? (gs : List Glyph) : Option (List Glyph) :=
  match skipBlanks gs with
  | [] => some []
  | g :: r =>
    if g.char == '#' then some (r.dropWhile (!·.isBreak))
    else if g.isBreak then some (g :: r)
    else none

end Yaml

end WireStub
