import WireStub.Yaml.Glyph

/-!
# Flow scalars

Plain, single-quoted and double-quoted scalars.  They may span lines: the blanks and breaks between
two pieces are a `Gap`, which is folded to its `Gap.text`.

Each reader takes one glyph at a time and returns the text of the scalar and the glyphs behind it.
-/

namespace WireStub

namespace Yaml

/-- The blanks and line breaks read since the last character of a flow scalar. -/
inductive Gap where
  /-- Blanks on one line. -/
  | blanks (text : String)
  /-- Line breaks: the first, and the text of those behind it.  The first is empty when it is
  escaped. -/
  | breaks (first more : String)

namespace Gap

/-- No gap. -/
def none : Gap := .blanks ""

/-- Whether the gap holds a line break. -/
def isBroken : Gap → Bool
  | .blanks _ => false
  | .breaks _ _ => true

/-- Whether there is no gap. -/
def isNone : Gap → Bool
  | .blanks text => text.isEmpty
  | .breaks _ _ => false

/-- A blank extends the gap; behind a line break it is dropped. -/
def blank (c : Char) : Gap → Gap
  | .blanks text => .blanks (text.push c)
  | g => g

/-- A line break extends the gap and drops the blanks before it. -/
def lineBreak (c : Char) : Gap → Gap
  | .blanks _ => .breaks (String.singleton c) ""
  | .breaks first more => .breaks first (more.push c)

/-- What a gap stands for: its blanks; a space for one line break; one break less for several. -/
def text : Gap → String
  | .blanks text => text
  | .breaks first more =>
    if first == "\n" then (if more.isEmpty then " " else more) else first ++ more

end Gap

/-- The characters that end a plain scalar in flow style. -/
def isFlowIndicator (c : Char) : Bool :=
  c == ',' || c == '[' || c == ']' || c == '{' || c == '}'

/-- A plain scalar that was read. -/
structure PlainScalar where
  text : String
  /-- A line break stands between the scalar and what follows. -/
  isBroken : Bool
  rest : List Glyph

/-- Reads a plain scalar.  It ends at `: `, at a comment, at a document marker, in flow style at an
indicator, and in block style at a line that starts left of `indent`. -/
def plainScalar (flow : Bool) (indent : Nat) (text : String) (gap : Gap) :
    List Glyph → Option PlainScalar
  | [] => some ⟨text, gap.isBroken, []⟩
  | g :: r =>
    if g.isBlank then
      if gap.isBroken && g.column < indent && g.char == '\t' then none
      else plainScalar flow indent text (gap.blank g.char) r
    else if g.isBreak then plainScalar flow indent text (gap.lineBreak g.char) r
    else if !gap.isNone && ((!flow && g.column < indent) || atMarker (g :: r) || g.char == '#') then
      some ⟨text, gap.isBroken, g :: r⟩
    else if flow && g.char == ':' && r.head?.any (fun n => isFlowIndicator n.char || n.char == '?')
    then none
    else if (g.char == ':' && endsToken r) || (flow && isFlowIndicator g.char) then
      some ⟨text, gap.isBroken, g :: r⟩
    else plainScalar flow indent ((text ++ gap.text).push g.char) Gap.none r

/-- Reads a single-quoted scalar from behind its opening quote.  Two quotes stand for one. -/
def singleQuoted (text : String) (gap : Gap) : List Glyph → Option (String × List Glyph)
  | [] => none
  | g :: r =>
    if atMarker (g :: r) then none
    else if g.isBlank then singleQuoted text (gap.blank g.char) r
    else if g.isBreak then singleQuoted text (gap.lineBreak g.char) r
    else if g.char == '\'' then
      match r with
      | q :: r' =>
        if q.char == '\'' then singleQuoted ((text ++ gap.text).push '\'') Gap.none r'
        else some (text ++ gap.text, r)
      | [] => some (text ++ gap.text, [])
    else singleQuoted ((text ++ gap.text).push g.char) Gap.none r

/-- The character that a one-letter escape stands for. -/
def escaped? : Char → Option Char
  | '0' => some '\x00'
  | 'a' => some '\x07'
  | 'b' => some '\x08'
  | 't' => some '\t'
  | '\t' => some '\t'
  | 'n' => some '\n'
  | 'v' => some '\x0b'
  | 'f' => some '\x0c'
  | 'r' => some '\r'
  | 'e' => some '\x1b'
  | ' ' => some ' '
  | '"' => some '"'
  | '/' => some '/'
  | '\\' => some '\\'
  | 'N' => some '\u0085'
  | '_' => some '\u00a0'
  | 'L' => some '\u2028'
  | 'P' => some '\u2029'
  | _ => none

/-- The number of hexadecimal digits behind an escape letter. -/
def escapeWidth? : Char → Option Nat
  | 'x' => some 2
  | 'u' => some 4
  | 'U' => some 8
  | _ => none

/-- The value of a hexadecimal digit. -/
def hexDigit? (c : Char) : Option Nat :=
  if c.isDigit then some (c.toNat - 48)
  else if 'a' ≤ c ∧ c ≤ 'f' then some (c.toNat - 87)
  else if 'A' ≤ c ∧ c ≤ 'F' then some (c.toNat - 55)
  else none

/-- The character with a number, if there is one. -/
def charOfNat? (n : Nat) : Option Char :=
  if n.isValidChar then some (Char.ofNat n) else none

/-- What the reader of a double-quoted scalar is in the middle of. -/
inductive Quoting where
  /-- Text, behind a gap. -/
  | text (gap : Gap)
  /-- An escape: a backslash was read. -/
  | escape
  /-- A number with `left` digits to come. -/
  | digits (left value : Nat)

/-- Reads a double-quoted scalar from behind its opening quote. -/
def doubleQuoted (text : String) : Quoting → List Glyph → Option (String × List Glyph)
  | _, [] => none
  | .text gap, g :: r =>
    if atMarker (g :: r) then none
    else if g.isBlank then doubleQuoted text (.text (gap.blank g.char)) r
    else if g.isBreak then doubleQuoted text (.text (gap.lineBreak g.char)) r
    else if g.char == '"' then some (text ++ gap.text, r)
    else if g.char == '\\' then doubleQuoted (text ++ gap.text) .escape r
    else doubleQuoted ((text ++ gap.text).push g.char) (.text Gap.none) r
  | .escape, g :: r =>
    if g.isBreak then doubleQuoted text (.text (.breaks "" "")) r
    else
      match escaped? g.char, escapeWidth? g.char with
      | some c, _ => doubleQuoted (text.push c) (.text Gap.none) r
      | none, some n => doubleQuoted text (.digits n 0) r
      | none, none => none
  | .digits left value, g :: r =>
    match hexDigit? g.char with
    | none => none
    | some d =>
      if left ≤ 1 then
        match charOfNat? (16 * value + d) with
        | some c => doubleQuoted (text.push c) (.text Gap.none) r
        | none => none
      else doubleQuoted text (.digits (left - 1) (16 * value + d)) r

end Yaml

end WireStub
