import WireStub.Yaml.Token
import WireStub.Yaml.FlowScalar

/-!
# Anchors, tags and directives

The tokens that say something about a node or about a document.  Each reader starts behind the
indicator character (`&`, `*`, `!` or `%`) and returns a token and the glyphs behind it.
-/

namespace WireStub

namespace Yaml

/-- The name of an anchor or an alias: name characters, then a character that ends a name. -/
def anchorName? (gs : List Glyph) : Option (String × List Glyph) :=
  let (name, rest) := spanText isNameChar gs
  let ends := endsToken rest ||
    rest.head?.any fun g => ['?', ':', ',', ']', '}', '%', '@', '`'].contains g.char
  if name.isEmpty || !ends then none else some (name, rest)

/-- The punctuation of tags. -/
def tagPunctuation : List Char :=
  [';', '/', '?', ':', '@', '&', '=', '+', '$', '.', '!', '~', '*', '\'', '(', ')', '%']

/-- The characters of a tag.  Flow indicators are allowed in verbatim tags and in directives. -/
def isTagChar (verbatim : Bool) (c : Char) : Bool :=
  isNameChar c || tagPunctuation.contains c ||
    (verbatim && (c == ',' || c == '[' || c == ']'))

/-- The bytes of a tag whose `%` escapes are decoded. -/
def tagBytes? : List Char → Option (List UInt8)
  | [] => some []
  | '%' :: a :: b :: r => do
    let byte := 16 * (← hexDigit? a) + (← hexDigit? b)
    some (UInt8.ofNat byte :: (← tagBytes? r))
  | c :: r => if c == '%' then none else do some (c.toUInt8 :: (← tagBytes? r))

/-- The text of a tag, `%` escapes decoded. -/
def tagText? (s : String) : Option String := do
  String.fromUTF8? (ByteArray.mk (← tagBytes? s.toList).toArray)

/-- The start of a tag from behind its `!`: name characters, whether a second `!` closes them to a
handle, and the rest. -/
def handle (gs : List Glyph) : String × Bool × List Glyph :=
  let (name, rest) := spanText isNameChar gs
  match rest with
  | g :: r => if g.char == '!' then (name, true, r) else (name, false, rest)
  | [] => (name, false, [])

/-- The text of a handle. -/
def handleText (name : String) : String := "!" ++ name ++ "!"

/-- A tag from behind its `!`: verbatim in `<` and `>`, with a handle such as `!!`, or local. -/
def tagToken? (flow : Bool) (gs : List Glyph) : Option (Token × List Glyph) := do
  let (token, rest) ←
    match gs with
    | g :: r =>
      if g.char == '<' then verbatim? r else short? gs
    | [] => short? []
  let ends := endsToken rest || (flow && rest.head?.any (·.char == ','))
  if ends then some (token, rest) else none
where
  /-- A verbatim tag from behind its `<`. -/
  verbatim? (gs : List Glyph) : Option (Token × List Glyph) := do
    let (text, rest) := spanText (isTagChar true) gs
    match rest with
    | g :: r =>
      if text.isEmpty || g.char != '>' then none
      else some (.tag "" (← tagText? text), r)
    | [] => none
  /-- A tag with a handle, or a local one: its name belongs to the suffix. -/
  short? (gs : List Glyph) : Option (Token × List Glyph) := do
    let (name, closed, rest) := handle gs
    let (text, rest') := spanText (isTagChar false) rest
    let suffix ← tagText? text
    if closed then
      if text.isEmpty then none else some (.tag (handleText name) suffix, rest')
    else
      let suffix := name ++ suffix
      some (if suffix.isEmpty then .tag "" "!" else .tag "!" suffix, rest')

/-- A version number: up to nine digits. -/
def versionNumber? (gs : List Glyph) : Option (Nat × List Glyph) := do
  let (digits, rest) := spanText Char.isDigit gs
  if digits.length ≤ 9 then some (← digits.toNat?, rest) else none

/-- A directive from behind its `%`, with its line.  Directives other than `YAML` and `TAG` are
refused. -/
def directive? (gs : List Glyph) : Option (Token × List Glyph) := do
  let (name, rest) := spanText isNameChar gs
  if !endsToken rest then none
  let (token, rest) ←
    match name with
    | "YAML" => version? (skipBlanks rest)
    | "TAG" => tagHandle? (skipBlanks rest)
    | _ => none
  match ← skipComment? rest with
  | [] => some (token, [])
  | _ :: r => some (token, r)
where
  /-- The arguments of `%YAML`. -/
  version? (gs : List Glyph) : Option (Token × List Glyph) := do
    let (major, rest) ← versionNumber? gs
    match rest with
    | g :: r =>
      if g.char != '.' then none
      let (minor, rest) ← versionNumber? r
      some (.version major minor, rest)
    | [] => none
  /-- The arguments of `%TAG`. -/
  tagHandle? (gs : List Glyph) : Option (Token × List Glyph) := do
    match gs with
    | g :: r =>
      if g.char != '!' then none
      let (name, closed, rest) := handle r
      if !closed && !name.isEmpty then none
      if !rest.head?.any (·.isBlank) then none
      let (text, rest) := spanText (isTagChar true) (skipBlanks rest)
      if text.isEmpty || !endsToken rest then none
      some (.tagHandle (if closed then handleText name else "!") (← tagText? text), rest)
    | [] => none

end Yaml

end WireStub
