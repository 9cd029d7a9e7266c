import WireStub.Yaml.Property
import WireStub.Yaml.BlockScalar

/-!
# From glyphs to tokens

Block structure follows from columns, and the key of a mapping is known only at the `:` behind it.
The lexer therefore keeps the columns of the open block collections, and for each level of flow
style the place where a key may have begun; at a `:` that place is marked.

* `Lexer.step?` reads one token;
* `Token.lex?` reads a whole stream.
-/

namespace WireStub

namespace Yaml

/-- A place where a key may have begun. -/
structure PendingKey where
  /-- The number of tokens before it. -/
  slot : Nat
  line : Nat
  column : Nat
  index : Nat
  /-- Nothing but a key may begin here: the place has the column of the open block mapping. -/
  required : Bool
  deriving DecidableEq, Repr

/-- A token and the tokens that a `:` behind it puts before it. -/
structure Slot where
  token : Token
  /-- A block mapping starts here. -/
  opensMapping : Bool
  /-- A key starts here. -/
  isKey : Bool

/-- The tokens of a slot. -/
def Slot.tokens (s : Slot) : List Token :=
  (if s.opensMapping then [.blockMappingStart] else []) ++ (if s.isKey then [.key] else []) ++
    [s.token]

/-- The state of the lexer between two tokens. -/
structure Lexer where
  /-- The glyphs to come. -/
  rest : List Glyph
  /-- The pending keys, one per level: the innermost flow collection first, the block level last. -/
  keys : List (Option PendingKey)
  /-- The columns of the open block collections, innermost first. -/
  indents : List Nat
  /-- A key may begin at the next token. -/
  keyAllowed : Bool
  /-- The tokens read. -/
  slots : Array Slot

namespace Lexer

/-- The state at the beginning of a stream. -/
def start (gs : List Glyph) : Lexer := ⟨gs, [none], [], true, #[]⟩

/-- Whether the lexer is within a flow collection. -/
def inFlow (s : Lexer) : Bool := decide (1 < s.keys.length)

/-- The first column behind that of the innermost block collection. -/
def leastColumn (s : Lexer) : Nat := (s.indents.head?.map (· + 1)).getD 0

/-- Adds a token. -/
def emit (t : Token) (s : Lexer) : Lexer := { s with slots := s.slots.push ⟨t, false, false⟩ }

/-- Goes on at other glyphs. -/
def goto (gs : List Glyph) (s : Lexer) : Lexer := { s with rest := gs }

/-- Allows or forbids a key at the next token. -/
def allowKey (b : Bool) (s : Lexer) : Lexer := { s with keyAllowed := b }

/-- Ends the block collections right of a column, or all of them. -/
def closeBlocks (column : Option Nat) (s : Lexer) : Lexer :=
  if s.inFlow then s
  else
    let closed := s.indents.takeWhile fun i => column.all (· < i)
    closed.foldl (fun s _ => s.emit .blockEnd)
      { s with indents := s.indents.drop closed.length }

/-- Starts a block collection at a column, unless the column belongs to the innermost one. -/
def openBlock (column : Nat) (t : Token) (s : Lexer) : Lexer :=
  if s.inFlow || !s.indents.head?.all (· < column) then s
  else { s.emit t with indents := column :: s.indents }

/-- Gives up the pending key of the innermost level.  A required one may not be given up. -/
def dropKey? (s : Lexer) : Option Lexer :=
  match s.keys with
  | some k :: ks => if k.required then none else some { s with keys := none :: ks }
  | _ => some s

/-- Remembers that a key may begin here, if one is allowed. -/
def saveKey? (g : Glyph) (s : Lexer) : Option Lexer :=
  if s.keyAllowed then do
    let s ← s.dropKey?
    let k : PendingKey :=
      ⟨s.slots.size, g.line, g.column, g.index, !s.inFlow && s.indents.head? == some g.column⟩
    some { s with keys := some k :: s.keys.tail }
  else some s

/-- Gives up the keys that began on an earlier line or more than 1024 characters ago. -/
def dropStaleKeys? (g : Glyph) (s : Lexer) : Option Lexer := do
  let keys ← s.keys.mapM fun
    | some k =>
      if k.line < g.line || k.index + 1024 < g.index then
        if k.required then none else some none
      else some (some k)
    | none => some none
  some { s with keys := keys }

/-- Skips blanks, comments and line breaks.  Behind a line break of block style a key is allowed.
Tabs separate tokens in flow style and where no key is allowed. -/
def skipSeparation (flow : Bool) (allowed inComment : Bool) : List Glyph → Bool × List Glyph
  | [] => (allowed, [])
  | g :: r =>
    if g.isBreak then skipSeparation flow (allowed || !flow) false r
    else if inComment then skipSeparation flow allowed true r
    else if g.char == ' ' || (g.char == '\t' && (flow || !allowed)) ||
        (g.char == '\uFEFF' && g.column == 0) then
      skipSeparation flow allowed false r
    else if g.char == '#' then skipSeparation flow allowed true r
    else (allowed, g :: r)

/-- Goes to the next token. -/
def skip (s : Lexer) : Lexer :=
  let (allowed, rest) := skipSeparation s.inFlow s.keyAllowed false s.rest
  { s with rest := rest, keyAllowed := allowed }

/-- Starts a block collection that an indicator announces; in block style it has to stand where a
key may begin. -/
def announce? (column : Nat) (t : Token) (s : Lexer) : Option Lexer :=
  if s.inFlow then some s else if s.keyAllowed then some (s.openBlock column t) else none

/-- Marks the place of a pending key: a key, and perhaps a block mapping, starts there. -/
def confirmKey (k : PendingKey) (s : Lexer) : Lexer :=
  let opens := !s.inFlow && s.indents.head?.all (· < k.column)
  { s with
    slots := s.slots.modify k.slot fun x => { x with opensMapping := opens, isKey := true }
    indents := if opens then k.column :: s.indents else s.indents
    keys := none :: s.keys.tail }

/-- A `:` makes the pending key a key; without one it stands for an empty key. -/
def value? (g : Glyph) (r : List Glyph) (s : Lexer) : Option Lexer := do
  match s.keys with
  | some k :: _ => some (((s.confirmKey k).allowKey false).emit .value |>.goto r)
  | _ =>
    let s ← s.announce? g.column .blockMappingStart
    some ((s.allowKey (!s.inFlow)).emit .value |>.goto r)

/-- A token that ends all blocks: a directive or a document marker. -/
def topLevel? (t : Token) (r : List Glyph) (s : Lexer) : Option Lexer := do
  let s ← (s.closeBlocks none).dropKey?
  some ((s.allowKey false).emit t |>.goto r)

/-- A token of a node: an alias, a property or a scalar.  It may begin a key, and none may follow it
directly. -/
def nodeToken? (g : Glyph) (read : Option (Token × List Glyph)) (s : Lexer) : Option Lexer := do
  let s ← s.saveKey? g
  let (t, r) ← read
  some ((s.allowKey false).emit t |>.goto r)

/-- A block scalar. -/
def block? (folded : Bool) (r : List Glyph) (s : Lexer) : Option Lexer := do
  let s ← s.dropKey?
  let (text, r) ← blockScalar? folded s.leastColumn s.indents.head? r
  some ((s.allowKey true).emit (.scalar text (if folded then .folded else .literal)) |>.goto r)

/-- A plain scalar.  A key may follow one that ends at a line break. -/
def plain? (g : Glyph) (r : List Glyph) (s : Lexer) : Option Lexer := do
  let s ← s.saveKey? g
  let p ← plainScalar s.inFlow s.leastColumn "" Gap.none (g :: r)
  some ((s.allowKey p.isBroken).emit (.scalar p.text .plain) |>.goto p.rest)

/-- The beginning of a flow collection. -/
def openFlow? (t : Token) (g : Glyph) (r : List Glyph) (s : Lexer) : Option Lexer := do
  let s ← s.saveKey? g
  some ({ s with keys := none :: s.keys, keyAllowed := true }.emit t |>.goto r)

/-- The end of a flow collection. -/
def closeFlow? (t : Token) (r : List Glyph) (s : Lexer) : Option Lexer := do
  let s ← s.dropKey?
  let keys := if s.inFlow then s.keys.tail else s.keys
  some ({ s with keys := keys, keyAllowed := false }.emit t |>.goto r)

/-- The characters that mean something at the beginning of a token. -/
def indicators : List Char :=
  ['-', '?', ':', ',', '[', ']', '{', '}', '#', '&', '*', '!', '|', '>', '\'', '"', '%', '@', '`']

/-- Whether a plain scalar may begin with `g`. -/
def startsPlain (flow : Bool) (g : Glyph) (r : List Glyph) : Bool :=
  !(indicators.contains g.char || g.isBlank) ||
    (g.char == '-' && !r.head?.any (·.isBlank)) ||
    (!flow && (g.char == '?' || g.char == ':') && !endsToken r)

/-- Reads the token that begins with `g`. -/
def token? (g : Glyph) (r : List Glyph) (s : Lexer) : Option Lexer := do
  if g.char == '%' && g.column == 0 then
    let (t, r) ← directive? r
    s.topLevel? t r
  else if atMarker (g :: r) then
    s.topLevel? (if g.char == '-' then .documentStart else .documentEnd) (r.drop 2)
  else if g.char == '[' then s.openFlow? .flowSequenceStart g r
  else if g.char == '{' then s.openFlow? .flowMappingStart g r
  else if g.char == ']' then s.closeFlow? .flowSequenceEnd r
  else if g.char == '}' then s.closeFlow? .flowMappingEnd r
  else if g.char == ',' then
    let s ← s.dropKey?
    some ((s.allowKey true).emit .flowEntry |>.goto r)
  else if g.char == '-' && endsToken r then
    let s ← (← s.announce? g.column .blockSequenceStart).dropKey?
    some ((s.allowKey true).emit .blockEntry |>.goto r)
  else if g.char == '?' && (s.inFlow || endsToken r) then
    let s ← (← s.announce? g.column .blockMappingStart).dropKey?
    some ((s.allowKey (!s.inFlow)).emit .key |>.goto r)
  else if g.char == ':' && (s.inFlow || endsToken r) then s.value? g r
  else if g.char == '*' then s.nodeToken? g ((anchorName? r).map fun (n, r) => (.alias n, r))
  else if g.char == '&' then s.nodeToken? g ((anchorName? r).map fun (n, r) => (.anchor n, r))
  else if g.char == '!' then s.nodeToken? g (tagToken? s.inFlow r)
  else if g.char == '|' && !s.inFlow then s.block? false r
  else if g.char == '>' && !s.inFlow then s.block? true r
  else if g.char == '\'' then
    s.nodeToken? g ((singleQuoted "" Gap.none r).map fun (t, r) => (.scalar t .quoted, r))
  else if g.char == '"' then
    s.nodeToken? g ((doubleQuoted "" (.text Gap.none) r).map fun (t, r) => (.scalar t .quoted, r))
  else if startsPlain s.inFlow g r then s.plain? g r
  else none

/-- Reads one token that begins with `g`, and the ends of the blocks left of which it stands. -/
def step? (g : Glyph) (r : List Glyph) (s : Lexer) : Option Lexer := do
  (← s.dropStaleKeys? g).closeBlocks (some g.column) |>.token? g r

/-- All tokens of a stream. -/
def finish? (s : Lexer) : Option (List Token) := do
  let s ← (s.closeBlocks none).dropKey?
  some (s.slots.toList.flatMap Slot.tokens)

/-- Reads tokens to the end of the stream, in a bounded number of steps. -/
def run? : Nat → Lexer → Option (List Token)
  | 0, _ => none
  | steps + 1, s =>
    let s := s.skip
    match s.rest with
    | [] => s.finish?
    | g :: r =>
      match s.step? g r with
      | none => none
      | some s => run? steps s

end Lexer

/-- The tokens of a YAML stream.  Every token takes a glyph at least, which bounds the steps. -/
def Token.lex? (gs : List Glyph) : Option (List Token) := (Lexer.start gs).run? (gs.length + 1)

end Yaml

end WireStub
