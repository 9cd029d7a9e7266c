import WireStub.Tree

/-!
# Tokens

The tokens of a YAML stream.  Block structure shows as tokens too: a block collection starts and
ends with a token of its own, and each key of a mapping is announced by `Token.key`.
-/

namespace WireStub

namespace Yaml

/-- A token of a YAML stream. -/
inductive Token where
  /-- The directive `%YAML`. -/
  | version (major minor : Nat)
  /-- The directive `%TAG`. -/
  | tagHandle (handle expansion : String)
  /-- The marker `---`. -/
  | documentStart
  /-- The marker `...`. -/
  | documentEnd
  | blockSequenceStart
  | blockMappingStart
  | blockEnd
  | flowSequenceStart
  | flowSequenceEnd
  | flowMappingStart
  | flowMappingEnd
  /-- The dash before an item of a block sequence. -/
  | blockEntry
  /-- The comma between the items of a flow collection. -/
  | flowEntry
  | key
  | value
  | alias (name : String)
  | anchor (name : String)
  | tag (handle suffix : String)
  | scalar (text : String) (style : ScalarStyle)
  deriving DecidableEq, Repr

end Yaml

end WireStub
