import WireStub.Yaml.Lexer
import WireStub.Yaml.Anchor

/-!
# Reading YAML

`Yaml.read?` reads a text as one YAML document and returns its tree.  It fails for a text with a
character that YAML does not allow, a fault of syntax, a second document, an unknown alias, or
nesting that is too deep.
-/

namespace WireStub

namespace Yaml

/-- The document tree of a YAML text. -/
def read? (text : String) : Option Tree := do
  (← Node.ofTokens? maxDepth (← Token.lex? (← Glyph.ofText? text))).tree?

end Yaml

end WireStub
