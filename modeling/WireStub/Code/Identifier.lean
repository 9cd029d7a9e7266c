import WireStub.ScopedName

/-!
# C identifiers

Names of a schema are free text; in C they become identifiers.

* `Identifier.escape` turns any text into an identifier that is neither a keyword nor one of the
  names that generated functions declare themselves;
* `Identifier.ofScopedName` flattens a path into the name of a C type.
-/

namespace WireStub

namespace Identifier

/-- Letters, digits and the underscore. -/
def isWordChar (c : Char) : Bool := c.isAlphanum || c == '_'

/-- C keywords, and the names that the bodies of generated functions declare. -/
def reserved : List String :=
  ["auto", "break", "case", "char", "const", "continue", "default", "do", "double", "else", "enum",
   "extern", "float", "for", "goto", "if", "inline", "int", "long", "register", "restrict",
   "return", "short", "signed", "sizeof", "static", "struct", "switch", "typedef", "union",
   "unsigned", "void", "volatile", "while",
   "_Bool", "_Complex", "_Imaginary",
   "bool", "offset", "request", "response", "retval", "instanceNum"]

/-- A text with every character that is no word character replaced by an underscore. -/
def replaceForeign (cs : List Char) : List Char := cs.map fun c => if isWordChar c then c else '_'

/-- An underscore is put before a text that is empty or starts with a digit. -/
def guardStart : List Char → List Char
  | [] => ['_']
  | c :: r => if c.isDigit then '_' :: c :: r else c :: r

/-- An underscore is put behind a reserved word. -/
def guardReserved (s : String) : String := if s ∈ reserved then s.push '_' else s

/-- The identifier for a text: foreign characters become underscores, and underscores keep it from
being empty, from starting with a digit, and from being reserved. -/
def escape (s : String) : String :=
  guardReserved (String.ofList (guardStart (replaceForeign s.toList)))

/-- A text with each separator `::` (found from the left) replaced by an underscore. -/
def joinPieces (s : String) : String :=
  String.intercalate "_" ((ScopedName.pieces s.toList).map String.ofList)

/-- The identifier for a qualified name: one underscore stands for `::`. -/
def escapeQualified (s : String) : String := escape (joinPieces s)

/-- A segment of a C type name: `<`, `>` and `:` become underscores. -/
def flattenSegment (s : String) : String :=
  String.ofList (s.toList.map fun c => if c == '<' || c == '>' || c == ':' then '_' else c)

/-- The C type name of a declaration: its flattened segments joined by underscores. -/
def ofScopedName (n : ScopedName) : String :=
  String.intercalate "_" (n.segments.map flattenSegment)

end Identifier

end WireStub
