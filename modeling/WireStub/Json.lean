/-!
# JSON text

Reports can be written as JSON.

* `Json.pretty` writes a value over several lines, two spaces to a level;
* `Json.quote` writes a text in quotes.
-/

namespace WireStub

/-- A JSON value.  The keys of a record are written in their order. -/
inductive Json where
  | bool (b : Bool)
  | number (n : Nat)
  | text (s : String)
  | list (items : List Json)
  | record (entries : List (String × Json))

namespace Json

/-- A digit of a number in base 16. -/
def hexDigit (n : Nat) : Char := if n < 10 then Char.ofNat (48 + n) else Char.ofNat (87 + n)

/-- A character of a text: quotes, backslashes and control characters are escaped. -/
def escape (c : Char) : List Char :=
  if c == '"' then ['\\', '"']
  else if c == '\\' then ['\\', '\\']
  else if c == '\n' then ['\\', 'n']
  else if c == '\r' then ['\\', 'r']
  else if c == '\t' then ['\\', 't']
  else if c == '\x08' then ['\\', 'b']
  else if c == '\x0c' then ['\\', 'f']
  else if c.toNat < 32 then ['\\', 'u', '0', '0', hexDigit (c.toNat / 16), hexDigit (c.toNat % 16)]
  else [c]

/-- A text in quotes. -/
def quote (s : String) : String := "\"" ++ String.ofList (s.toList.flatMap escape) ++ "\""

/-- The beginning of a line at a level. -/
def lineBreak (level : Nat) : String := "\n" ++ String.ofList (List.replicate (2 * level) ' ')

/-- Items between brackets, each on a line of its own; without items nothing stands between them. -/
def bracket (opening closing : String) (level : Nat) (items : List String) : String :=
  if items.isEmpty then opening ++ closing
  else
    opening ++ String.intercalate "," (items.map (lineBreak (level + 1) ++ ·)) ++ lineBreak level ++
      closing

mutual

/-- A value that starts at a level. -/
def prettyAt (level : Nat) : Json → String
  | bool b => if b then "true" else "false"
  | number n => toString n
  | text s => quote s
  | list items => bracket "[" "]" level (prettyItems (level + 1) items)
  | record entries => bracket "\x7b" "\x7d" level (prettyEntries (level + 1) entries)

/-- The items of a list. -/
def prettyItems (level : Nat) : List Json → List String
  | [] => []
  | j :: js => prettyAt level j :: prettyItems level js

/-- The entries of a record. -/
def prettyEntries (level : Nat) : List (String × Json) → List String
  | [] => []
  | (k, j) :: es => (quote k ++ ": " ++ prettyAt level j) :: prettyEntries level es

end

/-- A value over several lines. -/
def pretty (j : Json) : String := prettyAt 0 j

end Json

end WireStub
