/-!
# Document trees

A document is a tree of scalars, lists and records.  Schemas and generator options are read from
document trees, and schemas are written to them.

* `Tree.text?`, `Tree.items?`, `Tree.entries?`, `Tree.unsigned?`, `Tree.bool?` read the values of
  a field;
* `Tree.unitCase?` and `Tree.payloadCase?` read the two forms of a choice: a bare word, and a
  record with one key.
-/

namespace WireStub

/-- How a scalar is written. -/
inductive ScalarStyle where
  | plain
  | quoted
  | literal
  | folded
  deriving DecidableEq, Repr

/-- A scalar: its text, how it is written, and its tag. -/
structure Scalar where
  text : String
  style : ScalarStyle
  tag : Option String
  deriving DecidableEq, Repr

/-- A document tree.  The keys of a record are texts, in the order of the document. -/
inductive Tree where
  | scalar (s : Scalar)
  | list (tag : Option String) (items : List Tree)
  | record (tag : Option String) (entries : List (String × Tree))

namespace Scalar

/-- A value left out: plain and without text. -/
def isVoid (s : Scalar) : Bool := s.style == .plain && s.text.isEmpty

/-- The tag of the core types. -/
def coreTag (name : String) : String := "tag:yaml.org,2002:" ++ name

/-- Whether the text may stand for a value of a core type: it is plain, or literal and tagged so. -/
def reads (type : String) (s : Scalar) : Bool :=
  s.style == .plain || (s.style == .literal && s.tag == some (coreTag type))

/-- The value of a digit in a base up to 16. -/
def digit? (base : Nat) (c : Char) : Option Nat :=
  let n := c.toNat
  let d? :=
    if 48 ≤ n ∧ n ≤ 57 then some (n - 48)
    else if 97 ≤ n ∧ n ≤ 102 then some (n - 87)
    else if 65 ≤ n ∧ n ≤ 70 then some (n - 55)
    else none
  d?.filter (· < base)

/-- The number that digits write in a base, if there is at least one and all are digits of it. -/
def number? (base : Nat) : List Char → Option Nat
  | [] => none
  | cs => cs.foldlM (fun n c => (digit? base c).map (base * n + ·)) 0

/-- An unsigned number: decimal without superfluous zeros, or after `0x`, `0o` or `0b`, in each case
after an optional plus sign. -/
def unsignedText? (s : String) : Option Nat :=
  let cs := match s.toList with
    | '+' :: r => r
    | cs => cs
  match cs with
  | '0' :: 'x' :: r => number? 16 r
  | '0' :: 'o' :: r => number? 8 r
  | '0' :: 'b' :: r => number? 2 r
  | '0' :: _ :: _ => none
  | cs => number? 10 cs

/-- A truth value in one of its six spellings. -/
def boolText? (s : String) : Option Bool :=
  if s ∈ ["true", "True", "TRUE"] then some true
  else if s ∈ ["false", "False", "FALSE"] then some false
  else none

/-- Whether a tag is local: it starts with `!`. -/
def isLocalTag (tag : String) : Bool := tag.toList.head? == some '!'

/-- A tag that leaves the scalar a plain word: neither local nor one of the core types that are
no texts. -/
def hasWordTag (s : Scalar) : Bool :=
  match s.tag with
  | none => true
  | some t => !isLocalTag t && !(["bool", "int", "float", "null"].map coreTag).contains t

end Scalar

namespace Tree

/-- A value left out. -/
def void : Tree := .scalar ⟨"", .plain, none⟩

/-- A text, written so that it stays one. -/
def ofText (s : String) : Tree := .scalar ⟨s, .quoted, none⟩

/-- A number. -/
def ofNat (n : Nat) : Tree := .scalar ⟨toString n, .plain, none⟩

/-- A list. -/
def ofList (ts : List Tree) : Tree := .list none ts

/-- A record. -/
def ofEntries (es : List (String × Tree)) : Tree := .record none es

/-- A choice with a payload: a record with one key. -/
def ofCase (word : String) (payload : Tree) : Tree := .record none [(word, payload)]

/-- The text of a scalar, however it is written. -/
def text? : Tree → Option String
  | .scalar s => some s.text
  | _ => none

/-- The items of a list; a value left out is an empty list. -/
def items? : Tree → Option (List Tree)
  | .list _ ts => some ts
  | .scalar s => if s.isVoid then some [] else none
  | .record _ _ => none

/-- The entries of a record; a value left out is an empty record. -/
def entries? : Tree → Option (List (String × Tree))
  | .record _ es => some es
  | .scalar s => if s.isVoid then some [] else none
  | .list _ _ => none

/-- An unsigned number up to a bound. -/
def unsigned? (bound : Nat) : Tree → Option Nat
  | .scalar s => if s.reads "int" then (Scalar.unsignedText? s.text).filter (· ≤ bound) else none
  | _ => none

/-- A truth value. -/
def bool? : Tree → Option Bool
  | .scalar s => if s.reads "bool" then Scalar.boolText? s.text else none
  | _ => none

/-- The word of a choice without a payload. -/
def unitCase? : Tree → Option String
  | .scalar s => if s.hasWordTag then some s.text else none
  | _ => none

/-- The word and the payload of a choice: a record with one key and without a local tag. -/
def payloadCase? : Tree → Option (String × Tree)
  | .record tag [e] => if tag.any Scalar.isLocalTag then none else some e
  | _ => none

/-- The items of a list, each read by `f`. -/
def list? {α : Type} (f : Tree → Option α) (t : Tree) : Option (List α) := do (← t.items?).mapM f

/-- The fields of a record that has only known keys, each at most once. -/
def fields? (known : List String) (t : Tree) : Option (List (String × Tree)) := do
  let es ← t.entries?
  let keys := es.map (·.1)
  if keys.all (known.contains ·) && decide keys.Nodup then some es else none

/-- A required field. -/
def required {α : Type} (fields : List (String × Tree)) (key : String) (f : Tree → Option α) :
    Option α := do f (← fields.lookup key)

/-- A field with a default. -/
def optional {α : Type} (fields : List (String × Tree)) (key : String) (dflt : α)
    (f : Tree → Option α) : Option α :=
  match fields.lookup key with
  | none => some dflt
  | some t => f t

end Tree

end WireStub
