import WireStub.Yaml.Token

/-!
# Nodes of a document

The tokens of a stream form one document: a tree of scalars and collections, some of them anchored,
and aliases of anchored nodes.

* `Node.read?` reads one node, with collections nested to a given depth;
* `Node.ofTokens?` reads the only document of a stream.
-/

namespace WireStub

namespace Yaml

/-- A node, whose aliases refer to other nodes by values of `α`. -/
inductive Node (α : Type) where
  | alias (target : α)
  | scalar (anchor : Option String) (s : Scalar)
  | sequence (anchor tag : Option String) (items : List (Node α))
  | mapping (anchor tag : Option String) (entries : List (Node α × Node α))

namespace Node

/-- A value left out. -/
def void : Node String := .scalar none ⟨"", .plain, none⟩

/-- Where a node stands, which decides the collections that may begin there. -/
inductive Place where
  /-- Within a flow collection: no block collection. -/
  | flow
  /-- An item of a block sequence, or the document itself. -/
  | item
  /-- A key or a value of a block mapping: a sequence may begin at the column of the mapping. -/
  | entry
  deriving DecidableEq

/-- A reader of nodes: the node and the tokens behind it. -/
abbrev Reader := Place → List Token → Option (Node String × List Token)

/-- Reads a node, or a value left out before one of the tokens in `stops`. -/
def orVoid (read : Reader) (place : Place) (stops : List Token) (ts : List Token) :
    Option (Node String × List Token) :=
  if ts.head?.any (stops.contains ·) then some (void, ts) else read place ts

/-- The value of a mapping entry, left out if there is no `Token.value`. -/
def value (read : Reader) (place : Place) (stops : List Token) (ts : List Token) :
    Option (Node String × List Token) :=
  match ts with
  | .value :: r => orVoid read place stops r
  | _ => some (void, ts)

/-- The items of a block sequence. -/
def blockItems (read : Reader) : Nat → List Token → Option (List (Node String) × List Token)
  | steps + 1, .blockEntry :: r => do
    let (n, r) ← orVoid read .item [.blockEntry, .blockEnd] r
    let (ns, r) ← blockItems read steps r
    some (n :: ns, r)
  | _ + 1, .blockEnd :: r => some ([], r)
  | _, _ => none

/-- The items of a block sequence that stands at the column of the mapping around it.  It ends
without a token of its own. -/
def indentlessItems (read : Reader) :
    Nat → List Token → Option (List (Node String) × List Token)
  | steps + 1, .blockEntry :: r => do
    let (n, r) ← orVoid read .item [.blockEntry, .key, .value, .blockEnd] r
    let (ns, r) ← indentlessItems read steps r
    some (n :: ns, r)
  | _ + 1, ts => some ([], ts)
  | 0, _ => none

/-- The entries of a block mapping. -/
def blockEntries (read : Reader) :
    Nat → List Token → Option (List (Node String × Node String) × List Token)
  | steps + 1, .key :: r => do
    let (k, r) ← orVoid read .entry [.key, .value, .blockEnd] r
    let (v, r) ← value read .entry [.key, .value, .blockEnd] r
    let (es, r) ← blockEntries read steps r
    some ((k, v) :: es, r)
  | _ + 1, .blockEnd :: r => some ([], r)
  | _, _ => none

/-- An entry of a flow collection that ends with the token `close`, from behind its
`Token.key`. -/
def flowPair (read : Reader) (close : Token) (ts : List Token) :
    Option ((Node String × Node String) × List Token) := do
  let (k, r) ← orVoid read .flow [.value, .flowEntry, close] ts
  let (v, r) ← value read .flow [.flowEntry, close] r
  some ((k, v), r)

/-- An item of a flow sequence: a node, or an entry that stands for a mapping of its own. -/
def flowItem (read : Reader) (ts : List Token) : Option (Node String × List Token) :=
  match ts with
  | .key :: r =>
    (flowPair read .flowSequenceEnd r).map fun (e, r) => (.mapping none none [e], r)
  | _ => read .flow ts

/-- The items of a flow sequence; a comma may stand behind the last. -/
def flowItems (read : Reader) : Nat → List Token → Option (List (Node String) × List Token)
  | 0, _ => none
  | _ + 1, .flowSequenceEnd :: r => some ([], r)
  | steps + 1, ts =>
    match flowItem read ts with
    | some (n, .flowSequenceEnd :: r) => some ([n], r)
    | some (n, .flowEntry :: r) => (flowItems read steps r).map fun (ns, r) => (n :: ns, r)
    | _ => none

/-- An entry of a flow mapping; a node alone is a key without a value. -/
def flowEntry (read : Reader) (ts : List Token) :
    Option ((Node String × Node String) × List Token) :=
  match ts with
  | .key :: r => flowPair read .flowMappingEnd r
  | _ => (read .flow ts).map fun (k, r) => ((k, void), r)

/-- The entries of a flow mapping; a comma may stand behind the last. -/
def flowEntries (read : Reader) :
    Nat → List Token → Option (List (Node String × Node String) × List Token)
  | 0, _ => none
  | _ + 1, .flowMappingEnd :: r => some ([], r)
  | steps + 1, ts =>
    match flowEntry read ts with
    | some (e, .flowMappingEnd :: r) => some ([e], r)
    | some (e, .flowEntry :: r) => (flowEntries read steps r).map fun (es, r) => (e :: es, r)
    | _ => none

/-- The anchor and the tag of a node, in either order, and the tokens behind them. -/
def properties : List Token → Option String × Option (String × String) × List Token
  | .anchor a :: .tag h s :: r => (some a, some (h, s), r)
  | .tag h s :: .anchor a :: r => (some a, some (h, s), r)
  | .anchor a :: r => (some a, none, r)
  | .tag h s :: r => (none, some (h, s), r)
  | r => (none, none, r)

/-- The full text of a tag: a verbatim one as it is, another behind the expansion of its handle. -/
def fullTag? (handles : List (String × String)) : Option (String × String) → Option (Option String)
  | none => some none
  | some (h, s) =>
    if h.isEmpty then some (some s) else (handles.lookup h).map fun e => some (e ++ s)

/-- Reads a node with collections nested at most `depth` deep, each with fewer than `steps` parts. -/
def read? (handles : List (String × String)) (steps depth : Nat) : Reader := fun place ts =>
  match ts with
  | .alias name :: r => some (.alias name, r)
  | _ => do
    let (anchor, shorthand, rest) := properties ts
    let tag ← fullTag? handles shorthand
    match rest, depth with
    | .scalar text style :: r, _ =>
      some (.scalar anchor ⟨text, style, tag.filter (· != "!")⟩, r)
    | .flowSequenceStart :: r, d + 1 =>
      (flowItems (read? handles steps d) steps r).map fun (ns, r) => (.sequence anchor tag ns, r)
    | .flowMappingStart :: r, d + 1 =>
      (flowEntries (read? handles steps d) steps r).map fun (es, r) => (.mapping anchor tag es, r)
    | .blockSequenceStart :: r, d + 1 =>
      if place == .flow then none
      else
        (blockItems (read? handles steps d) steps r).map fun (ns, r) => (.sequence anchor tag ns, r)
    | .blockMappingStart :: r, d + 1 =>
      if place == .flow then none
      else
        (blockEntries (read? handles steps d) steps r).map fun (es, r) => (.mapping anchor tag es, r)
    | .blockEntry :: r, d + 1 =>
      if place == .entry then
        (indentlessItems (read? handles steps d) steps (.blockEntry :: r)).map fun (ns, r) =>
          (.sequence anchor tag ns, r)
      else if anchor.isSome || tag.isSome then some (.scalar anchor ⟨"", .plain, tag⟩, rest)
      else none
    | _, _ =>
      if anchor.isSome || tag.isSome then some (.scalar anchor ⟨"", .plain, tag⟩, rest) else none

/-- The tag handles that every document has, unless it defines them itself. -/
def defaultHandles : List (String × String) := [("!", "!"), ("!!", "tag:yaml.org,2002:")]

/-- The directives before a document: at most one version, which is 1.1 or 1.2, and at most one
expansion per handle; then the marker `---`. -/
def directives? (version : Bool) (handles : List (String × String)) :
    List Token → Option (List (String × String) × List Token)
  | .version major minor :: r =>
    if !version && major == 1 && (minor == 1 || minor == 2) then directives? true handles r
    else none
  | .tagHandle h e :: r =>
    if (handles.lookup h).isNone then directives? version (handles ++ [(h, e)]) r else none
  | .documentStart :: r => some (handles ++ defaultHandles, r)
  | _ => none

/-- Whether a token belongs to a document as a whole. -/
def isDocumentToken : Token → Bool
  | .version .. | .tagHandle .. | .documentStart | .documentEnd => true
  | _ => false

/-- The node of the only document of a stream.  A stream without tokens is a value left out.  Every
part of a collection takes a token, which bounds their number. -/
def ofTokens? (depth : Nat) (ts : List Token) : Option (Node String) := do
  let steps := ts.length + 1
  let (n, rest) ←
    match ts with
    | [] => some (void, [])
    | .version .. :: _ | .tagHandle .. :: _ | .documentStart :: _ =>
      let (handles, r) ← directives? false [] ts
      if r.head?.all isDocumentToken then some (void, r) else read? handles steps depth .item r
    | _ => read? defaultHandles steps depth .item ts
  if rest.all (· == .documentEnd) then some n else none

end Node

end Yaml

end WireStub
