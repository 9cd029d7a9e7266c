import WireStub.Yaml.Node

/-!
# Anchors and aliases

An alias stands for the node with its anchor.  Anchors are numbered by the number of anchor names
known before them, and an alias takes the number that its name has where the alias stands.  The last
node with a number is the one that the number stands for.

* `Node.number?` replaces names by numbers and lists the anchored nodes;
* `Node.expand` replaces aliases by what they stand for.  The depth of the result is bounded, so an
  alias within its own node is refused, and so is the number of aliases followed.
-/

namespace WireStub

namespace Yaml

namespace Node

/-- The known anchor names and their numbers. -/
abbrev Names := List (String × Nat)

/-- The anchored nodes by number, in the order of the document. -/
abbrev Anchored := List (Nat × Node Nat)

/-- Gives an anchor the number of names known before it. -/
def register (names : Names) (anchor : String) : Names :=
  (anchor, names.length) :: names.filter (·.1 != anchor)

/-- The names known behind a node's properties. -/
def enter (names : Names) : Option String → Names
  | none => names
  | some a => register names a

/-- A node listed under its number, if it is anchored, before the nodes within it. -/
def anchored (names : Names) (anchor : Option String) (n : Node Nat) (inner : Anchored) :
    Anchored :=
  match anchor with
  | none => inner
  | some _ => (names.length, n) :: inner

mutual

/-- Replaces the names in a node by numbers: the names known behind it, the node, and its anchored
nodes.  An alias of an unknown name is refused. -/
def number? (names : Names) : Node String → Option (Names × Node Nat × Anchored)
  | .alias name => (names.lookup name).map fun n => (names, .alias n, [])
  | .scalar anchor s =>
    some (enter names anchor, .scalar none s, anchored names anchor (.scalar none s) [])
  | .sequence anchor tag items => do
    let (known, items, inner) ← numberItems? (enter names anchor) items
    let n := .sequence none tag items
    some (known, n, anchored names anchor n inner)
  | .mapping anchor tag entries => do
    let (known, entries, inner) ← numberEntries? (enter names anchor) entries
    let n := .mapping none tag entries
    some (known, n, anchored names anchor n inner)

/-- Replaces the names in nodes that follow each other. -/
def numberItems? (names : Names) :
    List (Node String) → Option (Names × List (Node Nat) × Anchored)
  | [] => some (names, [], [])
  | n :: ns => do
    let (known, n, inner) ← number? names n
    let (known, ns, inner') ← numberItems? known ns
    some (known, n :: ns, inner ++ inner')

/-- Replaces the names in entries that follow each other. -/
def numberEntries? (names : Names) :
    List (Node String × Node String) → Option (Names × List (Node Nat × Node Nat) × Anchored)
  | [] => some (names, [], [])
  | (k, v) :: es => do
    let (known, k, inner) ← number? names k
    let (known, v, inner') ← number? known v
    let (known, es, inner'') ← numberEntries? known es
    some (known, (k, v) :: es, inner ++ inner' ++ inner'')

end

mutual

/-- The size of a node: one for a scalar or an alias, and two for a collection besides its parts. -/
def size {α : Type} : Node α → Nat
  | .alias _ | .scalar _ _ => 1
  | .sequence _ _ items => 2 + itemsSize items
  | .mapping _ _ entries => 2 + entriesSize entries

/-- The size of nodes together. -/
def itemsSize {α : Type} : List (Node α) → Nat
  | [] => 0
  | n :: ns => size n + itemsSize ns

/-- The size of entries together. -/
def entriesSize {α : Type} : List (Node α × Node α) → Nat
  | [] => 0
  | (k, v) :: es => size k + size v + entriesSize es

end

/-- A computation that may follow so many aliases. -/
abbrev Following := StateT Nat Option

/-- The node that a node stands for: an alias is followed. -/
def target (table : Anchored) : Node Nat → Following (Node Nat)
  | .alias n => fun left => if left = 0 then none else (table.lookup n).map (·, left - 1)
  | n => pure n

/-- The text of a key. -/
def keyText (table : Anchored) (k : Node Nat) : Following String := do
  match ← target table k with
  | .scalar _ s => pure s.text
  | _ => failure

/-- The tree of a node with collections nested at most `depth` deep. -/
def expand (table : Anchored) (depth : Nat) (n : Node Nat) : Following Tree := do
  match ← target table n, depth with
  | .scalar _ s, _ => pure (.scalar s)
  | .sequence _ tag items, d + 1 => do pure (.list tag (← items.mapM (expand table d)))
  | .mapping _ tag entries, d + 1 => do
    pure (.record tag (← entries.mapM fun (k, v) => do
      let key ← keyText table k
      let tree ← expand table d v
      pure (key, tree)))
  | _, _ => failure

end Node

/-- Collections nest at most this deep. -/
def maxDepth : Nat := 128

/-- The tree of a document without aliases.  At most a hundred aliases are followed per part of the
document. -/
def Node.tree? (n : Node String) : Option Tree := do
  let (_, m, table) ← n.number? []
  ((m.expand table.reverse maxDepth).run (100 * m.size)).map (·.1)

end Yaml

end WireStub
