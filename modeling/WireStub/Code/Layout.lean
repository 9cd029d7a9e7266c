/-!
# Layout of generated text

Generated text is laid out by steps: lines, blank lines, and changes of the indentation level.

* `Layout.render` writes steps with a given indentation text per level;
* a step back at level 0 stays at level 0.
-/

namespace WireStub

namespace Layout

/-- One step of a layout. -/
inductive Step where
  /-- A line at the current level. -/
  | line (text : String)
  /-- An empty line. -/
  | blank
  /-- One level deeper. -/
  | indent
  /-- One level back. -/
  | dedent
  /-- A line with an opening brace, and one level deeper. -/
  | opening
  /-- One level back, and a line with a closing brace followed by `trailer`. -/
  | closing (trailer : String)
  deriving DecidableEq, Repr

/-- The level after a step. -/
def Step.level : Step → Nat → Nat
  | .line _, n | .blank, n => n
  | .indent, n | .opening, n => n + 1
  | .dedent, n | .closing _, n => n - 1

/-- The indentation of a level. -/
def margin (unit : String) (level : Nat) : String := String.join (List.replicate level unit)

/-- A text at a level.  An empty text is not indented. -/
def lineAt (unit : String) (level : Nat) (text : String) : String :=
  if text.isEmpty then "\n" else margin unit level ++ text ++ "\n"

/-- What a step writes at a level. -/
def Step.text (unit : String) (level : Nat) : Step → String
  | .line text => lineAt unit level text
  | .blank => "\n"
  | .indent | .dedent => ""
  | .opening => lineAt unit level "\x7b"
  | .closing trailer => lineAt unit (level - 1) ("\x7d" ++ trailer)

/-- The level after steps that start at a level. -/
def levelAfter (level : Nat) (steps : List Step) : Nat := steps.foldl (fun n s => s.level n) level

/-- What each of the steps writes that start at a level. -/
def texts (unit : String) : Nat → List Step → List String
  | _, [] => []
  | level, s :: ss => s.text unit level :: texts unit (s.level level) ss

/-- The text of steps that start at a level. -/
def renderFrom (unit : String) (level : Nat) (steps : List Step) : String :=
  String.join (texts unit level steps)

/-- The text of steps that start at level 0. -/
def render (unit : String) (steps : List Step) : String := renderFrom unit 0 steps

theorem levelAfter_append (level : Nat) (ss ts : List Step) :
    levelAfter level (ss ++ ts) = levelAfter (levelAfter level ss) ts := List.foldl_append

/-- Lines between a brace on its own line and its closing brace. -/
def braced (body : List Step) (trailer : String) : List Step :=
  .opening :: body ++ [.closing trailer]

end Layout

end WireStub
