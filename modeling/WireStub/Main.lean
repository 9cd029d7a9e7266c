import WireStub.CommandLine.Outcome

/-!
# The program

The outer layer: it fetches the files that an invocation may ask for into a file tree, runs the
invocation over it, and writes what is new.  The root of the tree is the working directory: absolute
path texts start there, too, and no path text leads out of it.
-/

namespace WireStub

namespace Program

/-- Parts of a path text at a depth below the root, without those that lead above it. -/
def confine : Nat → List String → List String
  | _, [] => []
  | depth, n :: ns =>
    if n == "" || n == "." then n :: confine depth ns
    else if n != ".." then n :: confine (depth + 1) ns
    else if depth == 0 then confine 0 ns
    else n :: confine (depth - 1) ns

/-- What is at a path text on the machine, which has the root of the tree as its working directory. -/
def inspect (text : String) : IO (Option FileEntry) := do
  try
    let place := String.intercalate "/" ("." :: confine 0 (Path.components text))
    match String.fromUTF8? (← IO.FS.readBinFile place) with
    | some s => return some (.text s)
    | none => return some .binary
  catch
    | .inappropriateType .. => return some .directory
    | _ => return none

/-- Adds what is at a path text to a tree. -/
def fetch (t : FileTree) (text : String) : IO FileTree := do
  match ← inspect text with
  | none => return t
  | some .directory => return (t.makeDirs text).1
  | some e =>
    let dir := String.intercalate "/" (Path.components text).dropLast
    return ((t.makeDirs dir).1.write? text e).getD t

/-- The path texts at which a schema file may find its imports. -/
def importCandidates (includeDirs : List String) (base : Path) (contents : String) : List String :=
  match SchemaFile.parse? contents with
  | none => []
  | some f => f.imports.flatMap fun name =>
    Path.joinText base.parent.display name :: includeDirs.map (Path.joinText · name)

/-- Adds files and all that they may import to a tree. -/
partial def gather (includeDirs : List String) (done : List Path) (t : FileTree) :
    List String → IO FileTree
  | [] => return t
  | text :: texts => do
    let t ← fetch t text
    match t.resolve? .root text with
    | none => gather includeDirs done t texts
    | some p =>
      if p ∈ done then gather includeDirs done t texts
      else
        let next := ((t.readText? p).map (importCandidates includeDirs p)).getD []
        gather includeDirs (p :: done) t (next ++ texts)

/-- The path texts of a directory and of those around it, outermost first. -/
def ancestors (dir : String) : List String :=
  let parts := Path.components dir
  (List.range parts.length).map fun k => String.intercalate "/" (parts.take (k + 1))

/-- The path texts that a job reads or writes besides schema files. -/
def places : Job → List String
  | .codegen output config => ancestors output ++ config.toList
  | .analyze _ => []

/-- Writes the entries of a tree that differ from those of an older one. -/
def store (old new : FileTree) : IO PUnit := do
  for (p, e) in new.entries do
    if old.entry? p != some e then
      match e with
      | .directory => IO.FS.createDirAll p.display
      | .text s => IO.FS.writeFile p.display s
      | .binary => pure ()

/-- The text about the arguments. -/
def usage : String :=
  "Usage: idl-gen [-v] <codegen|analyze> [options]\n\n" ++
  "  codegen -f FILE... [-i DIR]... [-o DIR] [-c FILE]\n" ++
  "      Generate C units from interface schema files\n" ++
  "  analyze -f FILE... [-i DIR]... [--format text|json]\n" ++
  "      Show resolved declarations and attribute roles without writing files\n"

/-- Runs the program; the result is its exit code. -/
def run (args : List String) : IO UInt32 := do
  match Invocation.parse args with
  | .error .help =>
    IO.print usage
    return 0
  | .error .usage =>
    IO.eprint usage
    return 2
  | .ok i =>
    let t ← gather i.includeDirs [] .empty (i.files ++ i.includeDirs)
    let t ← (places i.job).foldlM fetch t
    let o := i.run t
    store t o.tree
    IO.print o.text
    match o.failure with
    | some f => IO.eprint f.text
    | none => pure ()
    return o.code

end Program

end WireStub

/-- The entry point. -/
def main (args : List String) : IO UInt32 := WireStub.Program.run args
