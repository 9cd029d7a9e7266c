import WireStub.CommandLine.Invocation
import WireStub.Configuration
import WireStub.Emission
import WireStub.Report

/-!
# Outcomes

What a run of the program prints, why it failed, and the files behind it.

* `Invocation.run` runs an invocation over a file tree;
* `Outcome.code` is the exit code, and `Failure.text` the text about a failure.
-/

namespace WireStub

/-- Why a run failed: what was being done, and the cause. -/
structure Failure where
  task : String
  cause : String
  deriving DecidableEq, Repr

/-- The text about a failure: the lines of the cause are indented. -/
def Failure.text (f : Failure) : String :=
  "Error: " ++ f.task ++ "\n\nCaused by:\n    " ++
    String.ofList (f.cause.toList.flatMap fun c =>
      if c == '\n' then ['\n', ' ', ' ', ' ', ' '] else [c]) ++ "\n"

/-- What a run leaves behind. -/
structure Outcome where
  /-- What was printed. -/
  printed : List String
  failure : Option Failure
  tree : FileTree

namespace Outcome

/-- The exit code. -/
def code (o : Outcome) : UInt32 := if o.failure.isSome then 1 else 0

/-- What was printed, as one text. -/
def text (o : Outcome) : String := String.join (o.printed.map (· ++ "\n"))

/-- The outcome with something printed before. -/
def behind (lines : List String) (o : Outcome) : Outcome := { o with printed := lines ++ o.printed }

/-- A run that fails without printing anything. -/
def failed (t : FileTree) (task cause : String) : Outcome := ⟨[], some ⟨task, cause⟩, t⟩

end Outcome

namespace Invocation

/-- Lines that are printed if the user wants to know more. -/
def details (i : Invocation) (lines : List String) : List String := if i.verbose then lines else []

/-- Loads the schema of an invocation, and goes on with it. -/
def withSchema (i : Invocation) (t : FileTree) (go : Schema → Outcome) : Outcome :=
  .behind (i.details
    (["[~] Loading schema files and resolving imports..."] ++ i.files.map ("    - " ++ ·) ++
      (if i.includeDirs.isEmpty then [] else ["    Include directories:"]) ++
      i.includeDirs.map ("      - " ++ ·)))
    (match Schema.load t i.files i.includeDirs with
      | .error e =>
        .failed t ("failed to load schema from " ++ toString i.files.length ++ " file(s)") e.message
      | .ok s =>
        .behind (i.details ["[✓] Loaded " ++ toString s.modules.length ++ " module(s), " ++
          toString s.mainModules.length ++ " from main files"]) (go s))

/-- Loads the options of a configuration file, if one is given, and goes on with them. -/
def withOptions (t : FileTree) (config : Option String) (go : Options → Outcome) : Outcome :=
  match config with
  | none => go {}
  | some path =>
    match Options.load t path with
    | .error e => .failed t ("failed to load generator options from " ++ path) e.message
    | .ok o => go o

/-- The introduction to generating code. -/
def introduction (i : Invocation) (output : String) (config : Option String) : List String :=
  ["IDL Generator - C Code Generation Tool", "======================================", "",
   "[~] Configuration:", "  Output directory: " ++ output,
   "  Input files: " ++ toString i.files.length] ++
    (match config with
      | some path => ["  Options file: " ++ path]
      | none => []) ++ [""]

/-- Generates code into a directory. -/
def generate (i : Invocation) (t : FileTree) (output : String) (o : Options) (s : Schema) :
    Outcome :=
  if s.mainModules.isEmpty then
    ⟨["[!] No modules found in the input files, nothing to generate"], none, t⟩
  else
    let e := s.emit o t output
    match e.outcome with
    | .error fault => .failed e.tree ("code generation into " ++ output ++ " failed") fault.message
    | .ok paths =>
      ⟨["[✓] Generated " ++ toString paths.length ++ " file(s) in " ++ output] ++
        i.details (paths.map ("    - " ++ ·)), none, e.tree⟩

/-- Writes a report. -/
def analyze (t : FileTree) (format : ReportFormat) (s : Schema) : Outcome :=
  match Report.ofSchema s with
  | .error e => .failed t e.task e.fault.message
  | .ok r =>
    match format with
    | .text => ⟨r.lines, none, t⟩
    | .json => ⟨[r.toJson.pretty], none, t⟩

/-- Runs an invocation over a file tree. -/
def run (i : Invocation) (t : FileTree) : Outcome :=
  match i.job with
  | .codegen output config =>
    .behind (i.details (i.introduction output config))
      (withOptions t config fun o => i.withSchema t (i.generate t output o))
  | .analyze format => i.withSchema t (analyze t format)

end Invocation

end WireStub
