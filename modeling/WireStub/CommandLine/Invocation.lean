/-!
# Invocations

The arguments of the program name a task, `codegen` or `analyze`, and its switches.

* `Invocation.parse` reads the arguments; a `Refusal` says that there is nothing to run.

A switch is written with a letter or a word: `-f x`, `-fx`, `-f=x`, `--files x` and `--files=x` are
the same, and letters without values may be written together.  Only `--files` and `--include-dir`
may be repeated.
-/

namespace WireStub

/-- How a report is written. -/
inductive ReportFormat where
  | text
  | json
  deriving DecidableEq, Repr

/-- The format that a word names. -/
def ReportFormat.ofWord? (s : String) : Option ReportFormat :=
  if s == "text" then some .text else if s == "json" then some .json else none

/-- The tasks of the program. -/
inductive Verb where
  | codegen
  | analyze
  deriving DecidableEq, Repr

/-- The task that a word names. -/
def Verb.ofWord? (s : String) : Option Verb :=
  if s == "codegen" then some .codegen else if s == "analyze" then some .analyze else none

/-- The switches of the program. -/
inductive Switch where
  | help
  | verbose
  | files
  | includeDir
  | output
  | config
  | format
  deriving DecidableEq, Repr

namespace Switch

/-- The letter of a switch. -/
def letter? : Switch → Option Char
  | help => some 'h'
  | verbose => some 'v'
  | files => some 'f'
  | includeDir => some 'i'
  | output => some 'o'
  | config => some 'c'
  | format => none

/-- The word of a switch. -/
def word : Switch → String
  | help => "help"
  | verbose => "verbose"
  | files => "files"
  | includeDir => "include-dir"
  | output => "output"
  | config => "config"
  | format => "format"

/-- Whether a switch has a value. -/
def takesValue : Switch → Bool
  | help | verbose => false
  | files | includeDir | output | config | format => true

/-- Whether a switch may be given several times. -/
def mayRepeat : Switch → Bool
  | files | includeDir => true
  | help | verbose | output | config | format => false

/-- Whether a value is one for the switch: a format has to be known, and a path may not be empty. -/
def accepts (s : Switch) (value : String) : Bool :=
  match s with
  | help | verbose => true
  | format => (ReportFormat.ofWord? value).isSome
  | files | includeDir | output | config => !value.isEmpty

/-- The switches in front of the task. -/
def general : List Switch := [help, verbose]

/-- The switches of a task. -/
def ofVerb : Verb → List Switch
  | .codegen => [help, verbose, files, includeDir, output, config]
  | .analyze => [help, verbose, files, includeDir, format]

end Switch

/-- Why nothing is run. -/
inductive Refusal where
  /-- The arguments ask for help. -/
  | help
  /-- The arguments are wrong. -/
  | usage
  deriving DecidableEq, Repr

/-- The switches given so far, with their values. -/
structure Given where
  values : List (Switch × String)

namespace Given

/-- No switches. -/
def empty : Given := ⟨[]⟩

/-- Whether a switch is given. -/
def has (g : Given) (s : Switch) : Bool := g.values.any (·.1 == s)

/-- The values of a switch. -/
def all (g : Given) (s : Switch) : List String := (g.values.filter (·.1 == s)).map (·.2)

/-- The value of a switch. -/
def value? (g : Given) (s : Switch) : Option String := g.values.lookup s

/-- Notes a switch with its value. -/
def note (g : Given) (s : Switch) (value : String) : Except Refusal Given :=
  if s = .help then .error .help
  else if g.has s && !s.mayRepeat then .error .usage
  else if s.accepts value then .ok ⟨g.values ++ [(s, value)]⟩
  else .error .usage

/-- Reads the letters behind a dash.  The last may be a switch that waits for its value. -/
def letters (allowed : List Switch) (g : Given) :
    List Char → Except Refusal (Given × Option Switch)
  | [] => .ok (g, none)
  | c :: cs =>
    match allowed.find? (·.letter? == some c) with
    | none => .error .usage
    | some s =>
      if !s.takesValue then
        match g.note s "" with
        | .error e => .error e
        | .ok g => g.letters allowed cs
      else
        match cs with
        | [] => .ok (g, some s)
        | '=' :: v => (g.note s (String.ofList v)).map (·, none)
        | v => (g.note s (String.ofList v)).map (·, none)

/-- Reads the word behind two dashes.  It may be a switch that waits for its value. -/
def longWord (allowed : List Switch) (g : Given) (cs : List Char) :
    Except Refusal (Given × Option Switch) :=
  match allowed.find? (·.word.toList == cs.takeWhile (· != '=')), cs.dropWhile (· != '=') with
  | none, _ => .error .usage
  | some s, [] => if s.takesValue then .ok (g, some s) else (g.note s "").map (·, none)
  | some s, _ :: v =>
    if s.takesValue then (g.note s (String.ofList v)).map (·, none) else .error .usage

/-- Reads an argument that does not wait for a value.  It has to be a switch. -/
def argument (allowed : List Switch) (g : Given) (arg : String) :
    Except Refusal (Given × Option Switch) :=
  match arg.toList with
  | '-' :: '-' :: cs => g.longWord allowed cs
  | '-' :: c :: cs => g.letters allowed (c :: cs)
  | _ => .error .usage

/-- Whether an argument can be the value of a switch: it does not look like a switch. -/
def isValue (arg : String) : Bool := arg == "-" || arg.toList.head? != some '-'

/-- Reads the arguments behind a task.  `waiting` is the switch whose value comes next.  Two dashes
alone end the switches, and nothing may follow them. -/
def read (allowed : List Switch) (g : Given) (waiting : Option Switch) :
    List String → Except Refusal Given
  | [] => if waiting.isSome then .error .usage else .ok g
  | arg :: args =>
    match waiting with
    | some s =>
      if isValue arg then
        match g.note s arg with
        | .error e => .error e
        | .ok g => g.read allowed none args
      else .error .usage
    | none =>
      if arg == "--" then if args.isEmpty then .ok g else .error .usage
      else
        match g.argument allowed arg with
        | .error e => .error e
        | .ok (g, waiting) => g.read allowed waiting args

end Given

/-- What is to be done: a task with its own switches. -/
inductive Job where
  /-- Generates code into a directory, with the options of a file, if one is given. -/
  | codegen (output : String) (config : Option String)
  /-- Writes a report. -/
  | analyze (format : ReportFormat)
  deriving DecidableEq, Repr

/-- A run of the program. -/
structure Invocation where
  verbose : Bool
  files : List String
  includeDirs : List String
  job : Job
  deriving DecidableEq, Repr

namespace Invocation

/-- The output directory if none is given. -/
def defaultOutput : String := "generated"

/-- The invocation that the switches of a task mean; there has to be a schema file. -/
def ofGiven (verbose : Bool) (v : Verb) (g : Given) : Except Refusal Invocation :=
  if !g.has .files then .error .usage
  else .ok {
    verbose := verbose || g.has .verbose
    files := g.all .files
    includeDirs := g.all .includeDir
    job := match v with
      | .codegen => .codegen ((g.value? .output).getD defaultOutput) (g.value? .config)
      | .analyze => .analyze (((g.value? .format).bind ReportFormat.ofWord?).getD .text) }

/-- Reads the arguments behind the word `help`: at most the name of a task. -/
def parseHelp : List String → Refusal
  | [] => .help
  | [w] => if w == "help" || (Verb.ofWord? w).isSome then .help else .usage
  | _ => .usage

/-- Reads the arguments up to the task, and from there on those of the task. -/
def parseFrom (g : Given) : List String → Except Refusal Invocation
  | [] => .error .usage
  | arg :: args =>
    match Verb.ofWord? arg with
    | some v =>
      match Given.empty.read (Switch.ofVerb v) none args with
      | .error e => .error e
      | .ok given => ofGiven (g.has .verbose) v given
    | none =>
      if arg == "help" then .error (parseHelp args)
      else
        match g.argument Switch.general arg with
        | .error e => .error e
        | .ok (g, _) => parseFrom g args

/-- Reads the arguments of the program. -/
def parse (args : List String) : Except Refusal Invocation := parseFrom .empty args

end Invocation

end WireStub
