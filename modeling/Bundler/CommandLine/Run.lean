import Bundler.CommandLine.Shell
import Bundler.CommandLine.Usage
import Bundler.Load.Source
import Bundler.Log.Setup
import Bundler.Project

/-!
# The commands

Every command reads the configuration of its project, sets up the log from it and compiles the
entries. A failure of the compilation is reported, and the command exits with status one.
-/

namespace Bundler.CommandLine

open Compile ShellM

/-- The project that the options of a command choose. -/
def projectOf (start : Path) (given : Given) : Project where
  directory := some ((given.projectDir.map Path.ofString).getD start)
  env := given.env

/-- Read the configuration of a project and set up the log from it. -/
def loadProject (project : Project) (verbose : Bool) : ShellM Config := do
  let sh ← get
  let config ← orFail Failure.isOwn (project.config sh.nodeNesting sh.workspace sh.vars)
  let sh ← get
  let (result, log, workspace) :=
    Log.setUpFor config.data project.directory verbose sh.journal.log sh.workspace
  set { sh with journal := { sh.journal with log }, workspace }
  match result with
  | .ok () => pure config
  | .error failure => throw (.escape failure)

/-- The options of a command: those of the configuration and what its own options change. -/
def optionsOf (config : Config) (overrides : List (String × Option String)) : ShellM Options :=
  orFail Failure.isOwn (Project.optionsOf config (overrides.map fun (key, value) =>
    (Scalar.text key, value.elim Value.null Value.text)))

/-- The directory of a project seen from the root. -/
def baseOf (w : Workspace) (project : Project) : Except FileError Path :=
  (w.absolute (project.directory.getD w.start)).map fun p => { p with anchor := .root }

/-- The memory of a compilation that has not begun. -/
def freshRecord : Record (List (Value × String)) := ⟨[], [], []⟩

/-- A request of the command line in a directory. -/
def requestOf (target : String) (entries : List String) (options : Options) (base : Path) :
    Request where
  output := (Path.ofString target).text
  entries := entries.map Entry.parse
  options := some options
  base := some base.text

/-- Compile entries into one file. -/
def bundle (project : Project) (given : Given) (target : String) (entries : List String) :
    ShellM Unit := do
  let config ← loadProject project given.verbose
  let options ← optionsOf config [("module_mode", given.modules), ("referrer", given.referrer)]
  let base ← orFail isReported ((baseOf (← get).workspace project).mapError .file)
  let request := requestOf target entries options base
  let loader := Load.Source.loader false (← get).loadNesting
  let tree ← compile freshRecord (merge loader request)
  if let some tree := tree then
    say ("Wrote " ++ request.output ++ " (" ++ toString tree.length ++ " elements)")

/-- Tell what became of an entry. -/
def report (outcome : Outcome) : ShellM Unit :=
  match outcome.result with
  | .ok _ => say ("ok     " ++ outcome.entry.name ++ " -> " ++ outcome.output.text)
  | .error failure => complain ("failed " ++ outcome.entry.name ++ ": " ++ failure.message)

/-- Whether an entry was compiled. -/
def succeeded (outcome : Outcome) : Bool :=
  match outcome.result with
  | .ok _ => true
  | .error _ => false

/-- Compile every entry into a file of its own. The command fails if any of them does. -/
def each (project : Project) (given : Given) (target : String) (entries : List String) :
    ShellM Unit := do
  let config ← loadProject project given.verbose
  let options ← optionsOf config [("module_mode", given.modules), ("referrer", given.referrer)]
  let base ← orFail isReported ((baseOf (← get).workspace project).mapError .file)
  let sh ← get
  let loader := Load.Source.sharedLoader false sh.loadNesting
  let outcomes ← compile freshRecord
    (compileEach loader sh.turns (requestOf target entries options base))
  outcomes.forM report
  unless outcomes.all succeeded do throw (.exit 1)

/-- List the files that entries are made of, also those found before a failure. -/
def deps (project : Project) (given : Given) (target : String) (entries : List String) :
    ShellM Unit := do
  let config ← loadProject project given.verbose
  let options ← optionsOf config
    [("referrer", given.referrer), ("dependency_target", some target)]
  let w := (← get).workspace
  let base ← orFail (fun _ => false) ((baseOf w project).mapError .file)
  let resolved ← orFail isReported
    ((Entry.resolveAll w base none (entries.map Entry.parse)).mapError .file)
  let sh ← get
  let (result, run) := compileEntries (Load.Source.loader true sh.loadNesting) (sh.journal.view w)
    resolved options base []
  run.memory.forM fun (target, path) => say (target.shown ++ ": " ++ path)
  publish run.notes
  discard <| orFail isReported result

/-- Run a command for a target and some entries. -/
def runCommand (c : Command) (target : String) (entries : List String) (given : Given) :
    ShellM Unit := do
  let project := projectOf (← get).workspace.start given
  match c with
  | .bundle => bundle project given target entries
  | .each => each project given target entries
  | .deps => deps project given target entries

/-- Do what is asked for. -/
def perform (invocation : Invocation) : ShellM Unit :=
  match invocation with
  | .version => say versionLine
  | .help command => say (helpText command)
  | .run c target entries given => runCommand c target entries given

/-- The status with which the program exits. -/
def statusOf : Option Stop → Nat
  | none => 0
  | some (.exit status) => status
  | some (.escape _) => 1

/-- The status of arguments that are refused. -/
def refusalStatus : Nat := 2

/-- Do what the arguments of the program ask for, or tell why they are refused. -/
def respond (args : List String) : ShellM Unit :=
  match readArguments args with
  | .ok invocation => perform invocation
  | .error .nullByte => throw (.escape (.ofPathFault .nullByte))
  | .error fault => do
    complain (refusalText fault)
    throw (.exit refusalStatus)

end Bundler.CommandLine
