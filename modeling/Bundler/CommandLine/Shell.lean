import Bundler.Compile.Work
import Bundler.Text.ControlSequence
import Bundler.Value.Placeholder

/-!
# The shell

A command works in a workspace, keeps a journal and prints to the output and the error output. It
ends by an exit with a status or, if a failure that it does not report leaves it, by that failure.
-/

namespace Bundler.CommandLine

/-- What a command works with. -/
structure Shell where
  workspace : Workspace
  /-- The variables of the process. -/
  vars : Variables
  journal : Journal := {}
  output : String := ""
  /-- The greatest number of collections inside one another in a configuration file. -/
  nodeNesting : Nat
  /-- The greatest depth of nested loads. -/
  loadNesting : Nat
  /-- The order in which entries that are compiled at the same time take their steps. -/
  turns : List Nat := []

/-- How a command ends before its last step. -/
inductive Stop where
  | exit (status : Nat)
  | escape (failure : Failure)
  deriving Repr

/-- A piece of work of a command. -/
abbrev ShellM := ExceptT Stop (StateM Shell)

namespace ShellM

/-- What is printed of a line. -/
def printed (line : String) : String := Text.withoutSequences line ++ "\n"

/-- Print a line to the output. -/
def say (line : String) : ShellM Unit :=
  modify fun sh => { sh with output := sh.output ++ printed line }

/-- Print a line to the error output. -/
def complain (line : String) : ShellM Unit :=
  modify fun sh =>
    { sh with journal := { sh.journal with errors := sh.journal.errors ++ printed line } }

/-- Write notes to the journal. -/
def publish (notes : List Note) : ShellM Unit :=
  modify fun sh =>
    let (journal, workspace) := sh.journal.noteAll notes sh.workspace
    { sh with journal, workspace }

/-- The source of what the command line tells. -/
def source : String := "modcompile.cli"

/-- Report a failure and give up. -/
def fail (failure : Failure) : ShellM α := do
  publish [.error source failure.message]
  complain ("Error: " ++ failure.message)
  throw (.exit 1)

/-- The value of a result whose failures are reported if they are of the right kind. -/
def orFail (isReported : Failure → Bool) (result : Except Failure α) : ShellM α :=
  match result with
  | .ok a => pure a
  | .error failure => if isReported failure then fail failure else throw (.escape failure)

/-- Whether a compilation that ends with a failure reports it. -/
def isReported (failure : Failure) : Bool := failure.isOwn || failure.isFile

/-- Carry out a compilation, which writes to the journal of the shell. -/
def compile (memory : σ) (act : Compile.WorkM σ α) : ShellM α := do
  let sh ← get
  let (result, work) := Compile.WorkM.carryOut act ⟨sh.workspace, memory, sh.journal⟩
  set { sh with workspace := work.workspace, journal := work.journal }
  orFail isReported result

/-- Run a command. -/
def execute (act : ShellM Unit) (sh : Shell) : Option Stop × Shell :=
  match act.run.run sh with
  | (.ok (), sh) => (none, sh)
  | (.error stop, sh) => (some stop, sh)

end ShellM

end Bundler.CommandLine
