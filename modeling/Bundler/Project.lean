import Bundler.Compile.Requests
import Bundler.Config.Load
import Bundler.Dual

/-!
# Projects

A project is a directory with a configuration. Requests that bring no options of their own are
compiled with those of a project.
-/

namespace Bundler

open Compile Load

variable {σ : Type}

/-- A project and what is to be changed in its options. -/
structure Project where
  /-- Where the configuration stands, if not in the current directory. -/
  directory : Option Path := none
  /-- The environment, if not the one that the variables of the process name. -/
  env : Option String := none
  /-- Settings that win over those of the configuration. -/
  overrides : Mapping := []

namespace Project

/-- The variable that names the environment where none is given. -/
def environmentVariable : String := "MODCOMPILE_ENV"

/-- The name of the environment: the one given or else the one that the variables name. The empty
text stands for none. -/
def environmentName (vars : Variables) (given : Option String) : String :=
  match given with
  | none | some "" => (vars.lookup environmentVariable).getD ""
  | some env => env

/-- The configuration of a project; a missing one counts as empty. -/
def config (p : Project) (nesting : Nat) (w : Workspace) (vars : Variables) :
    Except Failure Config :=
  Config.load nesting w vars p.directory (environmentName vars p.env) false

/-- The options that a configuration and some overrides ask for. -/
def optionsOf (config : Config) (overrides : Mapping) : Except Failure Options :=
  Options.ofArguments (config.compileSection.entries?.getD []) overrides

/-- The options of a project. -/
def options (p : Project) (nesting : Nat) (w : Workspace) (vars : Variables) :
    Except Failure Options := do
  optionsOf (← p.config nesting w vars) p.overrides

/-- A request with options: its own or else those of the project. -/
def prepare (p : Project) (nesting : Nat) (vars : Variables) (request : Request) :
    WorkM (Record σ) Request := do
  match request.options with
  | some _ => pure request
  | none =>
    let options ← MonadExcept.ofExcept (p.options nesting (← get).workspace vars)
    pure { request with options := some options }

/-- Merge the entries of a request into one file. -/
def bundle (p : Project) (nesting : Nat) (loader : Loader σ) (vars : Variables)
    (request : Request) : WorkM (Record σ) (Option Tree) := do
  merge loader (← p.prepare nesting vars request)

/-- Compile every entry of a request into a file of its own. -/
def bundleEach (p : Project) (nesting : Nat) (loader : SharedLoader σ) (turns : List Nat)
    (vars : Variables) (request : Request) : WorkM (Record σ) (List Outcome) := do
  compileEach loader turns (← p.prepare nesting vars request)

/-- Work of a request as a function for both contexts. -/
def forBoth {α : Type} (work : Request → WorkM (Record σ) α) :
    Except Failure (CallContext → Request → Work (Record σ) →
      Called (Work (Record σ)) (Except Failure α) × Work (Record σ)) :=
  dual (.work fun request => Steps.once (WorkM.carryOut (work request)))

end Project

end Bundler
