import Bundler.Compile.Work

/-!
# Working in another directory

`within` does a piece of work in a directory, which is made if it is missing, and comes back to
the directory it started from on every way out.
-/

namespace Bundler.Compile

open WorkM

variable {σ α : Type}

/-- The origin of the notes on the current directory. -/
def directorySource : String := "modcompile.workdir"

/-- Make a directory the current one. -/
def enter (directory : Path) : WorkM σ Unit :=
  onWorkspace fun w => match w.enter directory with
    | .ok w => (.ok (), w)
    | .error fault => (.error (.ofPathFault fault), w)

/-- The current directory, from which work in `target` begins. -/
def departure (target : Path) : WorkM σ Path := do
  match (← get).workspace.cwdPath with
  | .ok directory => pure directory
  | .error _ => throw (.output target.text "the current working directory no longer exists")

/-- Make a directory with all above it that is missing. -/
def makeDirectories (directory : Path) : WorkM σ Unit :=
  onWorkspace fun w =>
    let (result, w) := w.makeDirectories directory
    (result.mapError .ofPathFault, w)

/-- Do a piece of work in a directory. -/
def within (target : Path) (body : WorkM σ α) : WorkM σ α := do
  let previous ← departure target
  makeDirectories target
  enter target
  note (.debug directorySource ("Working directory switched to " ++ target.text))
  thenAlways body do
    enter previous
    note (.debug directorySource ("Working directory restored to " ++ previous.text))

end Bundler.Compile
