import Bundler.Failure
import Bundler.Log.Journal

/-!
# Work

A piece of work may fail, and in any case it leaves behind what it has done so far: the workspace,
a memory of its own and the journal it wrote.
-/

namespace Bundler.Compile

/-- What has been done so far. -/
structure Work (σ : Type) where
  workspace : Workspace
  memory : σ
  journal : Journal := {}

/-- The work after some notes have been written to the journal. -/
def Work.noted {σ : Type} (ns : List Note) (work : Work σ) : Work σ :=
  { work with
    journal := (work.journal.noteAll ns work.workspace).1
    workspace := (work.journal.noteAll ns work.workspace).2 }

/-- Work that gives an `α` or fails. -/
abbrev WorkM (σ : Type) := ExceptT Failure (StateM (Work σ))

namespace WorkM

variable {σ α : Type}

/-- Carry out a piece of work. -/
def carryOut (act : WorkM σ α) (work : Work σ) : Except Failure α × Work σ := act.run work

/-- Write notes to the journal. -/
def notes (ns : List Note) : WorkM σ Unit := modify (Work.noted ns)

/-- Write a note to the journal. -/
def note (n : Note) : WorkM σ Unit := notes [n]

/-- Do something with the workspace, which may be changed even in a failure. -/
def onWorkspace (act : Workspace → Except Failure α × Workspace) : WorkM σ α := do
  let work ← get
  let (result, workspace) := act work.workspace
  set { work with workspace }
  MonadExcept.ofExcept result

/-- Do a piece of work and then, whether it succeeds or not, another. A failure of the second one
takes the place of the outcome of the first. -/
def thenAlways (act : WorkM σ α) (last : WorkM σ Unit) : WorkM σ α := do
  let result ← liftM (m := StateM (Work σ)) act.run
  last
  MonadExcept.ofExcept result

end WorkM

end Bundler.Compile
