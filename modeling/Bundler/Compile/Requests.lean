import Bundler.Compile.Entries
import Bundler.Compile.Within
import Bundler.Element.Emit
import Bundler.Entry.Placement

/-!
# Requests

A request names entries and a place to write to. Its entries are merged in order into one file, or
each of them is compiled into a file of its own below a directory. In the second case the entries
are compiled at the same time: each one in steps, which are taken in turns.
-/

namespace Bundler.Compile

open Load WorkM

variable {σ : Type}

/-- What the compilation keeps besides the workspace. -/
structure Record (σ : Type) where
  /-- The memory of the loader. -/
  memory : σ
  /-- The sessions in the order in which they ended. -/
  sessions : List Session := []
  /-- The options of the requests. -/
  requests : List Options := []

/-- The origin of the notes on files written. -/
def writerSource : String := "modcompile.writer"

/-- What is asked to be compiled. -/
structure Request where
  /-- The file or directory to write to. -/
  output : String
  entries : List Entry
  options : Option Options
  /-- The directory that relative paths are read from, if not the one the work began in. -/
  base : Option String

/-- Load entries into a new session. -/
def session (loader : Loader σ) (entries : List Entry) (options : Options) (base : Path) :
    WorkM (Record σ) (Option Tree) := do
  let work ← get
  let (result, run) := compileEntries loader (work.journal.view work.workspace) entries options base
    work.memory.memory
  set { work with
    memory := { work.memory with
      memory := run.memory, sessions := work.memory.sessions ++ [run.session] } }
  notes run.notes
  MonadExcept.ofExcept result

/-- Keep the options that a request is compiled with. -/
def begin (options : Options) : WorkM (Record σ) Unit :=
  modify fun work => { work with
    memory := { work.memory with requests := work.memory.requests ++ [options] } }

/-- Write a tree to a file and take a note of it. -/
def writeTree (tree : Tree) (path : Path) (what : String) : WorkM (Record σ) Unit := do
  onWorkspace fun w => Tree.write w tree path
  note (.info writerSource ("Wrote " ++ what ++ " to " ++ path.text))

/-- Merge the entries of a request, in order, into one file. Loading and writing take place in the
directory of that file. The answer has no tree, and nothing is written, if only dependencies are
asked for. -/
def merge (loader : Loader σ) (request : Request) : WorkM (Record σ) (Option Tree) := do
  let w := (← get).workspace
  let base := w.base request.base
  let output := Path.resolve request.output base
  let directory := output.parent
  let entries ← MonadExcept.ofExcept
    ((Entry.resolveAll w base (some directory) request.entries).mapError .file)
  let options := (request.options.getD {}).withBundle (.bool (decide (1 < entries.length)))
  begin options
  within directory do
    let tree ← session loader entries options directory
    if let some tree := tree then
      writeTree tree output (toString tree.length ++ " element(s)")
    pure tree

/-! ### Each entry on its own -/

/-- What became of one entry. -/
structure Outcome where
  entry : Entry
  output : Path
  result : Except Failure (Option Tree)

/-- The steps of an inquiry. A note is written in a step, and so is every look taken. -/
def inquiring {α : Type} : Inquiry σ α → Steps (Work (Record σ)) α
  | .answer a => .done a
  | .note n rest => .step (Work.noted [n]) fun _ => inquiring rest
  | .keep change rest =>
    .step (fun work => { work with
        memory := { work.memory with memory := change work.memory.memory } })
      fun _ => inquiring rest
  | .look rest => .step id fun work => inquiring (rest work.workspace)

/-- Keep a session that has ended. -/
def keepSession (session : Session) (work : Work (Record σ)) : Work (Record σ) :=
  { work with memory := { work.memory with sessions := work.memory.sessions ++ [session] } }

/-- The steps in which an entry is compiled into a file of its own. -/
def compiling (loader : SharedLoader σ) (options : Options) (base : Path) (entry : Entry)
    (output : Path) : Steps (Work (Record σ)) (Except Failure (Option Tree)) := do
  let (result, session) ← inquiring (askEntries loader [entry.resolve base] options base)
  Steps.once fun work => ((), keepSession session work)
  match result with
  | .error failure => return .error failure
  | .ok none => return .ok none
  | .ok (some tree) =>
    match ← (tree.writing output).onPart Work.workspace fun workspace work =>
        { work with workspace } with
    | .error failure => return .error failure
    | .ok () =>
      Steps.once fun work => ((), work.noted
        [.info writerSource ("Wrote " ++ entry.name ++ " to " ++ output.text)])
      return .ok (some tree)

/-- Compile entries at the same time, their steps in turns. A failure of one does not keep the others
from being compiled. -/
def outcomes (loader : SharedLoader σ) (turns : List Nat) (options : Options) (base : Path)
    (jobs : List (Entry × Path)) (work : Work (Record σ)) : List Outcome × Work (Record σ) :=
  let (results, work) := Steps.together turns
    (jobs.map fun (entry, output) => compiling loader options base entry output) work
  (jobs.zipWith (fun (entry, output) result => ⟨entry, output, result⟩) results, work)

/-- Take a note of every entry that failed. Work that was called off is no result of an entry. -/
def settle (outcomes : List Outcome) : WorkM (Record σ) Unit :=
  outcomes.forM fun outcome =>
    match outcome.result with
    | .ok _ => pure ()
    | .error .cancelled => throw .cancelled
    | .error failure =>
      note (.error writerSource
        ("Failed to compile " ++ outcome.entry.name ++ ": " ++ failure.message))

/-- Compile every entry of a request into a file of its own below the output directory, the steps of
the entries in turns. The current directory stays the same. -/
def compileEach (loader : SharedLoader σ) (turns : List Nat) (request : Request) :
    WorkM (Record σ) (List Outcome) := do
  let w := (← get).workspace
  let base := w.base request.base
  let directory := Path.resolve request.output base
  let options := (request.options.getD {}).withBundle (.bool false)
  begin options
  let outputs ← MonadExcept.ofExcept
    ((request.entries.mapM fun entry => Entry.outputPath w base directory entry.name).mapError
      .file)
  let work ← get
  let (results, work) := outcomes loader turns options base (request.entries.zip outputs) work
  set work
  settle results
  pure results

end Bundler.Compile
