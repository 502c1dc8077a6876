import Bundler.InOrder
import Bundler.Load.Basic

/-!
# Compiling entries

The entries of a request are loaded one after another into one session. Each load starts from the
options of the request, whatever earlier loads did to theirs. A module that is to be registered is
followed by a statement that evaluates it under the name the loader registered it under. Nothing
is written here.
-/

namespace Bundler.Compile

open Load

variable {σ : Type}

/-- A session in progress. -/
structure Run (σ : Type) where
  session : Session
  /-- The memory of the loader. -/
  memory : σ
  notes : List Note := []

/-- The origin of the notes on entries. -/
def entrySource : String := "modcompile.orchestrator"

/-- The note on the start of a load. -/
def entryNote (entry : Entry) : Note :=
  .debug entrySource (match entry.kind with
    | .script => "Loading script " ++ entry.name
    | .module => "Importing module " ++ entry.name)

/-- The call that loads an entry. -/
def callOf (options : Options) (entry : Entry) : Call :=
  ⟨entry.kind, entry.name, options.referrerName, options⟩

/-- The run after a reply. -/
def Run.take (run : Run σ) (reply : Reply σ) : Run σ where
  session := { run.session with
    elements := run.session.elements ++ reply.added
    loaded := reply.loaded }
  memory := reply.memory
  notes := run.notes ++ reply.notes

/-- Add the statement that evaluates the module of an entry, if modules are registered. -/
def addEvaluation {τ : Type} (loader : Loader σ) (options : Options) (entry : Entry) (run : Run τ) :
    Except Failure Unit × Run τ :=
  if entry.kind = .module ∧ options.isRegister then
    match loader.nameOf entry.name options.referrerName options with
    | .error failure => (.error failure, run)
    | .ok name => match run.session.append (.evaluation name) with
      | .error failure => (.error failure, run)
      | .ok session => (.ok (), { run with session })
  else (.ok (), run)

/-- Load one entry. -/
def loadEntry (loader : Loader σ) (view : View) (options : Options) (entry : Entry)
    (run : Run σ) : Except Failure Unit × Run σ :=
  let run := { run with notes := run.notes ++ [entryNote entry] }
  let reply := loader.load (fun ns => view (run.notes ++ ns)) run.session run.memory
    (callOf options entry)
  let run := run.take reply
  match reply.result with
  | .error failure => (.error failure, run)
  | .ok () => addEvaluation loader { options with extras := reply.extras } entry run

/-- Load entries in order into a new session below a base directory and finish it. The answer has
no tree if only dependencies are asked for. -/
def compileEntries (loader : Loader σ) (view : View) (entries : List Entry) (options : Options)
    (base : Path) (memory : σ) : Except Failure (Option Tree) × Run σ :=
  match inOrder (loadEntry loader view options) entries ⟨⟨base, [], [], false⟩, memory, []⟩ with
  | (.error failure, run) => (.error failure, run)
  | (.ok (), run) =>
    match run.session.finish options.dependencyTarget with
    | .error failure => (.error failure, run)
    | .ok (tree, session) => (.ok tree, { run with session })

/-! ### Beside other work -/

/-- Load one entry as `loadEntry` does, with what the loader asks on the way. -/
def askEntry (loader : SharedLoader σ) (options : Options) (entry : Entry) (session : Session) :
    Inquiry σ (Except Failure Unit × Session) := do
  Inquiry.notes [entryNote entry]
  let answer ← loader.ask session (callOf options entry)
  let session := { session with
    elements := session.elements ++ answer.added
    loaded := answer.loaded }
  match answer.result with
  | .error failure => return (.error failure, session)
  | .ok () =>
    let (result, run) := addEvaluation loader.toLoader { options with extras := answer.extras }
      entry { session, memory := () }
    return (result, run.session)

/-- Load entries in order into a new session and finish it, as `compileEntries` does. -/
def askEntries (loader : SharedLoader σ) (entries : List Entry) (options : Options) (base : Path) :
    Inquiry σ (Except Failure (Option Tree) × Session) := do
  match ← Inquiry.inOrder (askEntry loader options) entries ⟨base, [], [], false⟩ with
  | (.error failure, session) => return (.error failure, session)
  | (.ok (), session) =>
    match session.finish options.dependencyTarget with
    | .error failure => return (.error failure, session)
    | .ok (tree, session) => return (.ok tree, session)

end Bundler.Compile
