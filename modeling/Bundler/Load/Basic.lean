import Bundler.ModuleName
import Bundler.Note
import Bundler.Session

/-!
# Loaders

A loader finds the source of a name and adds compiled elements to a session. The compilation sees
nothing of a loader but its replies: whatever a loader does, it can only add elements at the end,
leave other settings behind, and succeed or fail.
-/

namespace Bundler.Load

/-- What a loader is asked to load. -/
structure Call where
  kind : EntryKind
  name : String
  referrer : Value
  options : Options

/-- What comes of a load. -/
structure Answer where
  result : Except Failure Unit
  /-- The elements added to the session. -/
  added : List Element
  /-- The names whose load has begun in the session, the latest first. -/
  loaded : List String
  /-- The settings of the call as the loader leaves them. -/
  extras : Mapping

/-- What a loader answers. -/
structure Reply (σ : Type) extends Answer where
  /-- The memory of the loader after the call. -/
  memory : σ
  notes : List Note

/-- The workspace as a loader finds it after the notes it has taken. -/
abbrev View := List Note → Workspace

/-- A loader with a memory, which outlives the session. -/
structure Loader (σ : Type) where
  load : View → Session → σ → Call → Reply σ
  /-- The name under which a module is registered. -/
  nameOf : (name : String) → (referrer : Value) → Options → Except Failure String

/-! ### Loads beside other work -/

/-- What is done without changing files: notes are taken, the memory changes, and the workspace is
looked at. Others may have changed it at each look. -/
inductive Inquiry (σ α : Type) where
  | answer (result : α)
  | note (n : Note) (rest : Inquiry σ α)
  | keep (change : σ → σ) (rest : Inquiry σ α)
  | look (rest : Workspace → Inquiry σ α)

namespace Inquiry

variable {σ α β ε : Type}

/-- An inquiry that goes on where another one ends. -/
def bind : Inquiry σ α → (α → Inquiry σ β) → Inquiry σ β
  | answer a, next => next a
  | note n rest, next => note n (rest.bind next)
  | keep change rest, next => keep change (rest.bind next)
  | look rest, next => look fun w => (rest w).bind next

instance : Monad (Inquiry σ) where
  pure := answer
  bind := bind

/-- Look at the workspace. -/
def see : Inquiry σ Workspace := look answer

/-- Take notes. -/
def notes (ns : List Note) : Inquiry σ Unit := ns.foldr note (answer ())

/-- Change the memory. -/
def remember (change : σ → σ) : Inquiry σ Unit := keep change (answer ())

/-- Take a step for each item, in order, as long as the steps succeed. -/
def inOrder (step : α → β → Inquiry σ (Except ε Unit × β)) :
    List α → β → Inquiry σ (Except ε Unit × β)
  | [], s => return (.ok (), s)
  | a :: as, s => do
    match ← step a s with
    | (.error e, s) => return (.error e, s)
    | (.ok (), s) => inOrder step as s

/-- What comes of an inquiry if nobody else changes what it looks at, with the notes and the memory
in the end. -/
def seenBy (view : View) : Inquiry σ α → List Note → σ → α × List Note × σ
  | answer a, ns, memory => (a, ns, memory)
  | note n rest, ns, memory => rest.seenBy view (ns ++ [n]) memory
  | keep change rest, ns, memory => rest.seenBy view ns (change memory)
  | look rest, ns, memory => (rest (view ns)).seenBy view ns memory

end Inquiry

/-- A loader whose loads can also take place beside other work. -/
structure SharedLoader (σ : Type) extends Loader σ where
  ask : Session → Call → Inquiry σ Answer

end Bundler.Load
