import Bundler.FileTree.Workspace
import Bundler.Log.Basic

/-!
# The journal of a piece of work

Work writes its notes to the journal when it takes them: the log passes them to its handlers at
once, so that what is read later from a log file has them. The journal also holds the error output,
which a console of the log shares with the work, and the records that the log has taken.
-/

namespace Bundler

open Log

/-- The log with what it has written besides files. -/
structure Journal where
  log : Log := {}
  /-- The time that records are given. -/
  time : Instant := {}
  /-- The error output. -/
  errors : String := ""
  /-- The records that the log has taken, the latest first. -/
  taken : List Record := []

namespace Journal

/-- Write a record to the log. -/
def write (j : Journal) (r : Record) (w : Workspace) : Journal × Workspace :=
  let (log, out) := j.log.publish r ⟨w.files, j.errors⟩
  ({ j with log, errors := out.console, taken := if j.log.takes r then r :: j.taken else j.taken },
    { w with files := out.files })

/-- Write a note to the log. -/
def note (j : Journal) (n : Note) (w : Workspace) : Journal × Workspace :=
  j.write (.ofNote j.time n) w

/-- Write notes to the log one after another. -/
def noteAll (j : Journal) : List Note → Workspace → Journal × Workspace
  | [], w => (j, w)
  | n :: ns, w =>
    let (j, w) := j.note n w
    j.noteAll ns w

/-- The workspace as it is after some notes. -/
def view (j : Journal) (w : Workspace) (ns : List Note) : Workspace := (j.noteAll ns w).2

end Journal

end Bundler
