import Bundler.Log.Layout
import Bundler.Log.Sink

/-!
# The log

The log of the program has a level and handlers. A record that it takes is passed to every handler,
which writes it if it is grave enough for the handler too.
-/

namespace Bundler

namespace Log

/-- What records are passed to. -/
inductive Handler where
  /-- A coloured console, whose output is not kept. -/
  | coloured (level : Int)
  /-- The error output, in some layout. -/
  | console (level : Int) (layout : Layout)
  /-- A file. -/
  | file (sink : Sink)
  deriving DecidableEq, Repr

/-- The level from which on a handler writes records; files leave the choice to the log. -/
def Handler.level : Handler → Int
  | .coloured level | .console level _ => level
  | .file _ => Note.debugLevel

/-- A handler whose file may have been taken away with a location. -/
def Handler.detach (h : Handler) (loc : Location) : Handler :=
  match h with
  | .file sink => .file (sink.detach loc)
  | h => h

/-- Whether a handler fails with a record whose message cannot be made. Only the coloured console
does; the others pass over it. -/
def Handler.failsWith (h : Handler) (r : Record) : Bool :=
  match h with
  | .coloured level => decide (level ≤ r.level)
  | _ => false

/-- What handlers write to. -/
structure Outputs where
  files : FileTree
  /-- The error output. -/
  console : String := ""

/-- Pass a record to a handler. A record that the layout cannot write is lost. -/
def Handler.handle (h : Handler) (r : Record) (out : Outputs) : Handler × Outputs :=
  if r.level < h.level then (h, out)
  else match h with
    | .coloured _ => (h, out)
    | .console _ layout => match layout.format r with
      | .ok text => (h, { out with console := out.console ++ text ++ "\n" })
      | .error _ => (h, out)
    | .file sink => match fileText r with
      | .ok text =>
        let (sink, files) := sink.write out.files (text ++ "\n").toUTF8
        (.file sink, { out with files })
      | .error _ => (h, out)

/-- Pass a record to handlers one after another. -/
def handleAll (r : Record) : List Handler → Outputs → List Handler × Outputs
  | [], out => ([], out)
  | h :: hs, out =>
    let (h, out) := h.handle r out
    let (hs, out) := handleAll r hs out
    (h :: hs, out)

/-- The source that stands for the whole program. -/
def rootSource : String := "modcompile"

/-- Whether a source belongs to the program. -/
def isOurs (source : String) : Bool :=
  source == rootSource || (rootSource ++ ".").toList.isPrefixOf source.toList

end Log

open Log

/-- The log of the program. -/
structure Log where
  level : Int := Note.warningLevel
  handlers : List Handler := []
  deriving Repr

namespace Log

/-- Whether a record is taken: one of the program by the log, one of another source by the defaults
of the process. -/
def takes (log : Log) (r : Record) : Bool := isTaken (if isOurs r.source then log.level else 0) r.level

/-- The handlers to which a record is passed. -/
def handlersOf (log : Log) (r : Record) : List Handler :=
  if log.takes r && isOurs r.source then log.handlers else []

/-- Write a record to the log. -/
def publish (log : Log) (r : Record) (out : Outputs) : Log × Outputs :=
  if (log.handlersOf r).isEmpty then (log, out)
  else
    let (handlers, out) := handleAll r log.handlers out
    ({ log with handlers }, out)

/-- The failure with which a record is refused, if a handler fails with it. -/
def refusal? (log : Log) (r : Record) : Option Failure :=
  match r.message with
  | .ok _ => none
  | .error failure => if (log.handlersOf r).any (·.failsWith r) then some failure else none

/-- The log after a location has been taken away. -/
def detach (log : Log) (loc : Location) : Log :=
  { log with handlers := log.handlers.map (·.detach loc) }

end Log

end Bundler
