import Bundler.Config.Basic
import Bundler.Path.Resolve
import Bundler.Text.Newline
import Bundler.Text.Utf8
import Bundler.Value.Overlay
import Bundler.Value.Placeholder
import Bundler.Yaml.Content

/-!
# Loading a configuration

A project keeps its configuration in one file, and further files for environments, which are laid
over it. Placeholders are replaced when all files have been read.

`nesting` is the greatest number of collections that may stand inside one another in a file.
-/

namespace Bundler.Config

open Yaml

/-- The failure of a text that is refused. -/
def failureOf (path : Path) (refusal : Refusal) : Failure :=
  match refusal with
  | .unreadable failure => failure
  | .malformed fault =>
    let problem := fault.problem.message
    .configuration (match fault.mark with
      | some mark => .malformedAt path.name (mark.line + 1) (mark.column + 1) problem path.text
      | none => .malformed path.name problem path.text)

/-- The name of the type of an item. -/
def itemTypeName (g : Graph) (item : Item) : String :=
  match item with
  | .scalar s => s.typeName
  | .pair .. => "tuple"
  | .cell n => match g.cells[n]? with
    | some (.mapping _) => "dict"
    | some (.set _) => "set"
    | _ => "list"

/-- Whether an item counts as nothing: a scalar that counts as false or an empty collection. -/
def isNothing (g : Graph) (item : Item) : Bool :=
  match item with
  | .scalar s => !s.truthy
  | .pair .. => false
  | .cell n => match g.cells[n]? with
    | some (.mapping entries) => entries.isEmpty
    | some (.set members) => members.isEmpty
    | some (.list items) => items.isEmpty
    | none => true

/-- A configuration file as it was read: a graph and the number of its outermost mapping. -/
structure Source where
  graph : Graph
  root : Nat
  shared : Bool

/-- A source without entries. -/
def Source.empty : Source := ⟨⟨#[.mapping []]⟩, 0, false⟩

/-- The value of a source, if it has no cycle. -/
def Source.value? (s : Source) : Option Value := s.graph.unfold (.cell s.root)

/-- The number of bytes that are decoded at once. -/
def blockSize : Nat := 8192

/-- The characters in front of the first fault. -/
def decodedPart (bytes : ByteArray) : List Char :=
  match Text.Utf8.decode bytes with
  | .ok cs => Text.unifyLineEnds cs
  | .error fault => match Text.Utf8.decode (bytes.extract 0 fault.offset) with
    | .ok cs => Text.unifyLineEnds cs
    | .error _ => []

/-- The characters of a file with unified line ends. Of a file that is not UTF-8 there are those in
front of the fault, and the fault is met where the block of bytes with it is decoded. -/
def readText (bytes : ByteArray) : List Char × Option Barrier :=
  match Text.Utf8.decode bytes with
  | .ok cs => (Text.unifyLineEnds cs, none)
  | .error fault =>
    let complete := (decodedPart (bytes.extract 0 (fault.offset - fault.offset % blockSize))).length
    (decodedPart bytes, some ⟨pieceStart complete, .unreadable (.undecodable fault)⟩)

/-- Read a configuration file. An empty one counts as an empty mapping. -/
def readSource (nesting : Nat) (w : Workspace) (path : Path) (origin : Nat) :
    Except Failure Source := do
  let bytes ← (w.read path).mapError .ofPathFault
  let (cs, cutOff) := readText bytes
  let content ← (Content.ofText nesting cs origin cutOff).mapError (failureOf path)
  if isNothing content.graph content.root then .ok .empty
  else match content.graph.entries? content.root with
    | some (root, _) => .ok ⟨content.graph, root, content.shared⟩
    | none => .error (.configuration
        (.fileNotMapping (itemTypeName content.graph content.root) path.text))

/-- The source that results from laying `top` over `base`. A mapping of `base` that occurs in
several places is changed in all of them. -/
def Source.overlay (base top : Source) : Option Source := do
  let joined := base.graph.join top.graph
  let top := (joined.entries? (.cell (top.root + base.graph.cells.size))).map (·.2)
  let size := joined.cells.size
  let graph ← joined.overlayAt (size * size + 1) base.root (top.getD [])
  some ⟨graph, base.root, base.shared⟩

/-- The value that results from laying `top` over `base`, if there is no cycle. -/
def overlaySources (base top : Source) : Option Value :=
  if base.shared then (base.overlay top).bind Source.value?
  else do some ((← base.value?).overlay (← top.value?))

/-- Where the overlay of an environment stands. -/
def overlayPath (directory : Path) (env : String) : Path :=
  directory.append (.ofString ("modcompile." ++ env ++ ".yaml"))

/-- The environment where none is named. -/
def defaultEnvironment : String := "dev"

/-- The base configuration of a directory; a missing one is a failure only if it is required. -/
def readBase (nesting : Nat) (w : Workspace) (directory : Path) (required : Bool) :
    Except Failure Source := do
  let path := directory.append (.ofString configFileName)
  if ← (w.pathExists path).mapError .ofPathFault then
    if ← (w.isFile path).mapError .ofPathFault then readSource nesting w path 0
    else .error (.configuration (.notAFile path.text))
  else if required then .error (.configuration (.notFound path.text))
  else .ok .empty

/-- The value of the configuration with the overlay of the environment, if there is one. -/
def readAll (nesting : Nat) (w : Workspace) (directory : Path) (env : String) (required : Bool) :
    Except Failure (Option Value) := do
  let base ← readBase nesting w directory required
  if env = "" then .ok base.value?
  else
    let path := overlayPath directory env
    if ← (w.isFile path).mapError .ofPathFault then
      .ok (overlaySources base (← readSource nesting w path 1))
    else .ok base.value?

/-- Load the configuration of a directory, by default the current one, in an environment; the empty
text stands for none. -/
def load (nesting : Nat) (w : Workspace) (vars : Variables) (directory : Option Path)
    (env : String) (required : Bool) : Except Failure Config := do
  let directory ← match directory with
    | some directory => .ok directory
    | none => w.cwdPath.mapError .file
  match ← readAll nesting w directory env required with
  | none => .error .nestedTooDeep
  | some value =>
    let environment := if env = "" then defaultEnvironment else env
    let config : Config := ⟨value.fill ⟨vars, environment⟩⟩
    config.validate
    .ok config

end Bundler.Config
