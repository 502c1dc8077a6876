import Bundler.FileTree.Basic
import Bundler.Path.Basic
import Bundler.Steps
import Bundler.Text.Quoted
import Bundler.Text.Utf8

/-!
# Workspaces

A workspace is a file tree with a current directory. Relative paths are read from the current
directory; if that has been removed, nothing is found below it. An operation that fails may have
changed the tree before, so the operations that write return the workspace they leave in any case.

Directories are made one after another, and a file is opened before it is written to. These are
steps between which other work on the same tree may take place.
-/

namespace Bundler

open FileTree

/-- An error of an operation on a file tree, with the path it was given. -/
structure FileError where
  code : Errno
  path : Option String
  deriving DecidableEq, Repr

/-- The wording of an error. -/
def FileError.message (e : FileError) : String :=
  "[Errno " ++ toString e.code.number ++ "] " ++ e.code.message
    ++ (e.path.elim "" fun p => ": " ++ Text.Quoted.ofText p)

/-- Why an operation on a path failed. -/
inductive PathFault where
  | file (error : FileError)
  /-- The path holds the character that ends a path. -/
  | nullByte
  deriving DecidableEq, Repr

/-- A file tree with a current directory, which is `none` once it has been removed. `start` is the
directory in which the work began. -/
structure Workspace where
  files : FileTree
  cwd : Option Location
  start : Path
  /-- The characters that stand in names for bytes that are not UTF-8. -/
  standIns : List Char := []

namespace Workspace

/-- The directory that a path is read from. -/
def origin? (w : Workspace) (p : Path) : Option Location :=
  if p.isAbsolute then some [] else w.cwd

/-- An error with the path it is about. -/
def fault (p : Path) (code : Errno) : PathFault := .file ⟨code, some p.text⟩

/-- Whether a path can be passed to the file tree. -/
def holdsNull (p : Path) : Bool := p.segments.any fun s => s.toList.contains '\x00'

/-- The greatest number of bytes in a path. -/
def pathLimit : Nat := 4095

/-- Whether a path has more bytes than the file tree takes, however short its names are. -/
def isTooLong (p : Path) : Bool := decide (pathLimit < p.text.utf8ByteSize)

/-- The node that a path leads to, with its location. A removed current directory is still a
directory, but has no location. -/
def look (w : Workspace) (p : Path) : Except Errno (Option Location × Node) :=
  if isTooLong p then .error .nameTooLong
  else match w.origin? p with
    | some loc => (w.files.look loc p.segments).map fun (loc, node) => (some loc, node)
    | none => if p.segments = [] then .ok (none, .directory) else .error .noEntry

/-- The location that a path would have as a new node: all but its last segment lead to a
directory, and the last is a name. -/
def slot (w : Workspace) (p : Path) (whenTaken : Errno) : Except Errno Location :=
  if isTooLong p then .error .nameTooLong
  else match p.segments.getLast? with
    | none => .error whenTaken
    | some last =>
      match w.origin? p with
      | none => .error .noEntry
      | some loc => do
        let dir ← w.files.walk loc p.segments.dropLast
        let loc ← w.files.step dir last
        if last = ".." then .error whenTaken else .ok loc

/-- The bytes of the file at a path. -/
def read (w : Workspace) (p : Path) : Except PathFault ByteArray :=
  if holdsNull p then .error .nullByte
  else match w.look p with
    | .ok (_, .file content) => .ok content
    | .ok (_, .directory) => .error (fault p .isDirectory)
    | .error code => .error (fault p code)

/-- Whether a path leads to a node for which `test` holds. A name that is too long is an error,
other failures mean that there is no such node. -/
def test (w : Workspace) (p : Path) (test : Node → Bool) : Except PathFault Bool :=
  if holdsNull p then .ok false
  else match w.look p with
    | .ok (_, node) => .ok (test node)
    | .error .nameTooLong => .error (fault p .nameTooLong)
    | .error _ => .ok false

/-- Whether a path leads to anything. -/
def pathExists (w : Workspace) (p : Path) : Except PathFault Bool := w.test p fun _ => true

/-- Whether a path leads to a file. -/
def isFile (w : Workspace) (p : Path) : Except PathFault Bool := w.test p (· != .directory)

/-- Make the directory at a path, whose parent must be there. -/
def makeDirectory (w : Workspace) (p : Path) : Except Errno Workspace := do
  let loc ← w.slot p .exists
  match w.files.node? loc with
  | some _ => .error .exists
  | none => .ok { w with files := w.files.put loc .directory }

/-- Whether a path leads to a directory. -/
def isDirectory (w : Workspace) (p : Path) : Bool :=
  match w.look p with
  | .ok (_, .directory) => true
  | _ => false

/-- Make the directory at a path; it may be there already. -/
def ensureDirectory (w : Workspace) (p : Path) : Except Errno Workspace :=
  match w.makeDirectory p with
  | .ok w => .ok w
  | .error code => if code ≠ .noEntry ∧ w.isDirectory p then .ok w else .error code

/-- Make the directory at a path, which may be there already, in a step. -/
def ensuring (p : Path) : Steps Workspace (Except Errno Unit) :=
  Steps.once fun w => match w.ensureDirectory p with
    | .ok w => (.ok (), w)
    | .error code => (.error code, w)

/-- Make the directory at `anchor` and the given segments, last first, with all above it that is
missing. -/
def makingDirectoriesAt (anchor : Anchor) :
    List String → Steps Workspace (Except PathFault Unit)
  | [] => do
    let p : Path := ⟨anchor, []⟩
    return (← ensuring p).mapError (fault p)
  | last :: above => do
    let p : Path := ⟨anchor, (last :: above).reverse⟩
    match ← ensuring p with
    | .error .noEntry =>
      match ← makingDirectoriesAt anchor above with
      | .error f => return .error f
      | .ok () => return (← ensuring p).mapError (fault p)
    | result => return result.mapError (fault p)

/-- Make the directory at a path with all above it that is missing. -/
def makingDirectories (p : Path) : Steps Workspace (Except PathFault Unit) :=
  if holdsNull p then return .error .nullByte
  else makingDirectoriesAt p.anchor p.segments.reverse

/-- Make the directory at a path with all above it that is missing, in a row. -/
def makeDirectories (w : Workspace) (p : Path) : Except PathFault Unit × Workspace :=
  (makingDirectories p).run w

/-- Open the file at a path to write it. One that is there loses its content, one that is missing is
made. The answer is its location. -/
def openFile (w : Workspace) (p : Path) : Except PathFault (Location × Workspace) :=
  if holdsNull p then .error .nullByte
  else match w.slot p .isDirectory with
    | .error code => .error (fault p code)
    | .ok loc => match w.files.node? loc with
      | some .directory => .error (fault p .isDirectory)
      | _ => .ok (loc, { w with files := w.files.put loc (.file .empty) })

/-- Bytes written over the start of others. -/
def overlay (bytes old : ByteArray) : ByteArray := bytes ++ old.extract bytes.size old.size

/-- Write bytes to the file at a location, from its start on. -/
def fill (w : Workspace) (loc : Location) (bytes : ByteArray) : Workspace :=
  match w.files.content? loc with
  | some old => { w with files := w.files.put loc (.file (overlay bytes old)) }
  | none => w

/-- Open the file at a path to write it, in a step. -/
def opening (p : Path) : Steps Workspace (Except PathFault Location) :=
  Steps.once fun w => match w.openFile p with
    | .ok (loc, w) => (.ok loc, w)
    | .error f => (.error f, w)

/-- Write a text to the file at a location, in a step. -/
def filling (loc : Location) (text : String) : Steps Workspace (Except Text.Utf8.EncodeFault Unit) :=
  Steps.once fun w => match Text.Utf8.encode w.standIns text with
    | .ok bytes => (.ok (), w.fill loc bytes)
    | .error f => (.error f, w)

/-- Write a file at a path, in place of one that is there. -/
def write (w : Workspace) (p : Path) (content : ByteArray) : Except PathFault Workspace :=
  (w.openFile p).map fun (loc, w) => w.fill loc content

/-- Make the directory at a path the current one. -/
def enter (w : Workspace) (p : Path) : Except PathFault Workspace :=
  if holdsNull p then .error .nullByte
  else match w.look p with
    | .ok (loc, .directory) => .ok { w with cwd := loc }
    | .ok (_, .file _) => .error (fault p .notDirectory)
    | .error code => .error (fault p code)

/-- The absolute path of a location. -/
def pathOf (loc : Location) : Path := ⟨.root, loc⟩

/-- The path of the current directory. -/
def cwdPath (w : Workspace) : Except FileError Path :=
  match w.cwd with
  | some loc => .ok (pathOf loc)
  | none => .error ⟨.noEntry, none⟩

/-- Take a location and all below it away. A current directory that lies there is gone. -/
def remove (w : Workspace) (loc : Location) : Workspace :=
  { w with
    files := w.files.remove loc
    cwd := w.cwd.filter fun dir => !loc.isPrefixOf dir }

end Workspace

end Bundler
