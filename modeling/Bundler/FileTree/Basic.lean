/-!
# File trees

A file tree assigns a file or a directory to locations, the lists of names on the way down from the
root. The root itself is always a directory.
-/

namespace Bundler

/-- The names on the way from the root to a node. -/
abbrev Location := List String

/-- What stands at a location. -/
inductive Node where
  | file (content : ByteArray)
  | directory

instance : DecidableEq Node
  | .file content, .file content' =>
    match ByteArray.instDecidableEq content content' with
    | isTrue h => isTrue (congrArg Node.file h)
    | isFalse h => isFalse fun heq => h (Node.file.inj heq)
  | .file _, .directory => isFalse nofun
  | .directory, .file _ => isFalse nofun
  | .directory, .directory => isTrue rfl

/-- A tree of files and directories. -/
structure FileTree where
  nodes : List (Location × Node)

namespace FileTree

/-- The tree that has nothing but its root. -/
def empty : FileTree := ⟨[]⟩

/-- The node at a location. -/
def node? (t : FileTree) (loc : Location) : Option Node :=
  if loc = [] then some .directory
  else (t.nodes.find? fun e => e.1 == loc).map (·.2)

/-- The tree with `node` at a location. -/
def put (t : FileTree) (loc : Location) (node : Node) : FileTree :=
  ⟨(loc, node) :: t.nodes.filter fun e => e.1 != loc⟩

/-- The tree without a location and all below it. -/
def remove (t : FileTree) (loc : Location) : FileTree :=
  ⟨t.nodes.filter fun e => !loc.isPrefixOf e.1⟩

/-- The content of the file at a location. -/
def content? (t : FileTree) (loc : Location) : Option ByteArray :=
  match t.node? loc with
  | some (.file content) => some content
  | _ => none

/-! ### Walking -/

/-- Why a location cannot be reached or used. -/
inductive Errno where
  | noEntry
  | exists
  | notDirectory
  | isDirectory
  | nameTooLong
  deriving DecidableEq, Repr

/-- The number of an error. -/
def Errno.number : Errno → Nat
  | .noEntry => 2
  | .exists => 17
  | .notDirectory => 20
  | .isDirectory => 21
  | .nameTooLong => 36

/-- The wording of an error. -/
def Errno.message : Errno → String
  | .noEntry => "No such file or directory"
  | .exists => "File exists"
  | .notDirectory => "Not a directory"
  | .isDirectory => "Is a directory"
  | .nameTooLong => "File name too long"

/-- The greatest number of bytes in a name. -/
def nameLimit : Nat := 255

/-- The location of `segment` in the directory at `loc`, whether there is anything or not. The
segment `..` is the directory above; there is none above the root. -/
def step (t : FileTree) (loc : Location) (segment : String) : Except Errno Location :=
  match t.node? loc with
  | none => .error .noEntry
  | some (.file _) => .error .notDirectory
  | some .directory =>
    if segment = ".." then .ok loc.dropLast
    else if nameLimit < segment.utf8ByteSize then .error .nameTooLong
    else .ok (loc ++ [segment])

/-- The location reached from `loc` by some segments. -/
def walk (t : FileTree) (loc : Location) (segments : List String) : Except Errno Location :=
  segments.foldlM t.step loc

/-- The node reached from `loc` by some segments, with its location. -/
def look (t : FileTree) (loc : Location) (segments : List String) :
    Except Errno (Location × Node) := do
  let loc ← t.walk loc segments
  match t.node? loc with
  | some node => .ok (loc, node)
  | none => .error .noEntry

/-! ### Whole trees -/

/-- The tree with a node at a location and directories on the way to it. A directory that is there
stays. -/
def plant (t : FileTree) (loc : Location) (node : Node) : FileTree :=
  let above := ((List.range loc.length).map loc.take).filter fun loc => (t.node? loc).isNone
  let t := above.foldl (fun t loc => t.put loc .directory) t
  if node = .directory ∧ t.node? loc = some .directory then t else t.put loc node

/-- What is different in a later tree: locations with what stands there, if there is anything. -/
def changes (before after : FileTree) : List (Location × Option Node) :=
  (after.nodes.filter fun (loc, node) => before.node? loc ≠ some node).map
      (fun (loc, node) => (loc, some node))
    ++ (before.nodes.filter fun (loc, _) => (after.node? loc).isNone).map
      fun (loc, _) => (loc, none)

end FileTree

end Bundler
