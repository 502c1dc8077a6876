import Bundler.CommandLine.Run
import Std.Time.DateTime.Timestamp

/-!
# The program

The command line on real files. The directories that a command may need are read into a file tree,
the command runs on that tree, and what it has changed there is written back.
-/

namespace Bundler.CommandLine

/-- The text of the path of a location. -/
def textOf (loc : Location) : String := (Workspace.pathOf loc).text

/-- The directories that the arguments of a command point into. -/
def reach (cwd : Path) (invocation : Invocation) : List Location :=
  match invocation with
  | .run c target entries given =>
    let base := (cwd.append (.ofString (given.projectDir.getD ""))).normalize
    let targets := if c = .deps then [] else [target]
    let names := targets ++ entries.map fun spec => (Entry.parse spec).name
    base.segments :: names.map fun name => (Path.resolve name base).parent.segments
  | _ => []

/-- The locations that lie below no other one. -/
def outermost (locs : List Location) : List Location :=
  locs.eraseDups.filter fun loc => !locs.any fun other => other != loc && other.isPrefixOf loc

/-- The location of the log file of a command. -/
def logLocation? (sh : Shell) (invocation : Invocation) : Option Location := do
  let .run _ _ _ given := invocation | none
  let project := projectOf sh.workspace.start given
  let config ← (project.config sh.nodeNesting sh.workspace sh.vars).toOption
  let settings ← (Log.settingsOf config.data project.directory given.verbose).toOption
  let path ← (Log.pathOf settings.file).toOption
  some (sh.workspace.start.append path).normalize.segments

/-- What is new in a tree, the outer directories first. -/
def news (before after : FileTree) : List (Location × Node) :=
  ((FileTree.changes before after).filterMap fun (loc, node) => node.map (loc, ·)).mergeSort
    fun a b => a.1.length ≤ b.1.length

/-! ### Real files -/

/-- The node at a location with what is below it if it is a directory. What cannot be read is left
out. -/
partial def readBelow (loc : Location) : IO (List (Location × Node)) := do
  let path := (← IO.currentDir) / textOf loc
  try
    if ← path.isDir then
      let entries ← path.readDir
      let below ← entries.toList.mapM fun entry => readBelow (loc ++ [entry.fileName])
      return (loc, .directory) :: below.flatten
    else
      return [(loc, .file (← IO.FS.readBinFile path))]
  catch _ => return []

/-- The directories on the way to a location and what stands there if it is a file. -/
def readAlong (loc : Location) : IO (List (Location × Node)) := do
  let cwd ← IO.currentDir
  let nodes ← (List.range (loc.length + 1)).mapM fun n => do
    let loc := loc.take n
    let path := cwd / textOf loc
    if ← path.isDir then
      return [(loc, Node.directory)]
    else if ← path.pathExists then
      return [(loc, .file (← IO.FS.readBinFile path))]
    else
      return []
  return nodes.flatten

/-- The tree with more nodes; those that are there already stay. -/
def extended (tree : FileTree) (nodes : List (Location × Node)) : FileTree :=
  ⟨tree.nodes ++ nodes.filter fun (loc, _) => (tree.node? loc).isNone⟩

/-- Write what is new. -/
def writeBack (news : List (Location × Node)) : IO Unit :=
  news.forM fun (loc, node) =>
    match node with
    | .directory => IO.FS.createDirAll (textOf loc)
    | .file content => IO.FS.writeBinFile (textOf loc) content

/-- The variables of the process. -/
def readVariables : IO Variables := do
  let bytes ← IO.FS.readBinFile "/proc/self/environ"
  let text := (String.fromUTF8? bytes).getD ""
  return (Text.split '\x00' text.toList).filterMap fun assignment =>
    match Text.cut '=' assignment with
    | (name, some value) => some (String.ofList name, String.ofList value)
    | _ => none

/-- The present time. -/
def readTime : IO Log.Instant := do
  let ms := (← Std.Time.Timestamp.now).toMillisecondsSinceUnixEpoch.val
  return ⟨ms / 1000, ms % 1000⟩

/-- The depth up to which the program follows what is nested. -/
def nestingLimit : Nat := 10000

/-- A shell in the current directory, with the files that a command may need. -/
def openShell (invocation : Invocation) : IO Shell := do
  let cwd := Path.ofString (← IO.currentDir).toString
  let locations := outermost (reach cwd invocation)
  let along ← locations.mapM readAlong
  let below ← locations.mapM readBelow
  let files := extended FileTree.empty (along.flatten ++ below.flatten)
  let sh : Shell := {
    workspace := { files, cwd := some cwd.segments, start := cwd }
    vars := ← readVariables
    journal := { time := ← readTime }
    nodeNesting := nestingLimit
    loadNesting := nestingLimit }
  match logLocation? sh invocation with
  | none => return sh
  | some loc =>
    let nodes ← readAlong loc
    return { sh with workspace := { sh.workspace with files := extended files nodes } }

/-- Run the program on real files; the result is the status it exits with. -/
def runProgram (args : List String) : IO UInt32 := do
  let sh ← match readArguments args with
    | .ok invocation => openShell invocation
    | .error _ => openShell .version
  let (stop, done) := ShellM.execute (respond args) sh
  writeBack (news sh.workspace.files done.workspace.files)
  (← IO.getStdout).putStr done.output
  (← IO.getStderr).putStr done.journal.errors
  if let some (.escape failure) := stop then
    (← IO.getStderr).putStrLn ("Failure: " ++ failure.message)
  return (statusOf stop).toUInt32

end Bundler.CommandLine

/-- Run the program. -/
def main (args : List String) : IO UInt32 := Bundler.CommandLine.runProgram args
