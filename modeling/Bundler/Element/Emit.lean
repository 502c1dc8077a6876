import Bundler.Element
import Bundler.Options
import Bundler.Text.Blank
import Bundler.Text.JsonString

/-!
# Emitting elements

Sources are not transformed. A module that is to be registered is wrapped in a registration under
its name with the names of its dependencies; anything else is written as it is below a line with
its name. Blank characters at the end of a source are dropped.
-/

namespace Bundler

namespace CompiledUnit

/-- The line that opens a registration. -/
def registrationHeader (name : String) (dependencies : List String) : String :=
  "System.registerModule(" ++ Text.JsonString.encode name ++ ", "
    ++ Text.JsonString.encodeArray dependencies ++ ", function() \x7b"

/-- The line that closes a registration. -/
def registrationFooter : String := "\x7d);"

/-- A source wrapped in a registration. -/
def registration (name : String) (dependencies : List String) (source : String) : String :=
  registrationHeader name dependencies ++ "\n" ++ Text.trimEnd source ++ "\n"
    ++ registrationFooter

/-- A source below a line with its name. -/
def labelled (name source : String) : String := "// " ++ name ++ "\n" ++ Text.trimEnd source

/-- The unit of a module. -/
def ofModule (options : Options) (name : String) (dependencies : List String) (source : String) :
    CompiledUnit where
  name := name
  text := if options.isRegister then registration name dependencies source else labelled name source
  dependencies := dependencies

/-- The unit of a script. -/
def ofScript (name source : String) : CompiledUnit where
  name := name
  kind := "script"
  text := labelled name source

end CompiledUnit

/-- The statement that evaluates a registered module. -/
def evaluationText (name : String) : String :=
  "System.get(" ++ Text.JsonString.encode name ++ ");"

/-- The text of an element. A bare element has none. -/
def Element.render : Element → Except Failure String
  | .compiled unit => .ok unit.text
  | .evaluation name => .ok (evaluationText name)
  | .bare name => .error (.compile name "cannot render element of type Element")

/-- The text of a tree, each element followed by a line feed. -/
def Tree.render (tree : Tree) : Except Failure String := do
  .ok (String.join ((← tree.mapM Element.render).map (· ++ "\n")))

/-- The failure of a file that cannot be written. -/
def Tree.refused (path : Path) : PathFault → Failure
  | .file error => .output path.text error.code.message
  | .nullByte => .ofPathFault .nullByte

/-- Write a tree to a file, with the directories above it that are missing. The text is encoded when
the file has been opened already, so that one without an encoding leaves an empty file. -/
def Tree.writing (tree : Tree) (path : Path) : Steps Workspace (Except Failure Unit) := do
  match Tree.render tree with
  | .error failure => return .error failure
  | .ok text =>
    match ← Workspace.makingDirectories path.parent with
    | .error fault => return .error (refused path fault)
    | .ok () =>
      match ← Workspace.opening path with
      | .error fault => return .error (refused path fault)
      | .ok loc => return (← Workspace.filling loc text).mapError .unencodable

/-- Write a tree to a file in a row. -/
def Tree.write (w : Workspace) (tree : Tree) (path : Path) : Except Failure Unit × Workspace :=
  (tree.writing path).run w

end Bundler
