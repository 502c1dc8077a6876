import Bundler.FileTree.Workspace

/-!
# Resolving paths

Names are made absolute against a base directory, which is the directory the work began in unless
another is given, and never against the current directory. Only the relative path between two
places needs the current directory, if one of them is given by a relative path.
-/

namespace Bundler

namespace Path

/-- The text with forward slashes. -/
def slashed (s : String) : String := String.ofList (Text.swap '\\' '/' s.toList)

/-- The normal path of a name seen from a base directory; an absolute name stands for itself. -/
def resolve (name : String) (base : Path) : Path := (base.append (.ofString name)).normalize

end Path

namespace Workspace

/-- The base directory: the one given, or the directory the work began in. -/
def base (w : Workspace) (given : Option String) : Path :=
  match given with
  | none | some "" => w.start
  | some text => .ofString text

/-- The normal path seen from the current directory. -/
def absolute (w : Workspace) (p : Path) : Except FileError Path :=
  if p.isAbsolute then .ok p.normalize else w.cwdPath.map fun cwd => (cwd.append p).normalize

/-- The relative path from `start` to `target`. -/
def relative (w : Workspace) (target start : Path) : Except FileError Path := do
  let start ← w.absolute start
  let target ← w.absolute target
  .ok (target.relativeTo start)

/-- The relative path to a place with forward slashes. -/
def relativeText (w : Workspace) (target start : Path) : Except FileError String :=
  (w.relative target start).map fun p => Path.slashed p.text

end Workspace

end Bundler
