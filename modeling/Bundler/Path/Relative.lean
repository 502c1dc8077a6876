import Bundler.Failure
import Bundler.Path.Resolve

/-!
# Relative names

The relative path from a directory to what a name stands for.
-/

namespace Bundler.Workspace

/-- The relative path from a directory to a name, with forward slashes. The empty name stands for
nothing. -/
def relativeName (w : Workspace) (name directory : String) : Except Failure String :=
  if name.isEmpty then .error (.invalid "no path specified")
  else (w.relativeText (.ofString name) (.ofString directory)).mapError .file

end Bundler.Workspace
