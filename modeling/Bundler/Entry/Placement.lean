import Bundler.Entry
import Bundler.Path.Resolve

/-!
# Where entries are read and written

Before entries are merged into one file their names are made relative to the directory of that
file. An entry that is compiled on its own is written to the place in the output directory that
its name has below the base directory.
-/

namespace Bundler.Entry

/-- The entry with its name made absolute against a base directory. -/
def resolve (base : Path) (entry : Entry) : Entry :=
  { entry with name := (Path.resolve entry.name base).text }

/-- The entry with its name made absolute against a base directory, then relative to `directory`. -/
def resolveIn (w : Workspace) (base directory : Path) (entry : Entry) :
    Except FileError Entry := do
  let name ← w.relativeText (Path.resolve entry.name base) directory
  .ok { entry with name }

/-- The entries with resolved names, relative to a directory if one is given. -/
def resolveAll (w : Workspace) (base : Path) (directory : Option Path) (entries : List Entry) :
    Except FileError (List Entry) :=
  match directory with
  | none => .ok (entries.map (resolve base))
  | some directory => entries.mapM (resolveIn w base directory)

/-- Whether a path lies above the place it is seen from. -/
def climbs (p : Path) : Bool := p.segments.head? == some ".."

/-- The segments below the output directory of an entry. A relative name is kept and an absolute
one is made relative to the base directory; if that leads above the output directory, the absolute
path takes its place. -/
def placeBelow (w : Workspace) (base : Path) (name : String) :
    Except FileError (List String) := do
  let given := (Path.ofString name).normalize
  let near ← if given.isAbsolute then w.relative given base else .ok given
  .ok (if climbs near then (Path.resolve name base).segments else near.segments)

/-- The path under an output directory that an entry is written to. -/
def outputPath (w : Workspace) (base output : Path) (name : String) : Except FileError Path :=
  (placeBelow w base name).map fun segments => { output with segments := output.segments ++ segments }

end Bundler.Entry
