import Bundler.Element.Emit
import Bundler.InOrder
import Bundler.Load.Basic
import Bundler.Path.Resolve
import Bundler.Specifier
import Bundler.Text.Newline

/-!
# Loading sources

The source loader reads modules and scripts below the base directory of the session. It follows
the static imports of a module depth first, so that the dependencies of a module are compiled
before the module. A name is loaded once in a session: its name is marked before its file is read,
which ends import cycles.

Only the nesting of loads is limited, not their number.
-/

namespace Bundler.Load

namespace Source

/-- What the loader knows and has done. -/
structure State where
  /-- The names whose load has begun in this session. -/
  loaded : List String := []
  /-- The elements added so far. -/
  added : List Element := []
  /-- The reports of files read, each a target and a path. -/
  reports : List (Value × String) := []
  notes : List Note := []

/-- What stays the same during a load. -/
structure Scope where
  view : View
  base : Path
  options : Options
  /-- Whether files read are reported; if not, they are noted. -/
  reporting : Bool

/-- The origin of the loader's notes. -/
def noteSource : String := "modcompile.loaders.source"

/-- The path of the file of a name. -/
def locate (base : Path) (name : String) : Path := base.append (.ofString name)

/-- The failure of a name that leads to no file. -/
def unresolved (name : String) (referrer : Value) (reason : String) : Failure :=
  match referrer.describe with
  | .ok _ => .resolution name referrer reason
  | .error failure => failure

/-- The text of the file at a path. A missing file and bytes that are not UTF-8 are failures of the
name, other errors stand for themselves. -/
def read (w : Workspace) (path : Path) (name : String) (referrer : Value) :
    Except Failure String :=
  match w.read path with
  | .ok bytes =>
    match Text.Utf8.decode bytes with
    | .ok cs => .ok (String.ofList (Text.unifyLineEnds cs))
    | .error fault =>
      .error (.compile name (path.text ++ " is not valid UTF-8 (" ++ fault.reason.message
        ++ " at byte " ++ toString fault.offset ++ ")"))
  | .error (.file error) =>
    match error.code with
    | .noEntry | .isDirectory | .notDirectory =>
      .error (unresolved name referrer ("no such file " ++ path.text))
    | _ => .error (.file error)
  | .error .nullByte => .error (.ofPathFault .nullByte)

/-- How a path is reported: below the base directory if it lies there. -/
def shownPath (base path : Path) : String :=
  Path.slashed (match path.below? base with
    | some segments => Path.text ⟨.relative, segments⟩
    | none => path.text)

/-- Report a file that was read, if dependencies are asked for. -/
def report (scope : Scope) (path : Path) (s : State) : Except Failure Unit × State :=
  let target := scope.options.dependencyTarget
  if !target.truthy then (.ok (), s)
  else
    let shown := shownPath scope.base path
    if scope.reporting then (.ok (), { s with reports := s.reports ++ [(target, shown)] })
    else match target.describe with
      | .ok text => (.ok (), { s with notes := s.notes ++ [.info noteSource (text ++ ": " ++ shown)] })
      | .error failure => (.error failure, s)

/-- Add a unit, with a note that tells of it. -/
def add (unit : CompiledUnit) (message : String) (s : State) : State :=
  { s with added := s.added ++ [.compiled unit], notes := s.notes ++ [.debug noteSource message] }

/-- Add the unit of a module. -/
def addModule (options : Options) (name : String) (dependencies : List String) (source : String)
    (s : State) : State :=
  add (.ofModule options name dependencies source)
    ("Compiling module " ++ name ++ " (" ++ toString dependencies.length ++ " dependencies)") s

/-- Add the unit of a script. -/
def addScript (name source : String) (s : State) : State :=
  add (.ofScript name source) ("Compiling script " ++ name) s

/-- The source of a name that is new in the session: its name is marked, its file read and
reported. -/
def enter (scope : Scope) (name : String) (referrer : Value) (s : State) :
    Except Failure String × State :=
  let s := { s with loaded := name :: s.loaded }
  let path := locate scope.base name
  match read (scope.view s.notes) path name referrer with
  | .error failure => (.error failure, s)
  | .ok source =>
    let (result, s) := report scope path s
    (result.map fun () => source, s)

/-- The names of the modules that a source imports, as the module of the given name sees them. -/
def dependencyNames (scope : Scope) (name : String) (specifiers : List String) :
    Except Failure (List String) :=
  specifiers.mapM fun specifier => ModuleName.canonical specifier (.text name) scope.options

/-- Load a module with its dependencies; `nesting` bounds the depth of nested loads. -/
def loadModule (scope : Scope) (nesting : Nat) (name : String) (referrer : Value) (s : State) :
    Except Failure Unit × State :=
  match nesting with
  | 0 => (.error .nestedTooDeep, s)
  | nesting + 1 =>
    match ModuleName.canonical name referrer scope.options with
    | .error failure => (.error failure, s)
    | .ok canonical =>
      if s.loaded.contains canonical then (.ok (), s)
      else match enter scope canonical referrer s with
        | (.error failure, s) => (.error failure, s)
        | (.ok source, s) =>
          let specifiers := Specifier.ofSource source
          match dependencyNames scope canonical specifiers with
          | .error failure => (.error failure, s)
          | .ok dependencies =>
            match inOrder (fun specifier s =>
                loadModule scope nesting specifier (.text canonical) s) specifiers s with
            | (.error failure, s) => (.error failure, s)
            | (.ok (), s) =>
              (.ok (), addModule scope.options canonical dependencies source s)

/-- Load a script, which has no dependencies. -/
def loadScript (scope : Scope) (name : String) (referrer : Value) (s : State) :
    Except Failure Unit × State :=
  match ModuleName.canonical name referrer scope.options with
  | .error failure => (.error failure, s)
  | .ok canonical =>
    if s.loaded.contains canonical then (.ok (), s)
    else match enter scope canonical referrer s with
      | (.error failure, s) => (.error failure, s)
      | (.ok source, s) =>
        (.ok (), addScript canonical source s)

/-- Load an entry as its kind asks. -/
def load (scope : Scope) (nesting : Nat) (call : Call) (s : State) : Except Failure Unit × State :=
  match call.kind with
  | .module => loadModule scope nesting call.name call.referrer s
  | .script => loadScript scope call.name call.referrer s

/-! ### Beside other work -/

/-- Pass on the notes and the reports of a step that has been taken. -/
def passOn {α : Type} (x : α × State) : Inquiry (List (Value × String)) (α × State) := do
  .notes x.2.notes
  .remember (· ++ x.2.reports)
  return (x.1, { x.2 with notes := [], reports := [] })

/-- Load a module with its dependencies as `loadModule` does, with a look at the workspace for each
file. -/
def askModule (base : Path) (options : Options) (reporting : Bool) (nesting : Nat) (name : String)
    (referrer : Value) (s : State) : Inquiry (List (Value × String)) (Except Failure Unit × State) :=
  match nesting with
  | 0 => return (.error .nestedTooDeep, s)
  | nesting + 1 => do
    match ModuleName.canonical name referrer options with
    | .error failure => return (.error failure, s)
    | .ok canonical =>
      if s.loaded.contains canonical then return (.ok (), s)
      let w ← Inquiry.see
      let scope : Scope := ⟨fun _ => w, base, options, reporting⟩
      match ← passOn (enter scope canonical referrer s) with
      | (.error failure, s) => return (.error failure, s)
      | (.ok source, s) =>
        let specifiers := Specifier.ofSource source
        match dependencyNames scope canonical specifiers with
        | .error failure => return (.error failure, s)
        | .ok dependencies =>
          match ← Inquiry.inOrder (fun specifier s =>
              askModule base options reporting nesting specifier (.text canonical) s)
              specifiers s with
          | (.error failure, s) => return (.error failure, s)
          | (.ok (), s) => passOn (.ok (), addModule options canonical dependencies source s)

/-- Load a script as `loadScript` does. -/
def askScript (base : Path) (options : Options) (reporting : Bool) (name : String)
    (referrer : Value) (s : State) :
    Inquiry (List (Value × String)) (Except Failure Unit × State) := do
  match ModuleName.canonical name referrer options with
  | .error failure => return (.error failure, s)
  | .ok canonical =>
    if s.loaded.contains canonical then return (.ok (), s)
    let w ← Inquiry.see
    match ← passOn (enter ⟨fun _ => w, base, options, reporting⟩ canonical referrer s) with
    | (.error failure, s) => return (.error failure, s)
    | (.ok source, s) => passOn (.ok (), addScript canonical source s)

end Source

/-- The loader of sources, which remembers its reports; `reporting` tells whether files read are
reported or noted, and `nesting` bounds the depth of nested loads. -/
def Source.loader (reporting : Bool) (nesting : Nat) : Loader (List (Value × String)) where
  load view session reports call :=
    let scope : Source.Scope := ⟨view, session.base, call.options, reporting⟩
    let (result, s) := Source.load scope nesting call { loaded := session.loaded, reports }
    { result, memory := s.reports, added := s.added, loaded := s.loaded,
      extras := call.options.extras, notes := s.notes }
  nameOf := ModuleName.canonical

/-- The loader of sources, also for loads beside other work. -/
def Source.sharedLoader (reporting : Bool) (nesting : Nat) :
    SharedLoader (List (Value × String)) where
  toLoader := Source.loader reporting nesting
  ask session call := do
    let s : Source.State := { loaded := session.loaded }
    let (result, s) ← match call.kind with
      | .module =>
        Source.askModule session.base call.options reporting nesting call.name call.referrer s
      | .script => Source.askScript session.base call.options reporting call.name call.referrer s
    return { result, added := s.added, loaded := s.loaded, extras := call.options.extras }

end Bundler.Load
