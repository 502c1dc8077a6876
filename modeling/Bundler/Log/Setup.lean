import Bundler.Log.Basic
import Bundler.Path.Resolve
import Bundler.Value.Equality

/-!
# Setting up the log

The log is set up from settings, usually those of a configuration. What was set up before is given
up first, and a failure keeps what has been set up until then.
-/

namespace Bundler.Log

/-- How the log is to be set up. -/
structure Settings where
  level : Value := .int Note.infoLevel
  /-- The path of the log file; a value that counts as false stands for no file. -/
  file : Value := .null
  /-- The template of the plain console, null for its own layout. -/
  template : Value := .null
  /-- How the log file is opened. -/
  fileMode : Value := .text "a"
  console : Bool := true
  /-- Whether the console is coloured. -/
  coloured : Bool := true

/-- The handler of the console. -/
def consoleHandler (s : Settings) : Except Failure (List Handler) := do
  let level := levelOf s.level
  if !s.console then .ok []
  else if s.coloured then .ok [.coloured level]
  else if s.template.isNull then .ok [.console level .console]
  else match templateOf s.template with
    | .ok text => .ok [.console level (.template text)]
    | .error .notText => .error (.unsuitable TemplateFault.notText.message)
    | .error fault => .error (.invalid fault.message)

/-- The path that a setting gives. -/
def pathOf (setting : Value) : Except Failure Path :=
  match setting with
  | .text s => .ok (.ofString s)
  | v => .error (.unsuitable ("a path is a text, not " ++ v.typeName))

/-- Open the log file at a path. -/
def openFile (w : Workspace) (p : Path) (fileMode : Value) : Except Failure (Sink × Workspace) := do
  let p ← (w.absolute p).mapError .file
  let mode ← OpenMode.ofValue fileMode
  (Sink.openAt w p mode).mapError .ofPathFault

/-- The handler of the log file. The directories above the file are made if they are missing. -/
def fileHandler (s : Settings) (w : Workspace) : Except Failure (List Handler) × Workspace :=
  if !s.file.truthy then (.ok [], w)
  else match pathOf s.file with
    | .error failure => (.error failure, w)
    | .ok p =>
      match w.makeDirectories p.parent with
      | (.error fault, w) => (.error (.ofPathFault fault), w)
      | (.ok (), w) =>
        match openFile w p s.fileMode with
        | .error failure => (.error failure, w)
        | .ok (sink, w) => (.ok [.file sink], w)

/-- Set up the log. -/
def setUp (s : Settings) (w : Workspace) : Except Failure Unit × Log × Workspace :=
  let log : Log := { level := levelOf s.level }
  match consoleHandler s with
  | .error failure => (.error failure, log, w)
  | .ok console =>
    let log := { log with handlers := console }
    match fileHandler s w with
    | (.error failure, w) => (.error failure, log, w)
    | (.ok file, w) => (.ok (), { log with handlers := console ++ file }, w)

/-! ### From a configuration -/

/-- The section of the log in a configuration. -/
def sectionOf (config : Value) : Except Failure Mapping :=
  match config with
  | .mapping m =>
    match Mapping.getD m "logging" with
    | .mapping settings => .ok settings
    | v => if v.truthy then .error (.unsupported ("settings are a mapping, not " ++ v.typeName))
      else .ok []
  | v => .error (.unsupported ("a configuration is a mapping, not " ++ v.typeName))

/-- The path of the log file, seen from the directory of the project if there is one. -/
def fileIn (directory : Option Path) (file : Value) : Except Failure Value :=
  match directory with
  | none => .ok file
  | some directory =>
    if !file.truthy then .ok file
    else (pathOf file).map fun p => .text (directory.append p).text

/-- The settings in the configuration of a project. Being verbose wins over the level there. -/
def settingsOf (config : Value) (directory : Option Path) (verbose : Bool) :
    Except Failure Settings := do
  let m ← sectionOf config
  let level := if verbose then .int Note.debugLevel
    else (Mapping.getText? m "level").getD (.int Note.infoLevel)
  .ok {
    level
    file := ← fileIn directory (Mapping.getD m "file")
    template := Mapping.getD m "format"
    fileMode := (Mapping.getText? m "file_mode").getD (.text "a")
    console := ((Mapping.getText? m "console_enabled").getD (.bool true)).truthy
    coloured := ((Mapping.getText? m "console_type").getD (.text "rich")).equals (.text "rich") }

/-- Set up the log of a project. A failure in its settings leaves the log as it is. -/
def setUpFor (config : Value) (directory : Option Path) (verbose : Bool) (log : Log)
    (w : Workspace) : Except Failure Unit × Log × Workspace :=
  match settingsOf config directory verbose with
  | .error failure => (.error failure, log, w)
  | .ok settings => setUp settings w

end Bundler.Log
