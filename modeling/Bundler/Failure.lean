import Bundler.FileTree.Workspace
import Bundler.Text.Utf8
import Bundler.Value.Percent
import Bundler.Value.Text

/-!
# Failures

What can go wrong in loading a configuration, compiling entries and writing the result, with the
wording of each cause in `Failure.message`.
-/

namespace Bundler

/-- Why a configuration is refused. -/
inductive ConfigFault where
  /-- What stands at the path of the configuration is no file. -/
  | notAFile (path : String)
  /-- There is no configuration although one is required. -/
  | notFound (path : String)
  /-- The file is not well-formed at a position, counted from one. -/
  | malformedAt (file : String) (line column : Nat) (problem path : String)
  /-- The file is not well-formed. -/
  | malformed (file problem path : String)
  /-- The file holds something else than a mapping. -/
  | fileNotMapping (typeName path : String)
  /-- The configuration is something else than a mapping. -/
  | notMapping (typeName : String)
  /-- Some sections are something else than mappings. -/
  | sectionsNotMapping (sections : List (String × String))
  /-- The module mode is none of the known ones. -/
  | unknownModuleMode (shown : String) (known : List String)
  deriving DecidableEq, Repr

/-- The name of the configuration file. -/
def configFileName : String := "modcompile.yaml"

/-- The wording of a configuration fault. -/
def ConfigFault.message : ConfigFault → String
  | .notAFile path => "Configuration path is not a file: " ++ path
  | .notFound path =>
    "Configuration file not found: " ++ path ++ "\n  Suggestion: Create a " ++ configFileName
      ++ " file in your project root"
  | .malformedAt file line column problem path =>
    "Error parsing " ++ file ++ " at line " ++ toString line ++ ", column " ++ toString column
      ++ ":\n  " ++ problem ++ "\n  File: " ++ path
      ++ "\n  Suggestion: Check YAML syntax, ensure proper indentation and quotes"
  | .malformed file problem path =>
    "Error parsing " ++ file ++ ": " ++ problem ++ "\n  File: " ++ path
  | .fileNotMapping typeName path =>
    "Configuration must be a dictionary/mapping, got " ++ typeName ++ "\n  File: " ++ path
  | .notMapping typeName => "Configuration must be a dictionary/mapping, got " ++ typeName
  | .sectionsNotMapping sections =>
    String.intercalate "\n" (sections.map fun (name, typeName) =>
      "Configuration '" ++ name ++ "' must be a dictionary, got " ++ typeName)
  | .unknownModuleMode shown known =>
    "Unknown module mode '" ++ shown ++ "' (expected one of: " ++ String.intercalate ", " known
      ++ ")"

/-- What is refused once a session is closed. -/
inductive ClosedUse where
  | append (name : String)
  | finish
  deriving DecidableEq, Repr

/-- The wording of a refusal. -/
def ClosedUse.message : ClosedUse → String
  | .append name => "Cannot append '" ++ name ++ "': session already finished"
  | .finish => "Session already finished"

/-- The families of failures that a loader may report in its own words. -/
inductive Family where
  | general
  | configuration
  | closed
  deriving DecidableEq, Repr

/-- What can go wrong. -/
inductive Failure where
  /-- A name leads to no readable file. -/
  | resolution (name : String) (referrer : Value) (reason : String)
  /-- A source cannot be compiled. -/
  | compile (name reason : String)
  /-- A result cannot be written. -/
  | output (path reason : String)
  | configuration (fault : ConfigFault)
  | closed (use : ClosedUse)
  /-- A failure of one of the families, in words and with details of its own. -/
  | reported (family : Family) (message : String) (details : Mapping)
  /-- An operation on the file tree failed. -/
  | file (error : FileError)
  /-- A value is not allowed where it stands. -/
  | invalid (message : String)
  /-- A mapping lacks a key. -/
  | missingKey (key : String)
  /-- A list lacks an item. -/
  | noSuchItem
  /-- A value is of a kind that an operation does not take. -/
  | unsuitable (message : String)
  /-- A number is outside the range that its use allows. -/
  | outOfRange (message : String)
  /-- A time lies in a year that the calendar does not reach. -/
  | timeTooFar
  /-- What is to be made is too large for the memory. -/
  | noSpace
  /-- A value is of a kind that lacks an operation. -/
  | unsupported (message : String)
  /-- A configuration file is not UTF-8. -/
  | undecodable (fault : Text.Utf8.Fault)
  /-- A result has no encoding. -/
  | unencodable (fault : Text.Utf8.EncodeFault)
  /-- Loads or collections are nested beyond the limit. -/
  | nestedTooDeep
  /-- A failure of a kind that only the loader knows. -/
  | foreign (kind message : String)
  /-- The work was called off; this is no error of an entry. -/
  | cancelled
  deriving Repr

namespace Failure

/-- The wording of a failure. -/
def message : Failure → String
  | .resolution name referrer reason =>
    "Cannot resolve '" ++ name ++ "'"
      ++ (if referrer.truthy then " (imported from '" ++ referrer.shown ++ "')" else "")
      ++ ": " ++ reason
  | .compile name reason => "Failed to compile '" ++ name ++ "': " ++ reason
  | .output path reason => "Cannot write '" ++ path ++ "': " ++ reason
  | .configuration fault => fault.message
  | .closed use => use.message
  | .reported _ message _ | .foreign _ message => message
  | .file error => error.message
  | .invalid message | .unsuitable message | .unsupported message | .outOfRange message => message
  | .timeTooFar => "[Errno 75] Value too large for defined data type"
  | .noSpace => "out of memory"
  | .missingKey key => Text.Quoted.ofText key
  | .noSuchItem => "index out of range"
  | .undecodable fault =>
    "not valid UTF-8 (" ++ fault.reason.message ++ " at byte " ++ toString fault.offset ++ ")"
  | .unencodable fault => fault.message
  | .nestedTooDeep => "maximum recursion depth exceeded"
  | .cancelled => ""

/-- The facts that a failure of the library carries besides its message. -/
def details : Failure → Mapping
  | .resolution name referrer _ =>
    [(.text "name", .text name), (.text "referrer", referrer)]
  | .compile name _ => [(.text "name", .text name)]
  | .output path _ => [(.text "path", .text path)]
  | .reported _ _ details => details
  | _ => []

/-- The failure of an integer that has too many digits, with what more there is to say. -/
private def digitFailure (more : String) : Failure :=
  .invalid ("Exceeds the limit (" ++ toString digitLimit ++ " digits) for integer string conversion"
    ++ more ++ "; use sys.set_int_max_str_digits() to increase the limit")

/-- The failure of an integer that has too many digits to be shown. -/
def longInteger : Failure := digitFailure ""

/-- The failure of an integer that is written with too many digits. -/
def tooManyDigits (count : Nat) : Failure :=
  digitFailure (": value has " ++ toString count ++ " digits")

/-- Whether a failure is one of the library's own, which the command line reports. -/
def isOwn : Failure → Bool
  | .resolution .. | .compile .. | .output .. | .configuration _ | .closed _ | .reported .. => true
  | _ => false

/-- Whether a failure comes from the file tree. -/
def isFile : Failure → Bool
  | .file _ => true
  | _ => false

/-- The failure of an operation on a path. -/
def ofPathFault : PathFault → Failure
  | .file error => .file error
  | .nullByte => .invalid "embedded null byte"

/-- The failure of a template. -/
def ofPercentFault (fault : Percent.Fault) : Failure :=
  match fault with
  | .incomplete | .incompleteName | .unsupported .. | .tooWide | .tooPrecise | .noInteger =>
    .invalid fault.message
  | .outOfRange message => .outOfRange message
  | .noSpace => .noSpace
  | .missing name => .missingKey name
  | .notAMapping | .notEnoughArguments | .tooManyArguments | .mismatch _ =>
    .unsuitable fault.message

end Failure

/-- The text of a value in a message; an integer in it may have too many digits to be shown. -/
def Value.describe (v : Value) : Except Failure String :=
  if v.isPresentable then .ok v.shown else .error .longInteger

end Bundler
