import Bundler.Log.Record
import Bundler.Path.Basic
import Bundler.Text.Digit
import Bundler.Text.Word

/-!
# Layouts

A layout is the form in which a record is written: the form of log files, the form of the console,
or a template from the configuration.
-/

namespace Bundler.Log

/-! ### Templates of records

A template must have a field with a name; what else is in it is not checked before it is used. -/

/-- The text behind a width or precision, which may be missing. -/
def afterAmount : List Char → List Char
  | '*' :: cs => cs
  | cs => cs.dropWhile Text.isDigit

/-- The text behind the precision of a field; a point alone is none. -/
def afterPrecision : List Char → List Char
  | '.' :: '*' :: cs => cs
  | '.' :: c :: cs => if Text.isDigit c then cs.dropWhile Text.isDigit else '.' :: c :: cs
  | cs => cs

/-- Whether a letter is a conversion of a field. -/
def isConversion (c : Char) : Bool :=
  "diouxefgcrsa%".toList.contains c.toLower || ['İ', 'ı', 'ſ'].contains c

/-- Whether a text begins with a field that has a name. -/
def startsWithField (cs : List Char) : Bool :=
  match cs with
  | '%' :: '(' :: cs =>
    match cs.span Text.isWord with
    | (_ :: _, ')' :: cs) =>
      match afterPrecision (afterAmount (cs.dropWhile "#0+ -".toList.contains)) with
      | c :: _ => isConversion c
      | [] => false
    | _ => false
  | _ => false

/-- Whether a field with a name occurs in a text. -/
def hasField : List Char → Bool
  | [] => false
  | c :: cs => startsWithField (c :: cs) || hasField cs

/-- The template that is used where the one given is empty. -/
def defaultTemplate : String := "%(message)s"

/-- Why a setting is no template. -/
inductive TemplateFault where
  | notText
  /-- There is no field with a name. -/
  | noField (template : String)
  deriving DecidableEq, Repr

/-- The wording of a fault. -/
def TemplateFault.message : TemplateFault → String
  | .notText => "a template is a text"
  | .noField template => "Invalid format '" ++ template ++ "' for '%' style"

/-- The template that a setting asks for. -/
def templateOf (setting : Value) : Except TemplateFault String :=
  if !setting.truthy then .ok defaultTemplate
  else match setting with
    | .text s => if hasField s.toList then .ok s else .error (.noField s)
    | _ => .error .notText

/-! ### Layouts -/

/-- The form in which a record is written. -/
inductive Layout where
  | file
  | console
  | template (text : String)
  deriving DecidableEq, Repr

/-- The lowest level at which the console shows the place of a record. -/
def placeLevel : Int := Note.errorLevel

/-- The least width of the word for a level in a log file. -/
def levelWidth : Nat := 8

/-- A word filled up to a width. -/
def filled (width : Nat) (s : String) : String :=
  s ++ String.ofList (List.replicate (width - s.length) ' ')

/-- The exception of a record below its text, on lines of its own. -/
def withCause (s : String) (cause : Option Cause) : String :=
  match cause with
  | none => s
  | some c => (if s.toList.getLast? = some '\n' then s else s ++ "\n") ++ c.text

/-- The line of a log file. The exception stands there twice, the second time with an end of line. -/
def fileText (r : Record) : Except Failure String := do
  let message ← r.message
  let line := (← r.time.text) ++ " [" ++ filled levelWidth (levelName r.level) ++ "] " ++ r.source
    ++ ": " ++ message
  .ok (withCause line r.cause ++ r.cause.elim "" fun c => "\n" ++ c.text ++ "\n")

/-- The line of the console. -/
def consoleText (r : Record) : Except Failure String := do
  let place := if placeLevel ≤ r.level then r.place.text? else none
  let time ← r.time.fineText
  .ok (levelName r.level ++ ": " ++ time ++ " - " ++ place.elim "" (· ++ " - ") ++ (← r.message))

/-- The exception of a record as a template shows it. -/
def causeValue (c : Cause) : String :=
  "(<class '" ++ c.kind ++ "'>, " ++ c.kind ++ "(" ++ Text.Quoted.ofText c.argument ++ "), None)"

/-- The parts of a record that a template can name. -/
def fields (r : Record) (message time : String) : Mapping :=
  let path := match r.place with
    | .line path _ => path
    | _ => ""
  let line := match r.place with
    | .line _ n => n
    | _ => 0
  let args := match r.named? with
    | some m => .mapping m
    | none => .tuple r.args
  [("name", .text r.source), ("levelno", .int r.level), ("levelname", .text (levelName r.level)),
    ("msg", .text r.template), ("args", args), ("message", .text message), ("asctime", .text time),
    ("created", .scalar (.float (.ofInt r.time.seconds))),
    ("msecs", .scalar (.float (.ofInt r.time.milliseconds))), ("pathname", .text path),
    ("filename", .text (Path.ofString path).name), ("lineno", .int line),
    ("exc_info", (r.cause.map fun c => Value.text (causeValue c)).getD .null),
    ("exc_text", .null), ("stack_info", .null), ("processName", .text "MainProcess"),
    ("threadName", .text "MainThread")].map fun (key, value) => (.text key, value)

/-- The line of a template. -/
def templateText (template : String) (r : Record) : Except Failure String := do
  let fields := fields r (← r.message) (← r.time.fineText)
  let line ← (Percent.fill template (.named fields)).mapError .ofPercentFault
  .ok (withCause line r.cause)

/-- A record in some form. -/
def Layout.format (layout : Layout) (r : Record) : Except Failure String :=
  match layout with
  | .file => fileText r
  | .console => consoleText r
  | .template text => templateText text r

end Bundler.Log
