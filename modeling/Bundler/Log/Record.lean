import Bundler.Calendar.Date
import Bundler.Failure
import Bundler.Log.Level

/-!
# Log records

A record is a message with its circumstances.
-/

namespace Bundler.Log

/-- An exception that a record tells about. -/
structure Cause where
  kind : String
  /-- What the exception was made of. -/
  argument : String
  /-- What the exception says. -/
  message : String
  deriving DecidableEq, Repr

/-- The exception on one line, without its end. -/
def Cause.text (c : Cause) : String :=
  if c.message.isEmpty then c.kind else c.kind ++ ": " ++ c.message

/-- Where a message was given. -/
inductive Place where
  | unknown
  /-- A line of a source file. -/
  | line (path : String) (number : Int)
  /-- Within this program, which does not tell its lines. -/
  | here
  deriving DecidableEq, Repr

/-- The place as it stands in a record, if it is known. -/
def Place.text? : Place → Option String
  | .unknown => none
  | .line path number => some ((Path.ofString path).name ++ ":" ++ toString number)
  | .here => some "<src>"

/-- The place where a path and a line number point to; the empty path points nowhere. -/
def Place.ofLine (path : String) (number : Int) : Place :=
  if path.isEmpty then .unknown else .line path number

/-- A time in seconds and thousandths of a second since the start of 1970. -/
structure Instant where
  seconds : Int := 0
  milliseconds : Int := 0
  deriving DecidableEq, Repr

/-- A message with its circumstances. -/
structure Record where
  /-- The part of the program that the message comes from. -/
  source : String
  level : Int
  place : Place := .here
  /-- The message, or a template for it. -/
  template : String
  /-- What the template is filled with. -/
  args : List Value := []
  cause : Option Cause := none
  time : Instant := {}
  deriving Repr

/-- The mapping by whose keys a template names its values, if it is given one. -/
def Record.named? (r : Record) : Option Mapping :=
  match r.args with
  | [.mapping (e :: entries)] => some (e :: entries)
  | _ => none

/-- The message of a record: its template, filled if there is anything to fill it with. -/
def Record.message (r : Record) : Except Failure String :=
  if r.args.isEmpty then .ok r.template
  else (Percent.fill r.template (match r.named? with
    | some m => .named m
    | none => .positional r.args)).mapError .ofPercentFault

namespace Instant

/-- The clock reaches as far as this many seconds from 1970. -/
def clockLimit : Nat := Nat.pow 2 63

/-- The calendar counts years from 1900 and reaches as far as this many. -/
def calendarLimit : Nat := Nat.pow 2 31

/-- The date and the time of day. The year is written without zeros in front. -/
def text (t : Instant) : Except Failure String :=
  let days := t.seconds.fdiv 86400
  let (year, month, day) := Calendar.civil days
  if t.seconds < -clockLimit ∨ clockLimit ≤ t.seconds then
    .error (.outOfRange "timestamp out of range")
  else if year - 1900 < -calendarLimit ∨ calendarLimit ≤ year - 1900 then .error .timeTooFar
  else if calendarLimit ≤ year then .error (.outOfRange "year out of range")
  else .ok (toString year ++ "-" ++ Calendar.padded 2 month ++ "-" ++ Calendar.padded 2 day ++ " "
    ++ (Calendar.Moment.ofSeconds t.seconds).clock)

/-- A number in at least three characters, with zeros in front of the digits. -/
def threeWide (n : Int) : String :=
  if n < 0 then "-" ++ Calendar.padded 2 n.natAbs else Calendar.padded 3 n.natAbs

/-- The date and the time of day with thousandths of a second. -/
def fineText (t : Instant) : Except Failure String :=
  t.text.map (· ++ "," ++ threeWide t.milliseconds)

end Instant

/-- The record of a note. -/
def Record.ofNote (time : Instant) (note : Note) : Record where
  source := note.source
  level := note.level
  template := note.message
  time := time

end Bundler.Log
