import Bundler.Calendar.Date
import Bundler.Failure
import Bundler.Number.Read

/-!
# Timestamps

A day, or a day with a time of day, a fraction of a second and an offset from universal time.
-/

namespace Bundler.Yaml

open Calendar Number

/-- An offset from universal time as it is written. -/
inductive Zone where
  | universal
  | offset (negative : Bool) (hours minutes : Nat)
  deriving DecidableEq, Repr

/-- A time of day as it is written. -/
structure ClockText where
  hour : Nat
  minute : Nat
  second : Nat
  fraction : List Char
  zone : Option Zone
  deriving Repr

/-- A timestamp as it is written. -/
structure Timestamp where
  year : Nat
  month : List Char
  day : List Char
  clock : Option ClockText
  deriving Repr

namespace Timestamp

/-- From `least` to `most` digits at the front of a text, as many as there are. -/
def takeDigits (least most : Nat) (cs : List Char) : Option (List Char × List Char) :=
  let ds := (cs.take most).takeWhile Char.isDigit
  if ds.length < least then none else some (ds, cs.drop ds.length)

/-- The text behind a given character. -/
def takeChar (c : Char) : List Char → Option (List Char)
  | d :: cs => if c = d then some cs else none
  | [] => none

/-- Whether a character is a space or a tab. -/
def isSpace (c : Char) : Bool := c == ' ' || c == '\t'

/-- The offset that takes up a whole text, if any. -/
def zone? (cs : List Char) : Option (Option Zone) :=
  match cs.dropWhile isSpace with
  | [] => if cs = [] then some none else none
  | ['Z'] => some (some .universal)
  | sign :: cs =>
    if sign = '+' ∨ sign = '-' then do
      let (hours, cs) ← takeDigits 1 2 cs
      match cs with
      | [] => some (some (.offset (sign == '-') (ofDigits hours) 0))
      | ':' :: cs => do
        let (minutes, cs) ← takeDigits 2 2 cs
        if cs = [] then some (some (.offset (sign == '-') (ofDigits hours) (ofDigits minutes)))
        else none
      | _ => none
    else none

/-- The time of day that takes up a whole text. -/
def clock? (cs : List Char) : Option ClockText := do
  let (hour, cs) ← takeDigits 1 2 cs
  let (minute, cs) ← takeDigits 2 2 (← takeChar ':' cs)
  let (second, cs) ← takeDigits 2 2 (← takeChar ':' cs)
  let (fraction, cs) := match cs with
    | '.' :: cs => (cs.takeWhile Char.isDigit, cs.dropWhile Char.isDigit)
    | cs => ([], cs)
  some ⟨ofDigits hour, ofDigits minute, ofDigits second, fraction, ← zone? cs⟩

/-- The text behind what separates a day from a time of day. -/
def behindDay? : List Char → Option (List Char)
  | 'T' :: cs | 't' :: cs => some cs
  | cs => if cs.head?.any isSpace then some (cs.dropWhile isSpace) else none

/-- The text without a line feed at its end: no form of a scalar takes that into account. -/
def dropFinalBreak (cs : List Char) : List Char :=
  if cs.getLast? = some '\n' then cs.dropLast else cs

/-- The timestamp that takes up a whole text. -/
def read? (cs : List Char) : Option Timestamp := do
  let (year, cs) ← takeDigits 4 4 (dropFinalBreak cs)
  let (month, cs) ← takeDigits 1 2 (← takeChar '-' cs)
  let (day, cs) ← takeDigits 1 2 (← takeChar '-' cs)
  if cs = [] then some ⟨ofDigits year, month, day, none⟩
  else some ⟨ofDigits year, month, day, some (← clock? (← behindDay? cs))⟩

/-- Whether a text is taken for a timestamp without being tagged as one: a day alone has to have
two digits for the month and the day. -/
def isPlain (cs : List Char) : Bool :=
  match read? cs with
  | some t => t.clock.isSome || (t.month.length == 2 && t.day.length == 2)
  | none => false

/-- The failure of a part that is out of range. -/
def outOfRange (message : String) : Failure := .invalid message

/-- The day of a timestamp. -/
def date (t : Timestamp) : Except Failure Date :=
  let month := ofDigits t.month
  let day := ofDigits t.day
  if t.year = 0 then .error (outOfRange "year 0 is out of range")
  else if month = 0 ∨ 12 < month then .error (outOfRange "month must be in 1..12")
  else if day = 0 ∨ daysIn t.year month < day then
    .error (outOfRange "day is out of range for month")
  else .ok ⟨t.year, month, day⟩

/-- A number of seconds in days and the remaining seconds, as a text. -/
def spanText (seconds : Int) : String :=
  let days := seconds.fdiv 86400
  let rest := seconds.fmod 86400
  let parts := (if days ≠ 0 then ["days=" ++ toString days] else [])
    ++ (if rest ≠ 0 then ["seconds=" ++ toString rest] else [])
  "datetime.timedelta(" ++ (if parts.isEmpty then "0" else String.intercalate ", " parts) ++ ")"

/-- The offset in seconds, less than a day. -/
def offset (z : Zone) : Except Failure Int :=
  match z with
  | .universal => .ok 0
  | .offset negative hours minutes =>
    let seconds : Int := hours * 3600 + minutes * 60
    let seconds := if negative then -seconds else seconds
    if seconds.natAbs < 86400 then .ok seconds
    else .error (outOfRange
      ("offset must be a timedelta strictly between -timedelta(hours=24) and timedelta(hours=24), not "
        ++ spanText seconds ++ "."))

/-- The microseconds of a fraction, whose further digits are dropped. -/
def microseconds (fraction : List Char) : Nat :=
  ofDigits ((fraction ++ List.replicate 6 '0').take 6)

/-- The scalar that a timestamp stands for. -/
def scalar (t : Timestamp) : Except Failure Scalar :=
  match t.clock with
  | none => do .ok (.date (← t.date))
  | some clock => do
    let offset ← clock.zone.mapM offset
    let date ← t.date
    if 23 < clock.hour then .error (outOfRange "hour must be in 0..23")
    else if 59 < clock.minute then .error (outOfRange "minute must be in 0..59")
    else if 59 < clock.second then .error (outOfRange "second must be in 0..59")
    else .ok (.moment ⟨date, clock.hour, clock.minute, clock.second,
      microseconds clock.fraction, offset⟩)

end Timestamp

end Bundler.Yaml
