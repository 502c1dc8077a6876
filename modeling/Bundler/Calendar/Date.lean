/-!
# Dates and times of day

Days of the proleptic Gregorian calendar, counted from 1970-01-01, and moments with an optional
offset from universal time.
-/

namespace Bundler.Calendar

/-- A day. -/
structure Date where
  year : Nat
  month : Nat
  day : Nat
  deriving DecidableEq, Repr

/-- A day and a time of day; `offset` is the distance from universal time in seconds, if known. -/
structure Moment where
  date : Date
  hour : Nat
  minute : Nat
  second : Nat
  microsecond : Nat
  offset : Option Int
  deriving DecidableEq, Repr

/-- Whether a year has a 29th of February. -/
def isLeap (year : Nat) : Bool := year % 4 == 0 && (year % 100 != 0 || year % 400 == 0)

/-- The number of days of a month. -/
def daysIn (year month : Nat) : Nat :=
  if month = 2 then (if isLeap year then 29 else 28)
  else if month = 4 ∨ month = 6 ∨ month = 9 ∨ month = 11 then 30
  else 31

/-- The number of days from 1970-01-01 to a date. Years are counted from March, so that a leap day
is the last day of its year. -/
def Date.toDays (d : Date) : Int :=
  let y : Int := if d.month ≤ 2 then d.year - 1 else d.year
  let era := y.fdiv 400
  let yearOfEra := y - era * 400
  let monthFromMarch : Int := (d.month + 9) % 12
  let dayOfYear := (153 * monthFromMarch + 2).fdiv 5 + d.day - 1
  let dayOfEra := yearOfEra * 365 + yearOfEra.fdiv 4 - yearOfEra.fdiv 100 + dayOfYear
  era * 146097 + dayOfEra - 719468

/-- The year, month and day that lie a number of days after 1970-01-01; the year may be negative. -/
def civil (days : Int) : Int × Nat × Nat :=
  let z := days + 719468
  let era := z.fdiv 146097
  let dayOfEra := z - era * 146097
  let yearOfEra := (dayOfEra - dayOfEra.fdiv 1460 + dayOfEra.fdiv 36524 - dayOfEra.fdiv 146096).fdiv 365
  let dayOfYear := dayOfEra - (365 * yearOfEra + yearOfEra.fdiv 4 - yearOfEra.fdiv 100)
  let monthFromMarch := (5 * dayOfYear + 2).fdiv 153
  let day := dayOfYear - (153 * monthFromMarch + 2).fdiv 5 + 1
  let month := if monthFromMarch < 10 then monthFromMarch + 3 else monthFromMarch - 9
  let year := yearOfEra + era * 400 + (if month ≤ 2 then 1 else 0)
  (year, month.toNat, day.toNat)

/-- The date that lies a number of days after 1970-01-01. -/
def Date.ofDays (days : Int) : Date :=
  let (year, month, day) := civil days
  ⟨year.toNat, month, day⟩

/-- The moment that lies a number of seconds after the start of 1970-01-01. -/
def Moment.ofSeconds (seconds : Int) : Moment :=
  let days := seconds.fdiv 86400
  let rest := (seconds - days * 86400).toNat
  ⟨Date.ofDays days, rest / 3600, rest / 60 % 60, rest % 60, 0, none⟩

/-- The same moment in universal time, if its offset is known. -/
def Moment.universal (t : Moment) : Moment :=
  match t.offset with
  | none => t
  | some offset =>
    let seconds := t.date.toDays * 86400 + t.hour * 3600 + t.minute * 60 + t.second - offset
    { Moment.ofSeconds seconds with microsecond := t.microsecond, offset := some 0 }

/-- A number in decimal digits, padded with zeros to a least width. -/
def padded (width n : Nat) : String :=
  let ds := Nat.toDigits 10 n
  String.ofList (List.replicate (width - ds.length) '0' ++ ds)

/-- The date as `YYYY-MM-DD`. -/
def Date.text (d : Date) : String :=
  padded 4 d.year ++ "-" ++ padded 2 d.month ++ "-" ++ padded 2 d.day

/-- The time of day as `HH:MM:SS`. -/
def Moment.clock (t : Moment) : String :=
  padded 2 t.hour ++ ":" ++ padded 2 t.minute ++ ":" ++ padded 2 t.second

/-- An offset as `+HH:MM`. -/
def offsetText (offset : Int) : String :=
  let n := offset.natAbs
  (if offset < 0 then "-" else "+") ++ padded 2 (n / 3600) ++ ":" ++ padded 2 (n / 60 % 60)

/-- Date and time with `separator` between them, a fraction of a second only if there is one, and
the offset if it is known. -/
def Moment.text (t : Moment) (separator : String) : String :=
  t.date.text ++ separator ++ t.clock
    ++ (if t.microsecond = 0 then "" else "." ++ padded 6 t.microsecond)
    ++ (t.offset.elim "" offsetText)

end Bundler.Calendar
