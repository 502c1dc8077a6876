import Bundler.Note
import Bundler.Value.Basic

/-!
# Log levels

A level is an integer; the more it is, the graver the record. Five levels have names.
-/

namespace Bundler.Log

/-- The levels that have a name by which a setting may ask for them. -/
def namedLevels : List (String × Int) :=
  [("DEBUG", Note.debugLevel), ("INFO", Note.infoLevel), ("WARNING", Note.warningLevel),
    ("ERROR", Note.errorLevel), ("CRITICAL", Note.criticalLevel)]

/-- The upper case of a letter that may occur in the name of a level; the dotless `ı` is a small
form of `I`. -/
def upperChar (c : Char) : Char := if c = 'ı' then 'I' else c.toUpper

/-- The upper case of a text as far as it matters for the names of levels. -/
def upper (s : String) : String := String.ofList (s.toList.map upperChar)

/-- The level that a setting asks for: a number, a name in any case, or else the level of news. -/
def levelOf (setting : Value) : Int :=
  match setting with
  | .int n => n
  | .bool b => if b then 1 else 0
  | .text s => (namedLevels.lookup (upper s)).getD Note.infoLevel
  | _ => Note.infoLevel

/-- The word for a level in a record. -/
def levelName (level : Int) : String :=
  if level = 0 then "NOTSET"
  else match namedLevels.find? fun e => e.2 == level with
    | some (name, _) => name
    | none => "Level " ++ toString level

/-- The level that counts for the records of a log: a log of level zero leaves it to the default of
the process. -/
def effectiveLevel (level : Int) : Int := if level = 0 then Note.warningLevel else level

/-- Whether a log of some level takes a record of another. Levels below one are never taken. -/
def isTaken (level recordLevel : Int) : Bool :=
  decide (0 < recordLevel) && decide (effectiveLevel level ≤ recordLevel)

end Bundler.Log
