/-!
# Notes

A note is a message about the progress of the work, with a level that says how grave it is and the
part of the work it comes from.
-/

namespace Bundler

/-- A message about the progress of the work. -/
structure Note where
  level : Int
  source : String
  message : String
  deriving DecidableEq, Repr

namespace Note

/-- The level of details for those who look for a fault. -/
def debugLevel : Int := 10

/-- The level of news. -/
def infoLevel : Int := 20

/-- The level of things that may be wrong. -/
def warningLevel : Int := 30

/-- The level of failures. -/
def errorLevel : Int := 40

/-- The level of failures that end the work. -/
def criticalLevel : Int := 50

/-- A detail. -/
def debug (source message : String) : Note := ⟨debugLevel, source, message⟩

/-- A piece of news. -/
def info (source message : String) : Note := ⟨infoLevel, source, message⟩

/-- A failure. -/
def error (source message : String) : Note := ⟨errorLevel, source, message⟩

end Note

end Bundler
