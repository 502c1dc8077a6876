import Bundler.CommandLine.Arguments

/-!
# Help

The texts that the program shows when it is asked for help or when its arguments are refused.
-/

namespace Bundler.CommandLine

/-- The name of the program. -/
def programName : String := "modcompile"

/-- The version of the program. -/
def version : String := "0.1.0"

/-- The line that tells the version. -/
def versionLine : String := programName ++ " version " ++ version

/-- What the program is for. -/
def programSummary : String :=
  programName ++ " - compile modules and their dependencies into bundles or mirrored trees."

/-- What a command is for. -/
def Command.summary : Command → String
  | .bundle => "Compile entries and their dependencies, in order, into a single file."
  | .each => "Compile each entry separately, mirroring its path under OUTPUT_DIR."
  | .deps => "Resolve entries and print 'TARGET: file' for every file read. Nothing is written."

/-- A command or an option with its explanation, set in two columns. -/
def helpLine (width : Nat) (term explanation : String) : String :=
  "  " ++ term ++ String.ofList (List.replicate (width - term.length) ' ') ++ "  " ++ explanation

/-- The options of a command with their explanations. -/
def Command.optionTexts (c : Command) : List (String × String) :=
  (if c.has (.key .modules) then
    [("-m, --modules TEXT", "Module format (register, inline, bootstrap)")] else [])
  ++ [("--referrer TEXT", "Referrer name used to normalize module names"),
    ("--env TEXT", "Environment (selects modcompile.\x7benv\x7d.yaml)"),
    ("--verbose", "Verbose output"),
    ("-d, --project-dir PATH",
      "Directory holding modcompile.yaml; relative entry and output paths are resolved against it"),
    ("--help", "Show this message and exit.")]

/-- The line that shows how a command is called. -/
def usageLine (command : Option Command) : String :=
  "Usage: " ++ programName ++ match command with
    | none => " [OPTIONS] COMMAND [ARGS]..."
    | some c => " " ++ c.word ++ " [OPTIONS] " ++ c.targetName ++ " ENTRIES..."

/-- The help for a command or for the program. -/
def helpText (command : Option Command) : String :=
  String.intercalate "\n" (usageLine command :: match command with
    | none =>
      ["", "  " ++ programSummary, "", "Options:", helpLine 13 "-v, --version"
        "Show version and exit.", helpLine 13 "--help" "Show this message and exit.", "",
        "Commands:"] ++ Command.all.map fun c => helpLine 13 c.word c.summary
    | some c =>
      ["", "  " ++ c.summary, "", "Options:"]
        ++ c.optionTexts.map fun (term, explanation) => helpLine 22 term explanation)

/-- What is told about arguments that are refused. -/
def refusalText (fault : UsageFault) : String :=
  usageLine none ++ "\nTry '" ++ programName ++ " --help' for help.\n\nError: " ++ fault.message

end Bundler.CommandLine
