/-!
# Arguments of the command line

The arguments name a command, what it works on, and options. Options of a command may stand between
its other arguments; `--` ends them. An option that takes a value takes the next argument, however it
looks, unless the value follows in the same argument: `--env=prod`, `-mregister`.
-/

namespace Bundler.CommandLine

/-- The commands. -/
inductive Command where
  /-- Compile entries into one file. -/
  | bundle
  /-- Compile every entry into a file of its own. -/
  | each
  /-- List the files that entries are made of. -/
  | deps
  deriving DecidableEq, Repr

namespace Command

/-- Every command. -/
def all : List Command := [.bundle, .each, .deps]

/-- The word for a command. -/
def word : Command → String
  | .bundle => "bundle"
  | .each => "each"
  | .deps => "deps"

/-- The command that a word names. -/
def ofWord? (word : String) : Option Command := all.find? (·.word == word)

end Command

/-- The options with a value. -/
inductive Key where
  | modules
  | referrer
  | env
  | projectDir
  deriving DecidableEq, Repr

/-- The options without a value. -/
inductive Flag where
  | verbose
  | help
  deriving DecidableEq, Repr

/-- An option. -/
inductive Opt where
  | key (k : Key)
  | flag (f : Flag)
  deriving DecidableEq, Repr

/-- Whether a command has an option. -/
def Command.has (c : Command) (o : Opt) : Bool :=
  match c, o with
  | .deps, .key .modules => false
  | _, _ => true

/-- The options with their long names. -/
def longNames : List (String × Opt) :=
  [("--modules", .key .modules), ("--referrer", .key .referrer), ("--env", .key .env),
    ("--verbose", .flag .verbose), ("--project-dir", .key .projectDir), ("--help", .flag .help)]

/-- The options with their short names. -/
def shortNames : List (Char × Opt) := [('m', .key .modules), ('d', .key .projectDir)]

/-- What was given for the options of a command. -/
structure Given where
  modules : Option String := none
  referrer : Option String := none
  env : Option String := none
  projectDir : Option String := none
  verbose : Bool := false
  help : Bool := false
  deriving DecidableEq, Repr

/-- The options with a value for one of them; it replaces an earlier one. -/
def Given.set (g : Given) (k : Key) (value : String) : Given :=
  match k with
  | .modules => { g with modules := some value }
  | .referrer => { g with referrer := some value }
  | .env => { g with env := some value }
  | .projectDir => { g with projectDir := some value }

/-- The options with one that has no value. -/
def Given.raise (g : Given) (f : Flag) : Given :=
  match f with
  | .verbose => { g with verbose := true }
  | .help => { g with help := true }

/-- Why arguments are refused. -/
inductive UsageFault where
  | unknownOption (name : String)
  | unknownCommand (word : String)
  | missingValue (option : String)
  | unexpectedValue (option : String)
  | missingArgument (name : String)
  /-- A path has a null character, which stands in no path. -/
  | nullByte
  deriving DecidableEq, Repr

/-- The wording of a fault. -/
def UsageFault.message : UsageFault → String
  | .unknownOption name => "No such option: " ++ name
  | .unknownCommand word => "No such command '" ++ word ++ "'."
  | .missingValue option => "Option '" ++ option ++ "' requires an argument."
  | .unexpectedValue option => "Option '" ++ option ++ "' does not take a value."
  | .missingArgument name => "Missing argument '" ++ name ++ "'."
  | .nullByte => "embedded null byte"

/-- Whether an argument is read as options: a dash alone is not. -/
def looksLikeOption (arg : String) : Bool :=
  match arg.toList with
  | '-' :: _ :: _ => true
  | _ => false

/-- A name and what follows the first equals sign. -/
def cutValue (cs : List Char) : String × Option String :=
  match cs.span (· ≠ '=') with
  | (name, _ :: value) => (String.ofList name, some (String.ofList value))
  | (name, []) => (String.ofList name, none)

/-! ### The arguments of a command -/

/-- What is known after an argument was read as options. -/
inductive Progress where
  | done (given : Given)
  /-- The next argument is the value of an option, which was given by a name. -/
  | wants (k : Key) (name : String) (given : Given)
  deriving DecidableEq, Repr

/-- Read an argument that begins with two dashes. -/
def readLong (c : Command) (arg : String) (given : Given) : Except UsageFault Progress :=
  let (name, value?) := cutValue arg.toList
  match (longNames.lookup name).filter c.has with
  | none => .error (.unknownOption name)
  | some (.key k) => match value? with
    | some value => .ok (.done (given.set k value))
    | none => .ok (.wants k name given)
  | some (.flag f) => match value? with
    | some _ => .error (.unexpectedValue name)
    | none => .ok (.done (given.raise f))

/-- Read the characters of an argument behind a single dash. -/
def readShort (c : Command) (given : Given) : List Char → Except UsageFault Progress
  | [] => .ok (.done given)
  | ch :: rest =>
    let name := String.ofList ['-', ch]
    match (shortNames.lookup ch).filter c.has with
    | none => .error (.unknownOption name)
    | some (.key k) =>
      if rest.isEmpty then .ok (.wants k name given)
      else .ok (.done (given.set k (String.ofList rest)))
    | some (.flag f) => readShort c (given.raise f) rest

/-- Read an argument as options. -/
def readOption (c : Command) (arg : String) (given : Given) : Except UsageFault Progress :=
  match arg.toList with
  | '-' :: '-' :: _ => readLong c arg given
  | cs => readShort c given (cs.drop 1)

/-- The options among some arguments and, in order, the other arguments. -/
def scan (c : Command) (given : Given) : List String → Except UsageFault (Given × List String)
  | [] => .ok (given, [])
  | arg :: args =>
    if arg = "--" then .ok (given, args)
    else if looksLikeOption arg then do
      match ← readOption c arg given with
      | .done given => scan c given args
      | .wants k name given => match args with
        | value :: args => scan c (given.set k value) args
        | [] => .error (.missingValue name)
    else do
      let (given, others) ← scan c given args
      .ok (given, arg :: others)

/-- What is asked for. -/
inductive Invocation where
  | version
  /-- Help for a command or for the program. -/
  | help (command : Option Command)
  /-- Run a command for a target, which is written to or listed for, and some entries. -/
  | run (command : Command) (target : String) (entries : List String) (given : Given)
  deriving DecidableEq, Repr

/-- The name of the target in messages. -/
def Command.targetName : Command → String
  | .bundle => "OUTPUT"
  | .each => "OUTPUT_DIR"
  | .deps => "TARGET"

/-- Whether the target of a command is a path. -/
def Command.targetIsPath (c : Command) : Bool := c != .deps

/-- Whether a text cannot be a path. -/
def hasNull (s : String) : Bool := s.toList.contains '\x00'

/-- Read the arguments of a command. Asking for help wins over all else that is wrong with the
values; these are checked in order, the options before the other arguments. -/
def readCommand (c : Command) (args : List String) : Except UsageFault Invocation := do
  let (given, others) ← scan c {} args
  if given.help then .ok (.help (some c))
  else if given.projectDir.any hasNull then .error .nullByte
  else match others with
    | [] => .error (.missingArgument c.targetName)
    | target :: entries =>
      if c.targetIsPath && hasNull target then .error .nullByte
      else if entries.isEmpty then .error (.missingArgument "ENTRIES...")
      else .ok (.run c target entries given)

/-! ### The arguments of the program -/

/-- What can be asked for in front of a command. -/
inductive Query where
  | version
  | help
  deriving DecidableEq, Repr

/-- Read an argument in front of the command. -/
def readQuery (arg : String) : Except UsageFault (List Query) :=
  match arg.toList with
  | '-' :: '-' :: cs =>
    let (name, value?) := cutValue ('-' :: '-' :: cs)
    match [("--version", Query.version), ("--help", .help)].lookup name, value? with
    | none, _ => .error (.unknownOption name)
    | some _, some _ => .error (.unexpectedValue name)
    | some query, none => .ok [query]
  | cs => (cs.drop 1).mapM fun ch =>
    if ch = 'v' then .ok Query.version else .error (.unknownOption (String.ofList ['-', ch]))

/-- What is asked for in front of the command, and the arguments from the command on. -/
def scanQueries : List String → Except UsageFault (List Query × List String)
  | [] => .ok ([], [])
  | arg :: args =>
    if arg = "--" then .ok ([], args)
    else if looksLikeOption arg then do
      let queries ← readQuery arg
      let (more, args) ← scanQueries args
      .ok (queries ++ more, args)
    else .ok ([], arg :: args)

/-- Read the arguments of the program. Without a command they ask for help. -/
def readArguments (args : List String) : Except UsageFault Invocation := do
  match ← scanQueries args with
  | (.version :: _, _) => .ok .version
  | (.help :: _, _) => .ok (.help none)
  | ([], []) => .ok (.help none)
  | ([], word :: args) => match Command.ofWord? word with
    | some c => readCommand c args
    | none => .error (.unknownCommand word)

end Bundler.CommandLine
