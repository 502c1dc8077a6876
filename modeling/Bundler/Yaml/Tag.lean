import Bundler.Yaml.Timestamp

/-!
# Tags

The tag of a node says what it is. A plain scalar without a tag is taken for null, a truth value, a
number or a timestamp if its text has the form of one, and for a text otherwise.
-/

namespace Bundler.Yaml

/-- The start of the tags of YAML itself. -/
def coreStart : String := "tag:yaml.org,2002:"

/-- The kinds of nodes that YAML itself knows. -/
inductive Kind where
  | null
  | bool
  | int
  | float
  | binary
  | timestamp
  | orderedMapping
  | pairs
  | set
  | text
  | sequence
  | mapping
  /-- A key that merges the entries of other mappings. -/
  | merge
  /-- A key whose value stands for the mapping where a scalar is wanted. -/
  | default
  | indicator
  deriving DecidableEq, Repr

/-- The word for a kind. -/
def Kind.word : Kind → String
  | .null => "null"
  | .bool => "bool"
  | .int => "int"
  | .float => "float"
  | .binary => "binary"
  | .timestamp => "timestamp"
  | .orderedMapping => "omap"
  | .pairs => "pairs"
  | .set => "set"
  | .text => "str"
  | .sequence => "seq"
  | .mapping => "map"
  | .merge => "merge"
  | .default => "value"
  | .indicator => "yaml"

/-- Every kind. -/
def Kind.all : List Kind :=
  [.null, .bool, .int, .float, .binary, .timestamp, .orderedMapping, .pairs, .set, .text,
    .sequence, .mapping, .merge, .default, .indicator]

/-- The kind that a tag names. -/
def Kind.ofTag? (tag : String) : Option Kind := Kind.all.find? fun k => coreStart ++ k.word = tag

/-! ### The forms of plain scalars -/

/-- The words for truth values in lower case, each with its value. -/
def boolWords : List (String × Bool) :=
  [("yes", true), ("no", false), ("true", true), ("false", false), ("on", true), ("off", false)]

/-- A word with a capital, all in capitals or as it is. -/
def spellings (word : String) : List String := [word, word.capitalize, word.map Char.toUpper]

/-- Whether a text is a word for a truth value. -/
def isBoolWord (s : String) : Bool := boolWords.any fun e => (spellings e.1).contains s

/-- Whether a text is a word for null. -/
def isNullWord (s : String) : Bool := s == "" || s == "~" || (spellings "null").contains s

/-- Whether a character is a digit or an underscore. -/
def isLooseDigit (c : Char) : Bool := c.isDigit || c == '_'

/-- The text without its sign. -/
def unsigned : List Char → List Char
  | '+' :: cs | '-' :: cs => cs
  | cs => cs

/-- Whether a text begins with a digit and goes on with digits and underscores. -/
def isLooseNumber : List Char → Bool
  | c :: cs => c.isDigit && cs.all isLooseDigit
  | [] => false

/-- Whether a part behind a colon has one or two digits and is less than sixty. -/
def isSixtieth : List Char → Bool
  | [d] => d.isDigit
  | [d, e] => '0' ≤ d && d ≤ '5' && e.isDigit
  | _ => false

/-- Whether a text consists of a number and further parts to base sixty behind colons. -/
def isSexagesimal (cs : List Char) : Bool :=
  match Text.split ':' cs with
  | first :: part :: parts => isLooseNumber first && (part :: parts).all isSixtieth
  | _ => false

/-- Whether a text has the form of an integer. -/
def isIntForm (cs : List Char) : Bool :=
  match unsigned cs with
  | '0' :: 'b' :: ds => !ds.isEmpty && ds.all fun c => c == '0' || c == '1' || c == '_'
  | '0' :: 'x' :: ds => !ds.isEmpty && ds.all fun c => (Text.hexValue? c).isSome || c == '_'
  | '0' :: ds => ds.all fun c => ('0' ≤ c && c ≤ '7') || c == '_'
  | ds => isLooseNumber ds || isSexagesimal ds

/-- Whether a text is empty or an exponent with a sign. -/
def isExponentForm : List Char → Bool
  | [] => true
  | e :: sign :: ds =>
    (e == 'e' || e == 'E') && (sign == '+' || sign == '-') && !ds.isEmpty && ds.all Char.isDigit
  | _ => false

/-- Whether a text has the form of a floating-point number. -/
def isFloatForm (cs : List Char) : Bool :=
  let ds := unsigned cs
  match Text.cut '.' ds with
  | (whole, some places) =>
    let rest := places.dropWhile isLooseDigit
    (isLooseNumber whole && isExponentForm rest)
      || (cs.head? == some '.' && isLooseNumber (places.takeWhile isLooseDigit)
        && isExponentForm rest)
      || (isSexagesimal whole && rest.isEmpty)
      || (whole.isEmpty && ["inf", "Inf", "INF"].contains (String.ofList places))
      || (cs.head? == some '.' && ["nan", "NaN", "NAN"].contains (String.ofList places))
  | _ => false

/-- The kind that a text has the form of. A line feed at its end does not count, but a line feed alone
is a text. -/
def Kind.ofText (text : String) : Kind :=
  let cs := Timestamp.dropFinalBreak text.toList
  let s := String.ofList cs
  if s = "" ∧ text ≠ "" then .text
  else if isBoolWord s then .bool
  else if isFloatForm cs then .float
  else if isIntForm cs then .int
  else if s = "<<" then .merge
  else if isNullWord s then .null
  else if Timestamp.isPlain cs then .timestamp
  else if s = "=" then .default
  else if s = "!" ∨ s = "&" ∨ s = "*" then .indicator
  else .text

end Bundler.Yaml
