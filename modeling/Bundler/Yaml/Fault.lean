import Bundler.Failure
import Bundler.Yaml.Cursor

/-!
# Faults of YAML texts

Why a text is no YAML document that the library reads. Most faults have a position.
-/

namespace Bundler.Yaml

/-- What is wrong. -/
inductive Problem where
  /-- The text holds a character that may not occur. -/
  | unprintable
  /-- No token begins with this character. -/
  | strayCharacter
  /-- A simple key is not followed by a colon. -/
  | missingColon
  /-- A sequence entry, a key or a value stands where none may. -/
  | misplacedEntry
  | misplacedKey
  | misplacedValue
  | malformedDirective
  | malformedAnchor
  | malformedTag
  | malformedBlockHeader
  | malformedEscape
  | unclosedQuote
  | separatorInQuote
  /-- The parts of a document are not in order. -/
  | missingDocumentStart
  | repeatedDirective
  | unknownVersion
  | undefinedHandle
  | missingContent
  | unclosedBlock
  | unclosedFlow
  /-- An alias or an anchor is not well used. -/
  | undefinedAlias
  | repeatedAnchor
  | secondDocument
  /-- The content does not fit its tag. -/
  | unknownTag
  | unexpectedShape
  | unhashableKey
  | malformedBinary
  deriving DecidableEq, Repr

/-- The wording of a problem. -/
def Problem.message : Problem → String
  | .unprintable => "special characters are not allowed"
  | .strayCharacter => "found a character that cannot start any token"
  | .missingColon => "could not find the colon of a key"
  | .misplacedEntry => "sequence entries are not allowed here"
  | .misplacedKey => "mapping keys are not allowed here"
  | .misplacedValue => "mapping values are not allowed here"
  | .malformedDirective => "this is no directive"
  | .malformedAnchor => "an anchor consists of letters, digits, hyphens and underscores"
  | .malformedTag => "this is no tag"
  | .malformedBlockHeader => "the header of a block scalar has at most one digit and one sign"
  | .malformedEscape => "this is no escape"
  | .unclosedQuote => "a quoted scalar is not closed"
  | .separatorInQuote => "a quoted scalar holds a document separator"
  | .missingDocumentStart => "a document has to start here"
  | .repeatedDirective => "a directive is given twice"
  | .unknownVersion => "this version is not supported"
  | .undefinedHandle => "the handle of a tag is not defined"
  | .missingContent => "a node has to start here"
  | .unclosedBlock => "a block collection has to end here"
  | .unclosedFlow => "a flow collection has to go on or end here"
  | .undefinedAlias => "an alias has no anchor"
  | .repeatedAnchor => "an anchor is given twice"
  | .secondDocument => "there is more than one document"
  | .unknownTag => "the tag is not known"
  | .unexpectedShape => "the node does not fit its tag"
  | .unhashableKey => "a key has to be a scalar"
  | .malformedBinary => "the data are not in base 64"

/-- What is wrong and where. -/
structure Fault where
  problem : Problem
  mark : Option Mark
  deriving DecidableEq, Repr

/-- A fault at a cursor. -/
def Cursor.fault (c : Cursor) (problem : Problem) : Fault := ⟨problem, some c.mark⟩

/-- Why a text is refused. -/
inductive Refusal where
  /-- The text is not well-formed. -/
  | malformed (fault : Fault)
  /-- A scalar cannot be read as what it is said to be. -/
  | unreadable (failure : Failure)
  deriving Repr

/-- A place from which on a text cannot be read. -/
structure Barrier where
  index : Nat
  refusal : Refusal
  deriving Repr

/-- The refusal of a text with a problem at a cursor. -/
def Cursor.refuse (c : Cursor) (problem : Problem) : Refusal := .malformed (c.fault problem)

end Bundler.Yaml
