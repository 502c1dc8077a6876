import Bundler.Text.Split

/-!
# Paths

A path is an anchor and a list of segments. Reading a path from its text drops empty segments and
the segment `.`; the segment `..` is kept until the path is normalized. A text that begins with
exactly two slashes has an anchor of its own.
-/

namespace Bundler

/-- Where a path starts. -/
inductive Anchor where
  | relative
  | root
  | doubleRoot
  deriving DecidableEq, Repr, Inhabited

/-- A path. -/
structure Path where
  anchor : Anchor
  segments : List String
  deriving DecidableEq, Repr, Inhabited

namespace Path

/-- The anchor of a text. -/
def anchorOf : List Char → Anchor
  | '/' :: '/' :: '/' :: _ => .root
  | '/' :: '/' :: _ => .doubleRoot
  | '/' :: _ => .root
  | _ => .relative

/-- Whether a part of a text is a segment. -/
def isSegment (part : List Char) : Bool := !part.isEmpty && part != ['.']

/-- The path that a text writes. -/
def ofChars (cs : List Char) : Path :=
  ⟨anchorOf cs, ((Text.split '/' cs).filter isSegment).map String.ofList⟩

/-- The path that a text writes. -/
def ofString (s : String) : Path := ofChars s.toList

/-- The text of an anchor. -/
def anchorText : Anchor → String
  | .relative => ""
  | .root => "/"
  | .doubleRoot => "//"

/-- The text of a path; the empty relative path is written `.`. -/
def text (p : Path) : String :=
  if p.anchor = .relative ∧ p.segments = [] then "."
  else anchorText p.anchor ++ String.intercalate "/" p.segments

/-- Whether a path does not depend on a directory it is read in. -/
def isAbsolute (p : Path) : Bool := p.anchor != .relative

/-- The path `q` seen from `p`; an absolute `q` stands for itself. -/
def append (p q : Path) : Path :=
  if q.isAbsolute then q else { p with segments := p.segments ++ q.segments }

/-- The path without its last segment. -/
def parent (p : Path) : Path := { p with segments := p.segments.dropLast }

/-- The last segment, empty if there is none. -/
def name (p : Path) : String := p.segments.getLast?.getD ""

/-- Whether a text writes an absolute path. -/
def isAbsoluteText (s : String) : Bool := s.toList.head? == some '/'

/-! ### Normal form -/

/-- The segments read so far, last first, after one more. A `..` takes back the segment before it;
with nothing to take back it is dropped below an anchor and kept in a relative path. -/
def push (anchored : Bool) (stack : List String) (segment : String) : List String :=
  if segment = ".." then
    match stack with
    | [] => if anchored then [] else [".."]
    | top :: rest => if top = ".." then ".." :: stack else rest
  else segment :: stack

/-- The segments with every `..` resolved as far as possible. -/
def collapse (anchored : Bool) (segments : List String) : List String :=
  (segments.foldl (push anchored) []).reverse

/-- The path with every `..` resolved as far as possible. -/
def normalize (p : Path) : Path := { p with segments := collapse p.isAbsolute p.segments }

/-! ### Relative paths -/

/-- The way from one list of segments to another: up to where they part, then down. -/
def wayTo : (start target : List String) → List String
  | [], target => target
  | start, [] => start.map fun _ => ".."
  | s :: start, t :: target =>
    if s = t then wayTo start target
    else ((s :: start).map fun _ => "..") ++ t :: target

/-- The relative path from `start` to `target`, both absolute and normal. -/
def relativeTo (target start : Path) : Path := ⟨.relative, wayTo start.segments target.segments⟩

/-- The segments below `start`, if the path lies there. -/
def below? (p start : Path) : Option (List String) :=
  if p.anchor = start.anchor ∧ p.segments.take start.segments.length = start.segments then
    some (p.segments.drop start.segments.length)
  else none

end Path

end Bundler
