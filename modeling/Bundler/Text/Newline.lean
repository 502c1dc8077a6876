/-!
# Line ends

A text read from a file has one kind of line end: a carriage return, with or without a line feed
behind it, counts as a line feed.
-/

namespace Bundler.Text

/-- The text with every line end written as a line feed. -/
def unifyLineEnds : List Char → List Char
  | [] => []
  | '\r' :: '\n' :: cs => '\n' :: unifyLineEnds cs
  | '\r' :: cs => '\n' :: unifyLineEnds cs
  | c :: cs => c :: unifyLineEnds cs

end Bundler.Text
