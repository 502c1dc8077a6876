/-!
# Splitting and joining on a character

`split sep cs` cuts `cs` at every occurrence of `sep`, keeping empty parts, and `join sep` puts
the parts together again.
-/

namespace Bundler.Text

/-- The parts of `cs` between the occurrences of `sep`; there is always at least one. -/
def split (sep : Char) : List Char → List (List Char)
  | [] => [[]]
  | c :: cs =>
    if c = sep then [] :: split sep cs
    else match split sep cs with
      | [] => [[c]]
      | part :: parts => (c :: part) :: parts

/-- The parts in order with `sep` between neighbours. -/
def join (sep : Char) : List (List Char) → List Char
  | [] => []
  | [part] => part
  | part :: next :: parts => part ++ sep :: join sep (next :: parts)

/-- The text before the first `sep`, and the text after it if there is one. -/
def cut (sep : Char) : List Char → List Char × Option (List Char)
  | [] => ([], none)
  | c :: cs => if c = sep then ([], some cs) else ((cut sep cs).1.cons c, (cut sep cs).2)

/-- The text up to and including the last `sep`, empty if there is none. -/
def throughLast (sep : Char) (cs : List Char) : List Char :=
  (cs.reverse.dropWhile (· ≠ sep)).reverse

/-- The text after the last `sep`, all of it if there is none. -/
def afterLast (sep : Char) (cs : List Char) : List Char :=
  (cs.reverse.takeWhile (· ≠ sep)).reverse

/-- The text with every `old` turned into `new`. -/
def swap (old new : Char) (cs : List Char) : List Char :=
  cs.map fun c => if c = old then new else c

end Bundler.Text
