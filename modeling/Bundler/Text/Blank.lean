import Bundler.Text.CharRange

/-!
# Blank characters

The Unicode white space together with the four separator controls U+001C to U+001F. A blank
character separates the words of an import clause and is dropped at the end of a source text.
-/

namespace Bundler.Text

/-- The blank characters, as closed ranges of code points. -/
def blankRanges : Array (Nat × Nat) :=
  #[(0x09, 0x0D), (0x1C, 0x20), (0x85, 0x85), (0xA0, 0xA0), (0x1680, 0x1680), (0x2000, 0x200A),
    (0x2028, 0x2029), (0x202F, 0x202F), (0x205F, 0x205F), (0x3000, 0x3000)]

/-- Whether `c` is blank. -/
def isBlank (c : Char) : Bool := inRanges blankRanges c

/-- The characters up to the last one that is not blank. -/
def dropBlankEnd (cs : List Char) : List Char := (cs.reverse.dropWhile isBlank).reverse

/-- The text without the blank characters at its end. -/
def trimEnd (s : String) : String := String.ofList (dropBlankEnd s.toList)

end Bundler.Text
