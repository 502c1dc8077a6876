import Bundler.Text.Blank
import Bundler.Text.Word

/-!
# Specifiers

The specifiers of a source text are the names that its static imports give: the quoted text behind
`import`, `import … from` or `export … from` at the start of a line. The words between the keyword
and the quote may go over several lines; such a statement covers the lines it runs over, and the
search goes on behind its closing quote.
-/

namespace Bundler.Specifier

/-- The single and the double quote. -/
def isQuote (c : Char) : Bool := c == '\x27' || c == '\x22'

/-- The characters of the words between a keyword and `from`. -/
def isClauseChar (c : Char) : Bool :=
  Text.isWord c || Text.isBlank c || c == '*' || c == '\x7b' || c == '\x7d' || c == ',' || c == '$'

/-- The characters of a specifier. -/
def isSpecifierChar (c : Char) : Bool := !isQuote c && c != '\n'

/-- The keyword that starts a statement. -/
inductive Keyword where
  | importing
  | exporting
  deriving DecidableEq, Repr

/-- The letters of a keyword. -/
def Keyword.letters : Keyword → List Char
  | .importing => ['i', 'm', 'p', 'o', 'r', 't']
  | .exporting => ['e', 'x', 'p', 'o', 'r', 't']

/-- The keyword at the front of a text and what follows it. -/
def keyword? (cs : List Char) : Option (Keyword × List Char) :=
  if Keyword.importing.letters.isPrefixOf cs then some (.importing, cs.drop 6)
  else if Keyword.exporting.letters.isPrefixOf cs then some (.exporting, cs.drop 6)
  else none

/-- Whether a text ends in the word `from` with something before it, all of clause characters. -/
def isFromClause (cs : List Char) : Bool :=
  match (Text.dropBlankEnd cs).reverse with
  | 'm' :: 'o' :: 'r' :: 'f' :: words => !words.isEmpty && words.all isClauseChar
  | _ => false

/-- Whether a text may stand between a keyword and the opening quote. -/
def isClause (keyword : Keyword) (cs : List Char) : Bool :=
  (keyword == .importing && cs.all Text.isBlank) || isFromClause cs

/-- The specifier of the statement that starts a line, and the text behind its closing quote. -/
def statement? (line : List Char) : Option (List Char × List Char) := do
  let (keyword, cs) ← keyword? (line.dropWhile fun c => c == ' ' || c == '\t')
  let clause := cs.takeWhile fun c => !isQuote c
  match cs.dropWhile fun c => !isQuote c with
  | [] => none
  | quote :: cs =>
    let specifier := cs.takeWhile isSpecifierChar
    match cs.dropWhile isSpecifierChar with
    | [] => none
    | close :: rest =>
      if isClause keyword clause ∧ specifier ≠ [] ∧ close = quote then some (specifier, rest)
      else none

private theorem length_dropWhile_le (p : Char → Bool) (cs : List Char) :
    (cs.dropWhile p).length ≤ cs.length := (List.dropWhile_sublist p).length_le

private theorem keyword?_length {cs : List Char} {k : Keyword} {rest : List Char}
    (h : keyword? cs = some (k, rest)) : rest.length ≤ cs.length := by
  simp only [keyword?] at h
  split at h
  · cases h; simp
  · split at h
    · cases h; simp
    · simp at h

/-- A statement is not empty, so the text behind it is shorter than the line. -/
theorem statement?_length {line specifier rest : List Char}
    (h : statement? line = some (specifier, rest)) : rest.length < line.length := by
  simp only [statement?, Option.bind_eq_bind, Option.bind_eq_some_iff] at h
  obtain ⟨⟨k, cs⟩, hk, h⟩ := h
  have h1 := keyword?_length hk
  have h2 := length_dropWhile_le (fun c => c == ' ' || c == '\t') line
  have h3 := length_dropWhile_le (fun c => !isQuote c) cs
  split at h
  · simp at h
  · next quote cs' hq =>
    have h4 := length_dropWhile_le isSpecifierChar cs'
    rw [hq] at h3
    split at h
    · simp at h
    · next close rest' hc =>
      rw [hc] at h4
      split at h
      · simp only [Option.some.injEq, Prod.mk.injEq] at h
        rw [← h.2]
        simp only [List.length_cons] at h3 h4
        omega
      · simp at h

/-- The specifiers of the statements in a text in order; `atStart` tells whether the text begins at
the start of a line. -/
def scan (atStart : Bool) (cs : List Char) : List (List Char) :=
  match h : (if atStart then statement? cs else none) with
  | some (specifier, rest) =>
    have : rest.length < cs.length := by
      split at h
      · exact statement?_length h
      · simp at h
    specifier :: scan false rest
  | none =>
    match cs with
    | [] => []
    | c :: cs => scan (c == '\n') cs
termination_by cs.length

/-- The specifiers of a source text, each at its first place. -/
def ofSource (source : String) : List String :=
  ((scan true source.toList).map String.ofList).eraseDups

end Bundler.Specifier
