/-!
# Control sequences of terminals

A control sequence begins with an escape and a bracket and ends with a letter; digits and a few
signs may stand between them. A text that is not printed on a terminal is printed without them.
-/

namespace Bundler.Text

/-- What follows a control sequence, from behind its bracket. -/
def afterSequence? : List Char → Option (List Char)
  | [] => none
  | c :: cs =>
    if c.isAlpha then some cs
    else if c.isDigit || c = ';' || c = '?' then afterSequence? cs
    else none

theorem afterSequence?_length {cs rest : List Char} (h : afterSequence? cs = some rest) :
    rest.length < cs.length := by
  induction cs with
  | nil => simp [afterSequence?] at h
  | cons c cs ih =>
    simp only [afterSequence?] at h
    split at h
    · cases h; simp
    · split at h
      · have := ih h
        simp only [List.length_cons]
        omega
      · simp at h

/-- What follows the control sequence at the front of a text. -/
def sequence? : List Char → Option (List Char)
  | '\x1b' :: '[' :: cs => afterSequence? cs
  | _ => none

theorem sequence?_length {cs rest : List Char} (h : sequence? cs = some rest) :
    rest.length < cs.length := by
  unfold sequence? at h
  split at h
  · have := afterSequence?_length h
    simp only [List.length_cons]
    omega
  · simp at h

/-- The characters without control sequences. -/
def dropSequences (cs : List Char) : List Char :=
  match h : sequence? cs with
  | some rest =>
    have := sequence?_length h
    dropSequences rest
  | none => match cs with
    | [] => []
    | c :: cs => c :: dropSequences cs
termination_by cs.length

/-- The text without control sequences. -/
def withoutSequences (s : String) : String := String.ofList (dropSequences s.toList)

end Bundler.Text
