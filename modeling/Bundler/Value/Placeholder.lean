import Bundler.Text.Split
import Bundler.Value.Mapping

/-!
# Placeholders

In a text `${NAME}` stands for a variable of the process and `{env}` for the name of the environment.
A text is read into pieces once, from left to right; what a placeholder stands for is not read
again.
-/

namespace Bundler

/-- The variables of a process with their values. -/
abbrev Variables := List (String × String)

namespace Placeholder

/-- A piece of a text. -/
inductive Piece where
  | character (c : Char)
  /-- A variable by its name. -/
  | variable (name : List Char)
  /-- The name of the environment. -/
  | environment
  deriving DecidableEq, Repr

theorem cut_length (sep : Char) (cs rest : List Char) (h : (Text.cut sep cs).2 = some rest) :
    rest.length < cs.length := by
  induction cs with
  | nil => simp [Text.cut] at h
  | cons c cs ih =>
    simp only [Text.cut] at h
    split at h
    · cases h; simp
    · have := ih h
      simp only [List.length_cons]
      omega

/-- The variable at the front of a text and what follows it. -/
def named? (cs : List Char) : Option (List Char × List Char) :=
  match cs with
  | '$' :: '\x7b' :: cs =>
    match Text.cut '\x7d' cs with
    | (c :: name, some rest) => some (c :: name, rest)
    | _ => none
  | _ => none

theorem named?_length {cs name rest : List Char} (h : named? cs = some (name, rest)) :
    rest.length < cs.length := by
  unfold named? at h
  split at h
  · next cs =>
    split at h
    · next c name rest hc =>
      cases h
      have := cut_length '\x7d' cs rest (by rw [hc])
      simp only [List.length_cons]
      omega
    · simp at h
  · simp at h

/-- The rest of a text that begins with the placeholder of the environment. -/
def current? (cs : List Char) : Option (List Char) :=
  match cs with
  | '\x7b' :: 'e' :: 'n' :: 'v' :: '\x7d' :: rest => some rest
  | _ => none

theorem current?_length {cs rest : List Char} (h : current? cs = some rest) :
    rest.length < cs.length := by
  unfold current? at h
  split at h
  · cases h; simp only [List.length_cons]; omega
  · simp at h

/-- The pieces of a text. -/
def pieces (cs : List Char) : List Piece :=
  match hv : named? cs with
  | some (name, rest) =>
    have := named?_length hv
    .variable name :: pieces rest
  | none =>
    match he : current? cs with
    | some rest =>
      have := current?_length he
      .environment :: pieces rest
    | none =>
      match cs with
      | [] => []
      | c :: cs => .character c :: pieces cs
termination_by cs.length

/-- What placeholders stand for: the values of variables and the name of the environment. -/
structure Setting where
  vars : Variables
  environment : String

/-- What a piece stands for. A variable that is not set stands for itself. -/
def Setting.expand (s : Setting) : Piece → List Char
  | .character c => [c]
  | .variable name =>
    match s.vars.lookup (String.ofList name) with
    | some value => value.toList
    | none => '$' :: '\x7b' :: (name ++ ['\x7d'])
  | .environment => s.environment.toList

/-- The text with every placeholder replaced. -/
def Setting.fill (s : Setting) (text : String) : String :=
  String.ofList ((pieces text.toList).flatMap s.expand)

end Placeholder

open Placeholder

mutual

/-- The value with the placeholders of its texts replaced. Keys stay as they are. -/
def Value.fill (s : Setting) : Value → Value
  | .scalar (.text t) => .scalar (.text (s.fill t))
  | .list items => .list (Value.fillItems s items)
  | .mapping entries => .mapping (Value.fillEntries s entries)
  | v => v

/-- The items with their placeholders replaced. -/
def Value.fillItems (s : Setting) : List Value → List Value
  | [] => []
  | v :: vs => v.fill s :: Value.fillItems s vs

/-- The entries with the placeholders of their values replaced. -/
def Value.fillEntries (s : Setting) : List (Scalar × Value) → List (Scalar × Value)
  | [] => []
  | (key, v) :: entries => (key, v.fill s) :: Value.fillEntries s entries

end

end Bundler
