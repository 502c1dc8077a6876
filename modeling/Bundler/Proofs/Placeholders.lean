import Bundler.Value.Placeholder
import Mathlib.Tactic.Lemma

/-!
# Texts with placeholders

A text that is put together from literals and placeholders is filled part by part. Each part is read
where it stands, whatever follows it, and what it stands for is not read again.
-/

namespace Bundler

lemma Text.cut_append_cons {sep : Char} {cs : List Char} (h : sep ∉ cs) (rest : List Char) :
    Text.cut sep (cs ++ sep :: rest) = (cs, some rest) := by
  induction cs with
  | nil => simp [Text.cut]
  | cons c cs ih =>
    rw [List.mem_cons, not_or] at h
    rw [List.cons_append, Text.cut, if_neg (Ne.symm h.1), ih h.2]

namespace Placeholder

variable {cs : List Char} {c : Char}

/-! ### The piece at the front of a text -/

lemma pieces_nil : pieces [] = [] := by
  rw [pieces]
  rfl

lemma pieces_variable {name : List Char} (hne : name ≠ []) (hname : '\x7d' ∉ name)
    (rest : List Char) :
    pieces ('$' :: '\x7b' :: (name ++ '\x7d' :: rest)) = .variable name :: pieces rest := by
  have hnamed : named? ('$' :: '\x7b' :: (name ++ '\x7d' :: rest)) = some (name, rest) := by
    rw [named?, Text.cut_append_cons hname]
    cases name with
    | nil => exact absurd rfl hne
    | cons c name => rfl
  rw [pieces]
  split
  · next hv =>
    rw [hnamed] at hv
    cases hv
    rfl
  · next hv =>
    rw [hnamed] at hv
    cases hv

lemma pieces_environment (rest : List Char) :
    pieces ('\x7b' :: 'e' :: 'n' :: 'v' :: '\x7d' :: rest) = .environment :: pieces rest := by
  rw [pieces]
  rfl

lemma pieces_character (hdollar : c ≠ '$') (hbrace : c ≠ '\x7b') (cs : List Char) :
    pieces (c :: cs) = .character c :: pieces cs := by
  have hnamed : named? (c :: cs) = none := by
    unfold named?
    split
    · next h => cases h; exact absurd rfl hdollar
    · rfl
  have hcurrent : current? (c :: cs) = none := by
    unfold current?
    split
    · next h => cases h; exact absurd rfl hbrace
    · rfl
  rw [pieces]
  split
  · next hv => rw [hnamed] at hv; cases hv
  · split
    · next he => rw [hcurrent] at he; cases he
    · rfl

lemma pieces_append_of_plain (hdollar : '$' ∉ cs) (hbrace : '\x7b' ∉ cs) (rest : List Char) :
    pieces (cs ++ rest) = cs.map .character ++ pieces rest := by
  induction cs with
  | nil => rfl
  | cons c cs ih =>
    rw [List.mem_cons, not_or] at hdollar hbrace
    rw [List.cons_append, pieces_character (Ne.symm hdollar.1) (Ne.symm hbrace.1),
      ih hdollar.2 hbrace.2]
    rfl

/-! ### Texts by their parts -/

/-- A part of a text. -/
inductive Part where
  | literal (text : String) (plain : '$' ∉ text.toList ∧ '\x7b' ∉ text.toList)
  /-- The placeholder of a variable. -/
  | named (name : String) (proper : name ≠ "" ∧ '\x7d' ∉ name.toList)
  /-- The placeholder of the environment. -/
  | current

namespace Part

/-- The part as it is written. -/
def written : Part → String
  | literal text _ => text
  | named name _ => "$\x7b" ++ name ++ "\x7d"
  | current => "\x7benv\x7d"

/-- What a part stands for. The placeholder of a variable that is not set stays as it is written. -/
def meaning (s : Setting) : Part → String
  | literal text _ => text
  | named name proper => (s.vars.lookup name).getD (named name proper).written
  | current => s.environment

/-- The part in front of a text is read on its own. -/
lemma expand_pieces_written_append (s : Setting) (part : Part) (rest : List Char) :
    (pieces (part.written.toList ++ rest)).flatMap s.expand
      = (part.meaning s).toList ++ (pieces rest).flatMap s.expand := by
  cases part with
  | literal text plain =>
    rw [written, meaning, pieces_append_of_plain plain.1 plain.2, List.flatMap_append,
      List.flatMap_map]
    simp [Setting.expand]
  | named name proper =>
    have hwritten : (named name proper).written.toList ++ rest
        = '$' :: '\x7b' :: (name.toList ++ '\x7d' :: rest) := by
      simp [written]
    have hne : name.toList ≠ [] := by
      rw [Ne, String.toList_eq_nil_iff]
      exact proper.1
    rw [hwritten, pieces_variable hne proper.2, List.flatMap_cons, Setting.expand,
      String.ofList_toList, meaning]
    cases s.vars.lookup name with
    | some value => rfl
    | none => simp [written]
  | current =>
    exact congrArg (List.flatMap s.expand) (pieces_environment rest)

end Part

/-- A text is filled part by part. -/
lemma Setting.fill_join (s : Setting) (parts : List Part) :
    s.fill (String.join (parts.map Part.written))
      = String.join (parts.map (Part.meaning s)) := by
  rw [← String.toList_inj, Setting.fill, String.toList_ofList, String.toList_join,
    String.toList_join, List.flatMap_map, List.flatMap_map]
  induction parts with
  | nil => rw [List.flatMap_nil, pieces_nil, List.flatMap_nil, List.flatMap_nil]
  | cons part parts ih =>
    rw [List.flatMap_cons, Part.expand_pieces_written_append, ih, List.flatMap_cons]

end Placeholder

open Placeholder

/-- A text value that is put together from literals and placeholders becomes what its parts stand
for, in their order. -/
theorem Value.fill_join_written (s : Setting) (parts : List Part) :
    (Value.text (String.join (parts.map Part.written))).fill s
      = .text (String.join (parts.map (Part.meaning s))) := by
  rw [Value.fill, Setting.fill_join]

/-- What is inserted is not read again, also where it forms a placeholder together with its
neighbours. -/
example : Setting.fill ⟨[("A", "$\x7bB")], "A\x7d"⟩ "$\x7bA\x7d\x7benv\x7d$\x7b\x7benv\x7d"
    = "$\x7bBA\x7d$\x7b\x7benv\x7d" := by
  decide +kernel

end Bundler
