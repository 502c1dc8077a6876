import Mathlib.Tactic.Lemma
import Bundler.Text.Blank
import Bundler.Text.Split

/-!
# Parts of texts

The parts of a text between separators hold no separator, and splitting gives the parts back that
were joined. The two halves at the last separator make up the text. Blank characters are dropped at
the end of a text only.
-/

namespace Bundler.Text

/-! ### Splitting and joining -/

lemma split_ne_nil (sep : Char) (cs : List Char) : split sep cs ≠ [] := by
  cases cs with
  | nil => simp [split]
  | cons c cs =>
    simp only [split]
    split
    · simp
    · split <;> simp

@[simp] lemma split_nil (sep : Char) : split sep [] = [[]] := rfl

@[simp] lemma split_cons_sep (sep : Char) (cs : List Char) :
    split sep (sep :: cs) = [] :: split sep cs := by
  simp [split]

/-- No part holds the separator. -/
lemma not_mem_of_mem_split {sep : Char} {cs part : List Char} (h : part ∈ split sep cs) :
    sep ∉ part := by
  induction cs generalizing part with
  | nil => simp [split] at h; simp [h]
  | cons c cs ih =>
    simp only [split] at h
    split at h
    · rcases List.mem_cons.1 h with rfl | h
      · simp
      · exact ih h
    · next hc =>
      cases hs : split sep cs with
      | nil => exact absurd hs (split_ne_nil sep cs)
      | cons first parts =>
        rw [hs] at h ih
        rcases List.mem_cons.1 h with rfl | h
        · have := ih (List.mem_cons_self ..)
          simp [this, Ne.symm hc]
        · exact ih (List.mem_cons_of_mem _ h)

/-- What is in a part is in the text. -/
lemma mem_of_mem_split {sep x : Char} {cs part : List Char} (hpart : part ∈ split sep cs)
    (hx : x ∈ part) : x ∈ cs := by
  induction cs generalizing part with
  | nil =>
    rw [split_nil, List.mem_singleton] at hpart
    rw [hpart] at hx
    exact hx
  | cons c cs ih =>
    simp only [split] at hpart
    split at hpart
    · rcases List.mem_cons.mp hpart with rfl | hpart
      · cases hx
      · exact List.mem_cons_of_mem _ (ih hpart hx)
    · cases hs : split sep cs with
      | nil => exact absurd hs (split_ne_nil sep cs)
      | cons first parts =>
        rw [hs] at hpart ih
        rcases List.mem_cons.mp hpart with rfl | hpart
        · rcases List.mem_cons.mp hx with rfl | hx
          · exact List.mem_cons_self
          · exact List.mem_cons_of_mem _ (ih List.mem_cons_self hx)
        · exact List.mem_cons_of_mem _ (ih (List.mem_cons_of_mem _ hpart) hx)

/-- A text without the separator is one part. -/
lemma split_of_not_mem {sep : Char} {cs : List Char} (h : sep ∉ cs) : split sep cs = [cs] := by
  induction cs with
  | nil => rfl
  | cons c cs ih =>
    rw [List.mem_cons, not_or] at h
    simp only [split, if_neg (Ne.symm h.1), ih h.2]

/-- The part before a separator is split off. -/
lemma split_append_sep {sep : Char} {part : List Char} (h : sep ∉ part) (cs : List Char) :
    split sep (part ++ sep :: cs) = part :: split sep cs := by
  induction part with
  | nil => exact split_cons_sep sep cs
  | cons c part ih =>
    rw [List.mem_cons, not_or] at h
    simp only [List.cons_append, split, if_neg (Ne.symm h.1), ih h.2]

/-- The parts on both sides of a separator. -/
lemma split_append_cons (sep : Char) (cs ds : List Char) :
    split sep (cs ++ sep :: ds) = split sep cs ++ split sep ds := by
  induction cs with
  | nil => simp
  | cons c cs ih =>
    simp only [List.cons_append, split, ih]
    split
    · rfl
    · cases hs : split sep cs with
      | nil => exact absurd hs (split_ne_nil sep cs)
      | cons part parts => rfl

/-- Splitting gives the parts back that were joined. -/
lemma split_join {sep : Char} {parts : List (List Char)} (hne : parts ≠ [])
    (h : ∀ part ∈ parts, sep ∉ part) : split sep (join sep parts) = parts := by
  induction parts with
  | nil => exact absurd rfl hne
  | cons part parts ih =>
    have hpart := h part List.mem_cons_self
    cases parts with
    | nil => exact split_of_not_mem hpart
    | cons next parts =>
      rw [join, split_append_sep hpart,
        ih (List.cons_ne_nil _ _) fun part' h' => h part' (List.mem_cons_of_mem _ h')]

/-! ### Halves -/

/-- The two halves at the last separator make up the text. -/
lemma throughLast_append_afterLast (sep : Char) (cs : List Char) :
    throughLast sep cs ++ afterLast sep cs = cs := by
  rw [throughLast, afterLast, ← List.reverse_append, List.takeWhile_append_dropWhile,
    List.reverse_reverse]

/-- A last half without a separator stays a last half. -/
lemma afterLast_append_sep (sep : Char) (cs ds : List Char) :
    afterLast sep (cs ++ sep :: ds) = afterLast sep ds := by
  have hstop : ∀ es : List Char,
      (es ++ sep :: cs.reverse).takeWhile (· ≠ sep) = es.takeWhile (· ≠ sep) := by
    intro es
    induction es with
    | nil => simp
    | cons e es ih => simp only [List.cons_append, List.takeWhile_cons, ih]
  rw [afterLast, afterLast, List.reverse_append, List.reverse_cons, List.append_assoc,
    List.singleton_append, hstop]

/-- What stands before a separator is in the first half. -/
lemma throughLast_append_sep (sep : Char) (cs ds : List Char) :
    throughLast sep (cs ++ sep :: ds) = cs ++ sep :: throughLast sep ds := by
  have hall := throughLast_append_afterLast sep (cs ++ sep :: ds)
  rw [afterLast_append_sep] at hall
  rw [← List.append_left_inj (afterLast sep ds), hall, List.append_assoc, List.cons_append,
    throughLast_append_afterLast]

lemma afterLast_of_not_mem {sep : Char} {cs : List Char} (h : sep ∉ cs) :
    afterLast sep cs = cs := by
  have hall : ∀ ds : List Char, sep ∉ ds → ds.takeWhile (· ≠ sep) = ds := by
    intro ds hds
    induction ds with
    | nil => rfl
    | cons d ds ih =>
      rw [List.mem_cons, not_or] at hds
      rw [List.takeWhile_cons, if_pos (decide_eq_true (Ne.symm hds.1)), ih hds.2]
  rw [afterLast, hall _ (by simpa using h), List.reverse_reverse]

lemma throughLast_of_not_mem {sep : Char} {cs : List Char} (h : sep ∉ cs) :
    throughLast sep cs = [] := by
  have hall := throughLast_append_afterLast sep cs
  rw [afterLast_of_not_mem h] at hall
  simpa using hall

lemma not_mem_afterLast (sep : Char) (cs : List Char) : sep ∉ afterLast sep cs := by
  intro h
  rw [afterLast, List.mem_reverse] at h
  have hall : (cs.reverse.takeWhile (· ≠ sep)).all (· ≠ sep) = true := List.all_takeWhile
  simpa using List.all_eq_true.mp hall sep h

/-- The first half is empty or ends in a separator. -/
lemma throughLast_eq (sep : Char) (cs : List Char) :
    throughLast sep cs = [] ∨ ∃ ds, throughLast sep cs = ds ++ [sep] := by
  rw [throughLast]
  cases h : cs.reverse.dropWhile (· ≠ sep) with
  | nil => exact Or.inl rfl
  | cons d ds =>
    have hd : d = sep := by
      have hhead := List.head_dropWhile_not (l := cs.reverse) (· ≠ sep) (by rw [h]; exact List.cons_ne_nil _ _)
      simp only [h, List.head_cons] at hhead
      simpa using hhead
    exact Or.inr ⟨ds.reverse, by simp [hd]⟩

/-- A text without `old` stays the same. -/
lemma swap_of_not_mem {old new : Char} {cs : List Char} (h : old ∉ cs) : swap old new cs = cs := by
  have hsame : ∀ c ∈ cs, (if c = old then new else c) = id c := by
    intro c hc
    apply if_neg
    rintro rfl
    exact h hc
  rw [swap, List.map_congr_left hsame, List.map_id]

/-! ### Blank ends -/

@[simp] lemma dropBlankEnd_nil : dropBlankEnd [] = [] := rfl

/-- A text that ends in a character that is not blank is left alone. -/
lemma dropBlankEnd_concat (cs : List Char) (c : Char) (h : isBlank c = false) :
    dropBlankEnd (cs ++ [c]) = cs ++ [c] := by
  simp [dropBlankEnd, h]

/-- A blank character at the end is dropped. -/
lemma dropBlankEnd_concat_blank (cs : List Char) (c : Char) (h : isBlank c = true) :
    dropBlankEnd (cs ++ [c]) = dropBlankEnd cs := by
  simp [dropBlankEnd, h]

end Bundler.Text
