import Mathlib.Data.List.Basic
import Bundler.Path.Basic
import Bundler.Proofs.Texts

/-!
# Segments of paths

A segment that is read from a text is not empty, is not `.` and holds no slash. A path of such
segments can be read from its own text again. In normal form the segments `..` of a path stand in
front of all others, and there are none below an anchor.
-/

namespace Bundler.Path

open Text

variable {p q : Path} {ss : List String} {s : String} {anchored : Bool}

/-! ### Anchors -/

@[simp] lemma isAbsolute_relative (ss : List String) :
    (⟨.relative, ss⟩ : Path).isAbsolute = false := rfl

@[simp] lemma isAbsolute_root (ss : List String) : (⟨.root, ss⟩ : Path).isAbsolute = true := rfl

@[simp] lemma isAbsolute_doubleRoot (ss : List String) :
    (⟨.doubleRoot, ss⟩ : Path).isAbsolute = true := rfl

lemma append_absolute (p : Path) {q : Path} (h : q.isAbsolute = true) : p.append q = q := by
  simp [append, h]

@[simp] lemma isAbsolute_normalize (p : Path) : p.normalize.isAbsolute = p.isAbsolute := rfl

/-- A path seen from an absolute one is absolute. -/
lemma isAbsolute_append {p : Path} (q : Path) (h : p.isAbsolute = true) :
    (p.append q).isAbsolute = true := by
  unfold append
  split
  · assumption
  · exact h

/-! ### Well-formed paths -/

/-- The text can be read as one segment. -/
def IsSegmentText (s : String) : Prop := isSegment s.toList = true ∧ '/' ∉ s.toList

instance (s : String) : Decidable (IsSegmentText s) := inferInstanceAs (Decidable (_ ∧ _))

/-- Every segment can be read from a text. -/
def WellFormed (p : Path) : Prop := ∀ s ∈ p.segments, IsSegmentText s

instance (p : Path) : Decidable p.WellFormed :=
  inferInstanceAs (Decidable (∀ s ∈ p.segments, IsSegmentText s))

lemma isSegment_iff {cs : List Char} : isSegment cs = true ↔ cs ≠ [] ∧ cs ≠ ['.'] := by
  cases cs <;> simp [isSegment]

lemma wellFormed_ofChars (cs : List Char) : (ofChars cs).WellFormed := by
  intro s hs
  obtain ⟨part, hpart, rfl⟩ := List.mem_map.mp hs
  obtain ⟨hsplit, hsegment⟩ := List.mem_filter.mp hpart
  rw [IsSegmentText, String.toList_ofList]
  exact ⟨hsegment, not_mem_of_mem_split hsplit⟩

lemma WellFormed.append (hp : p.WellFormed) (hq : q.WellFormed) : (p.append q).WellFormed := by
  unfold Path.append
  split
  · exact hq
  · intro s hs
    rcases List.mem_append.mp hs with hs | hs
    · exact hp s hs
    · exact hq s hs

/-! ### Reading a path from its text -/

lemma toList_intercalate_slash (ss : List String) :
    (String.intercalate "/" ss).toList = join '/' (ss.map String.toList) := by
  induction ss with
  | nil => rfl
  | cons s ss ih =>
    cases ss with
    | nil => simp [join]
    | cons next ss =>
      rw [String.intercalate_cons_cons, String.toList_append, String.toList_append, ih]
      simp [join]

lemma segments_join (h : ∀ s ∈ ss, IsSegmentText s) :
    ((split '/' (join '/' (ss.map String.toList))).filter isSegment).map String.ofList = ss := by
  cases ss with
  | nil => rfl
  | cons s ss =>
    rw [split_join (by simp), List.filter_eq_self.mpr]
    · simp [Function.comp_def]
    · intro part hpart
      obtain ⟨s', hs', rfl⟩ := List.mem_map.mp hpart
      exact (h s' hs').1
    · intro part hpart
      obtain ⟨s', hs', rfl⟩ := List.mem_map.mp hpart
      exact (h s' hs').2

/-- A text made of segments does not begin with a slash. -/
lemma head?_join_ne (h : ∀ s ∈ ss, IsSegmentText s) :
    (join '/' (ss.map String.toList)).head? ≠ some '/' := by
  cases ss with
  | nil => simp [join]
  | cons s ss =>
    obtain ⟨hsegment, hslash⟩ := h s List.mem_cons_self
    cases hs : s.toList with
    | nil => exact absurd hs (isSegment_iff.mp hsegment).1
    | cons c cs =>
      rw [hs, List.mem_cons, not_or] at hslash
      cases ss <;> simpa [join, hs] using Ne.symm hslash.1

lemma anchorOf_eq_relative_iff {cs : List Char} :
    anchorOf cs = .relative ↔ cs.head? ≠ some '/' := by
  cases cs with
  | nil => simp [anchorOf]
  | cons c cs =>
    by_cases hc : c = '/'
    · subst hc
      unfold anchorOf
      split <;> simp_all
    · simp [anchorOf, hc]

lemma anchorOf_append (anchor : Anchor) {cs : List Char} (h : cs.head? ≠ some '/') :
    anchorOf ((anchorText anchor).toList ++ cs) = anchor := by
  cases anchor with
  | relative => exact anchorOf_eq_relative_iff.mpr h
  | root =>
    cases cs with
    | nil => rfl
    | cons c cs =>
      have hc : c ≠ '/' := by simpa using h
      simp [anchorText, anchorOf, hc]
  | doubleRoot =>
    cases cs with
    | nil => rfl
    | cons c cs =>
      have hc : c ≠ '/' := by simpa using h
      simp [anchorText, anchorOf, hc]

/-- A well-formed path is read from its own text. -/
theorem ofString_text (h : p.WellFormed) : ofString p.text = p := by
  obtain ⟨anchor, ss⟩ := p
  by_cases hempty : anchor = .relative ∧ ss = []
  · obtain ⟨rfl, rfl⟩ := hempty
    rfl
  · have htext : (text ⟨anchor, ss⟩).toList
        = (anchorText anchor).toList ++ join '/' (ss.map String.toList) := by
      rw [text, if_neg hempty, String.toList_append, toList_intercalate_slash]
    have hsegments := segments_join h
    rw [ofString, htext, ofChars, anchorOf_append anchor (head?_join_ne h), Path.mk.injEq]
    refine ⟨rfl, ?_⟩
    -- the slashes of an anchor only make empty parts
    cases anchor <;> simpa [anchorText, isSegment] using hsegments

/-! ### Normal form -/

/-- The segments `..` stand in front of all others; there are none below an anchor. -/
def IsNormal (anchored : Bool) (ss : List String) : Prop :=
  ∃ up down, ss = List.replicate up ".." ++ down ∧ ".." ∉ down ∧ (anchored = true → up = 0)

lemma IsNormal.not_mem (h : IsNormal true ss) : ".." ∉ ss := by
  obtain ⟨up, down, rfl, hdown, hup⟩ := h
  rw [hup rfl]
  exact hdown

lemma IsNormal.of_not_mem (h : ".." ∉ ss) : IsNormal anchored ss := ⟨0, ss, rfl, h, fun _ => rfl⟩

/-- The segments read so far, last first, are in normal form after one more. -/
lemma exists_push {up : Nat} {down : List String} (hdown : ".." ∉ down)
    (hup : anchored = true → up = 0) (s : String) :
    ∃ up' down', push anchored (down ++ List.replicate up "..") s
        = down' ++ List.replicate up' ".." ∧ ".." ∉ down' ∧ (anchored = true → up' = 0) := by
  unfold push
  split
  · cases down with
    | nil =>
      cases up with
      | zero =>
        cases anchored with
        | true => exact ⟨0, [], rfl, by simp, fun _ => rfl⟩
        | false => exact ⟨1, [], rfl, by simp, by simp⟩
      | succ up => exact ⟨up + 2, [], rfl, by simp, fun h => absurd (hup h) (by simp)⟩
    | cons top rest =>
      rw [List.mem_cons, not_or] at hdown
      refine ⟨up, rest, ?_, hdown.2, hup⟩
      simp [Ne.symm hdown.1]
  · next hs =>
    refine ⟨up, s :: down, rfl, ?_, hup⟩
    rw [List.mem_cons, not_or]
    exact ⟨Ne.symm hs, hdown⟩

/-- Resolving every `..` gives a normal form. -/
theorem isNormal_collapse (anchored : Bool) (ss : List String) :
    IsNormal anchored (collapse anchored ss) := by
  have hstack : ∀ (up : Nat) (down : List String), ".." ∉ down → (anchored = true → up = 0) →
      ∃ up' down', ss.foldl (push anchored) (down ++ List.replicate up "..")
        = down' ++ List.replicate up' ".." ∧ ".." ∉ down' ∧ (anchored = true → up' = 0) := by
    induction ss with
    | nil =>
      intro up down hdown hup
      exact ⟨up, down, rfl, hdown, hup⟩
    | cons s ss ih =>
      intro up down hdown hup
      obtain ⟨up', down', hpush, hdown', hup'⟩ := exists_push hdown hup s
      rw [List.foldl_cons, hpush]
      exact ih up' down' hdown' hup'
  obtain ⟨up, down, hfold, hdown, hup⟩ := hstack 0 [] (by simp) fun _ => rfl
  refine ⟨up, down.reverse, ?_, by simpa using hdown, hup⟩
  rw [List.replicate_zero, List.append_nil] at hfold
  rw [collapse, hfold, List.reverse_append, List.reverse_replicate]

lemma collapse_subset (anchored : Bool) (ss : List String) : collapse anchored ss ⊆ ss := by
  have hstack : ∀ stack, ss.foldl (push anchored) stack ⊆ ss ++ stack := by
    induction ss with
    | nil => simp
    | cons s ss ih =>
      intro stack
      have hpush : push anchored stack s ⊆ s :: stack := by
        unfold push
        split
        · next hs =>
          subst hs
          cases stack with
          | nil => cases anchored <;> simp
          | cons top rest =>
            dsimp only
            split <;> simp
        · simp
      intro t ht
      rcases List.mem_append.mp (ih _ ht) with ht | ht
      · simp [ht]
      · have := hpush ht
        simp at this ⊢
        tauto
  intro t ht
  simpa using hstack [] (List.mem_reverse.mp ht)

lemma WellFormed.normalize (h : p.WellFormed) : p.normalize.WellFormed :=
  fun s hs => h s (collapse_subset _ _ hs)

/-! ### Resolving below a normal path -/

lemma foldl_push_of_not_mem (h : ".." ∉ ss) (stack : List String) :
    ss.foldl (push anchored) stack = ss.reverse ++ stack := by
  induction ss generalizing stack with
  | nil => rfl
  | cons s ss ih =>
    rw [List.mem_cons, not_or] at h
    have hpush : push anchored stack s = s :: stack := if_neg (Ne.symm h.1)
    rw [List.foldl_cons, hpush, ih h.2, List.reverse_cons, List.append_assoc]
    rfl

/-- Below an anchor each `..` takes one segment back; above all of them it has no effect. -/
lemma foldl_push_replicate (up : Nat) {stack : List String} (h : ".." ∉ stack) :
    (List.replicate up "..").foldl (push true) stack = stack.drop up := by
  induction up generalizing stack with
  | zero => rfl
  | succ up ih =>
    rw [List.replicate_succ, List.foldl_cons]
    cases stack with
    | nil => exact (ih h).trans (by simp)
    | cons top rest =>
      rw [List.mem_cons, not_or] at h
      have hpush : push true (top :: rest) ".." = rest := by
        simp [push, Ne.symm h.1]
      rw [hpush, ih h.2, List.drop_succ_cons]

/-- A relative path in normal form, seen from a normal absolute path: up, then down. -/
theorem collapse_append {kept down : List String} (hkept : ".." ∉ kept) (hdown : ".." ∉ down)
    (up : Nat) : collapse true (kept ++ (List.replicate up ".." ++ down))
      = kept.take (kept.length - up) ++ down := by
  rw [collapse, List.foldl_append, List.foldl_append, foldl_push_of_not_mem hkept, List.append_nil,
    foldl_push_replicate up (by simpa using hkept), foldl_push_of_not_mem hdown,
    List.reverse_append, List.reverse_reverse, List.reverse_drop, List.reverse_reverse,
    List.length_reverse]

end Bundler.Path
