import Mathlib.Data.List.Induction
import Bundler.Path.Resolve
import Bundler.Proofs.Paths

/-!
# Places

The place of an absolute path is the way down from the root that its normal form writes. What a
relative path leads to depends on the place of the directory it is seen from and on nothing else,
and resolving its `..` beforehand makes no difference, even where it goes up beyond the root.
-/

namespace Bundler.Path

variable {p p' q : Path} {ss : List String} {s : String} {anchored : Bool}

/-! ### Resolving in steps -/

lemma append_relative (p : Path) (h : q.isAbsolute = false) :
    p.append q = ⟨p.anchor, p.segments ++ q.segments⟩ := by
  simp [append, h]

lemma append_assoc (p q r : Path) : (p.append q).append r = p.append (q.append r) := by
  by_cases hr : r.isAbsolute = true
  · rw [append_absolute _ hr, append_absolute _ hr, append_absolute _ hr]
  rw [Bool.not_eq_true] at hr
  by_cases hq : q.isAbsolute = true
  · rw [append_absolute p hq, append_absolute p (isAbsolute_append r hq)]
  rw [Bool.not_eq_true] at hq
  have hqr : (⟨q.anchor, q.segments ++ r.segments⟩ : Path).isAbsolute = false := hq
  rw [append_relative p hq, append_relative _ hr, append_relative q hr, append_relative p hqr,
    List.append_assoc]

/-- A path that goes on goes on from wherever it is seen. -/
lemma append_segments (p q : Path) (rest : List String) : p.append ⟨q.anchor, q.segments ++ rest⟩
    = ⟨(p.append q).anchor, (p.append q).segments ++ rest⟩ := by
  by_cases hq : q.isAbsolute = true
  · rw [append_absolute p hq, append_absolute p (q := ⟨q.anchor, q.segments ++ rest⟩) hq]
  · rw [Bool.not_eq_true] at hq
    rw [append_relative p hq, append_relative p (q := ⟨q.anchor, q.segments ++ rest⟩) hq,
      List.append_assoc]

lemma collapse_concat (anchored : Bool) (ss : List String) (s : String) :
    collapse anchored (ss ++ [s]) = (push anchored (collapse anchored ss).reverse s).reverse := by
  simp [collapse]

lemma collapse_concat_of_ne (h : s ≠ "..") :
    collapse anchored (ss ++ [s]) = collapse anchored ss ++ [s] := by
  simp [collapse_concat, push, h]

/-- Segments after some others may be resolved beforehand, unless `..` is dropped there. -/
lemma foldl_push_collapse (anchored : Bool) (stack ss : List String)
    (h : anchored = true → stack = []) :
    (collapse anchored ss).foldl (push true) stack = ss.foldl (push true) stack := by
  induction ss using List.reverseRecOn with
  | nil => rfl
  | append_singleton ss s ih =>
    rw [List.foldl_concat, ← ih]
    by_cases hs : s = ".."
    · subst hs
      rw [collapse_concat]
      rcases List.eq_nil_or_concat' (collapse anchored ss) with hnil | ⟨kept, top, htop⟩
      · rw [hnil]
        cases anchored with
        | true =>
          rw [h rfl]
          rfl
        | false => rfl
      · rw [htop]
        by_cases hup : top = ".."
        · subst hup
          simp [push]
        · simp [push, hup]
    · rw [collapse_concat_of_ne hs, List.foldl_concat]

/-- In a relative path `..` is kept in front. -/
lemma foldl_push_up (n : Nat) :
    (List.replicate n "..").foldl (push false) [] = List.replicate n ".." := by
  induction n with
  | zero => rfl
  | succ n ih =>
    rw [List.replicate_succ', List.foldl_concat, ih, ← List.replicate_succ']
    cases n <;> rfl

/-- A normal form has nothing to resolve. -/
lemma collapse_of_isNormal (h : IsNormal anchored ss) : collapse anchored ss = ss := by
  obtain ⟨up, down, rfl, hdown, hup⟩ := h
  cases anchored with
  | true =>
    rw [hup rfl]
    exact collapse_append List.not_mem_nil hdown 0
  | false =>
    rw [collapse, List.foldl_append, foldl_push_up, foldl_push_of_not_mem hdown,
      List.reverse_append, List.reverse_reverse, List.reverse_replicate]

lemma normalize_of_isNormal (h : IsNormal p.isAbsolute p.segments) : p.normalize = p := by
  rw [normalize, collapse_of_isNormal h]

@[simp] lemma normalize_normalize (p : Path) : p.normalize.normalize = p.normalize :=
  normalize_of_isNormal (isNormal_collapse _ _)

lemma normalize_eq_self (h : ".." ∉ p.segments) : p.normalize = p :=
  normalize_of_isNormal (.of_not_mem h)

/-! ### The place of a path -/

/-- The way down from the root that the normal form of a path writes. -/
def place (p : Path) : List String := p.normalize.segments

lemma not_mem_place (hp : p.isAbsolute = true) : ".." ∉ p.place := by
  have hnormal := isNormal_collapse p.isAbsolute p.segments
  rw [hp] at hnormal
  rw [place, normalize, hp]
  exact hnormal.not_mem

@[simp] lemma place_normalize (p : Path) : p.normalize.place = p.place := by
  rw [place, normalize_normalize, place]

lemma place_append (hp : p.isAbsolute = true) (hq : q.isAbsolute = false) :
    (p.append q).place = (q.segments.foldl (push true) p.place.reverse).reverse := by
  have happend : (⟨p.anchor, p.segments ++ q.segments⟩ : Path).isAbsolute = true := hp
  rw [append_relative p hq, place, normalize, happend, place, normalize, hp]
  simp [collapse]

/-- Segments without `..` lead further down. -/
lemma place_concat (p : Path) (h : ".." ∉ ss) :
    (⟨p.anchor, p.segments ++ ss⟩ : Path).place = p.place ++ ss := by
  have hsame : (⟨p.anchor, p.segments ++ ss⟩ : Path).isAbsolute = p.isAbsolute := rfl
  simp [place, normalize, hsame, collapse, foldl_push_of_not_mem h]

/-- A path leads to the same place from directories that are the same place. -/
lemma place_append_congr (hp : p.isAbsolute = true) (hp' : p'.isAbsolute = true)
    (h : p.place = p'.place) (q : Path) : (p.append q).place = (p'.append q).place := by
  by_cases hq : q.isAbsolute = true
  · rw [append_absolute p hq, append_absolute p' hq]
  · rw [Bool.not_eq_true] at hq
    rw [place_append hp hq, place_append hp' hq, h]

/-- A path leads to the same place as its normal form. -/
lemma place_append_normalize (hp : p.isAbsolute = true) (q : Path) :
    (p.append q.normalize).place = (p.append q).place := by
  by_cases hq : q.isAbsolute = true
  · rw [append_absolute p hq, append_absolute p (q := q.normalize) hq, place_normalize]
  · rw [Bool.not_eq_true] at hq
    rw [place_append hp hq, place_append hp (q := q.normalize) hq, normalize, hq,
      foldl_push_collapse false _ _ (by simp)]

/-- It does not matter whether a path is normalized before it is seen from a place. -/
lemma normalize_append_normalize (hp : p.isAbsolute = true) (q : Path) :
    (p.append q.normalize).normalize = (p.append q).normalize := by
  have hanchor : (p.append q.normalize).anchor = (p.append q).anchor := by
    rw [append, append, isAbsolute_normalize]
    split <;> rfl
  exact congrArg₂ Path.mk hanchor (place_append_normalize hp q)

/-- It does not matter either whether the place is given by a normal path. -/
lemma normalize_normalize_append (hp : p.isAbsolute = true) (q : Path) :
    (p.normalize.append q).normalize = (p.append q).normalize := by
  have hanchor : (p.normalize.append q).anchor = (p.append q).anchor := by
    rw [append, append]
    split <;> rfl
  exact congrArg₂ Path.mk hanchor
    (place_append_congr (p := p.normalize) hp hp (place_normalize p) q)

end Bundler.Path
