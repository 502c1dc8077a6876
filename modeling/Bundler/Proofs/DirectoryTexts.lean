import Mathlib.Data.List.Induction
import Bundler.Proofs.Paths

/-!
# The text up to the last slash

A text that is empty or ends in a slash writes a directory: whatever follows is seen from there.
Every path has a text of that kind, and the text of a path with a last segment is the one of its
directory followed by that segment.
-/

namespace Bundler.Path

open Text

variable {p : Path} {pre cs ds : List Char} {ss : List String} {s : String}

/-! ### Directory texts -/

/-- The text is empty or ends in a slash. -/
def IsDirectoryText (pre : List Char) : Prop := pre = [] ∨ ∃ ds, pre = ds ++ ['/']

lemma isDirectoryText_throughLast (cs : List Char) : IsDirectoryText (throughLast '/' cs) :=
  throughLast_eq '/' cs

lemma IsDirectoryText.append (hpre : IsDirectoryText pre) (hcs : IsDirectoryText cs) :
    IsDirectoryText (pre ++ cs) := by
  rcases hcs with rfl | ⟨ds, rfl⟩
  · rwa [List.append_nil]
  · exact Or.inr ⟨pre ++ ds, by simp⟩

lemma IsDirectoryText.afterLast_append (hpre : IsDirectoryText pre) (cs : List Char) :
    afterLast '/' (pre ++ cs) = afterLast '/' cs := by
  rcases hpre with rfl | ⟨ds, rfl⟩
  · rfl
  · rw [List.append_assoc, List.singleton_append, afterLast_append_sep]

lemma IsDirectoryText.throughLast_append (hpre : IsDirectoryText pre) (cs : List Char) :
    throughLast '/' (pre ++ cs) = pre ++ throughLast '/' cs := by
  rcases hpre with rfl | ⟨ds, rfl⟩
  · rfl
  · simp [throughLast_append_sep]

lemma head?_throughLast_ne (h : cs.head? ≠ some '/') :
    (throughLast '/' cs).head? ≠ some '/' := by
  intro hhead
  apply h
  rw [← throughLast_append_afterLast '/' cs, List.head?_append, hhead]
  rfl

lemma anchorOf_append_slash (hcs : cs.head? ≠ some '/') (ds : List Char) :
    anchorOf (ds ++ '/' :: cs) = anchorOf (ds ++ ['/']) := by
  match ds with
  | [] =>
    cases cs with
    | nil => rfl
    | cons c cs =>
      have hc : c ≠ '/' := by simpa using hcs
      simp [anchorOf, hc]
  | [d] =>
    cases cs with
    | nil => rfl
    | cons c cs =>
      have hc : c ≠ '/' := by simpa using hcs
      by_cases hd : d = '/' <;> simp [anchorOf, hc, hd]
  | d :: d' :: ds =>
    by_cases hd : d = '/'
    · by_cases hd' : d' = '/'
      · subst hd hd'
        cases ds with
        | nil => rfl
        | cons d'' ds =>
          by_cases hd'' : d'' = '/' <;> simp [anchorOf, hd'']
      · simp [anchorOf, hd, hd']
    · simp [anchorOf, hd]

/-- What follows the text of a directory is seen from there. -/
theorem ofChars_append (hpre : IsDirectoryText pre) (hcs : cs.head? ≠ some '/') :
    ofChars (pre ++ cs) = (ofChars pre).append (ofChars cs) := by
  have hrelative : (ofChars cs).isAbsolute = false := by
    simp [isAbsolute, ofChars, anchorOf_eq_relative_iff.mpr hcs]
  have happend : (ofChars pre).append (ofChars cs)
      = ⟨(ofChars pre).anchor, (ofChars pre).segments ++ (ofChars cs).segments⟩ := by
    simp [append, hrelative]
  rw [happend]
  rcases hpre with rfl | ⟨ds, rfl⟩
  · have hanchor : anchorOf cs = .relative := anchorOf_eq_relative_iff.mpr hcs
    have hnil : ofChars [] = ⟨.relative, []⟩ := rfl
    rw [hnil, List.nil_append, List.nil_append, ← hanchor]
    rfl
  · rw [Path.mk.injEq]
    constructor
    · rw [List.append_assoc, List.singleton_append]
      exact anchorOf_append_slash hcs ds
    · simp [ofChars, split_append_cons, isSegment]

/-! ### The directory text of a path -/

/-- The text of a path as a directory. -/
def directoryText (p : Path) : List Char :=
  (anchorText p.anchor).toList ++ p.segments.flatMap fun s => s.toList ++ ['/']

lemma directoryText_concat (anchor : Anchor) (ss : List String) (s : String) :
    directoryText ⟨anchor, ss ++ [s]⟩ = directoryText ⟨anchor, ss⟩ ++ (s.toList ++ ['/']) := by
  simp [directoryText]

lemma isDirectoryText_directoryText (p : Path) : IsDirectoryText (directoryText p) := by
  obtain ⟨anchor, ss⟩ := p
  induction ss using List.reverseRecOn with
  | nil =>
    cases anchor with
    | relative => exact Or.inl rfl
    | root => exact Or.inr ⟨[], rfl⟩
    | doubleRoot => exact Or.inr ⟨['/'], rfl⟩
  | append_singleton ss s ih =>
    rw [directoryText_concat]
    exact ih.append (Or.inr ⟨_, rfl⟩)

lemma IsSegmentText.head?_ne (hs : IsSegmentText s) (cs : List Char) :
    (s.toList ++ cs).head? ≠ some '/' := by
  obtain ⟨hsegment, hslash⟩ := hs
  cases h : s.toList with
  | nil => exact absurd h (isSegment_iff.mp hsegment).1
  | cons c rest =>
    rw [h, List.mem_cons, not_or] at hslash
    simpa using Ne.symm hslash.1

/-- A well-formed path is read from its directory text. -/
theorem ofChars_directoryText (h : p.WellFormed) : ofChars (directoryText p) = p := by
  obtain ⟨anchor, ss⟩ := p
  induction ss using List.reverseRecOn with
  | nil => cases anchor <;> rfl
  | append_singleton ss s ih =>
    have hs : IsSegmentText s := h s (by simp)
    have hss : WellFormed ⟨anchor, ss⟩ := fun t ht => h t (List.mem_append_left _ ht)
    have hlast : ofChars (s.toList ++ ['/']) = ⟨.relative, [s]⟩ := by
      have hanchor := anchorOf_eq_relative_iff.mpr (hs.head?_ne ['/'])
      have hempty : isSegment [] = false := rfl
      simp [ofChars, hanchor, split_append_sep hs.2, hs.1, hempty]
    rw [directoryText_concat, ofChars_append (isDirectoryText_directoryText _) (hs.head?_ne _),
      ih hss, hlast]
    rfl

/-- The text of a path ends in its last segment. -/
lemma toList_text_concat (anchor : Anchor) (ss : List String) (s : String) :
    (text ⟨anchor, ss ++ [s]⟩).toList = directoryText ⟨anchor, ss⟩ ++ s.toList := by
  have hjoin : join '/' ((ss ++ [s]).map String.toList)
      = (ss.flatMap fun s => s.toList ++ ['/']) ++ s.toList := by
    induction ss with
    | nil => simp [join]
    | cons first ss ih =>
      cases ss with
      | nil => simp [join]
      | cons next ss => simpa [join] using ih
  rw [text, if_neg (by simp), String.toList_append, toList_intercalate_slash, hjoin,
    directoryText, List.append_assoc]

/-! ### Texts that go on -/

/-- What follows the text of a path does not change where it starts. -/
lemma anchorOf_text_append (hp : p.WellFormed) (hne : p.segments ≠ []) (cs : List Char) :
    anchorOf (p.text.toList ++ cs) = p.anchor := by
  obtain ⟨anchor, ss⟩ := p
  have hne' : ss ≠ [] := hne
  rw [text, if_neg (by simp [hne']), String.toList_append, toList_intercalate_slash,
    List.append_assoc]
  apply anchorOf_append
  cases ss with
  | nil => exact absurd rfl hne'
  | cons s ss =>
    have hs : IsSegmentText s := hp s List.mem_cons_self
    cases ss with
    | nil => exact hs.head?_ne cs
    | cons next ss =>
      rw [List.map_cons, List.map_cons, join, List.append_assoc]
      exact hs.head?_ne _

/-- A path goes on after its text where a slash follows. -/
lemma ofString_text_append {suffix : String} (hp : p.WellFormed) (hne : p.segments ≠ [])
    (hsuffix : suffix = "" ∨ ∃ cs, suffix.toList = '/' :: cs) :
    ofString (p.text ++ suffix) = ⟨p.anchor, p.segments ++ (ofString suffix).segments⟩ := by
  have hself := ofString_text hp
  rcases hsuffix with rfl | ⟨cs, hcs⟩
  · have hempty : (ofString "").segments = [] := rfl
    rw [String.append_empty, hself, hempty, List.append_nil]
  · have hsegments : (ofString p.text).segments = p.segments := congrArg Path.segments hself
    rw [ofString, Path.mk.injEq]
    constructor
    · rw [String.toList_append]
      exact anchorOf_text_append hp hne suffix.toList
    · rw [← hsegments]
      simp [ofString, ofChars, hcs, split_append_cons, isSegment]

end Bundler.Path
