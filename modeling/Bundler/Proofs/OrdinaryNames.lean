import Bundler.ModuleName
import Bundler.Path.Resolve
import Bundler.Proofs.DirectoryTexts
import Bundler.Proofs.Places

/-!
# Names that end in an ordinary segment

A name whose last segment is neither missing nor made of dots stands for something in a directory.
Its canonical name is the text of that directory followed by the last segment, with an extension if
it has none; so the directory and the last segment can be found apart from each other.
-/

namespace Bundler.ModuleName

open Bundler.Path Text

variable {name referrer tail : String} {options : Options} {q : Path}

/-- The characters of a name with forward slashes. -/
def forward (name : String) : List Char := swap '\\' '/' name.toList

/-- The last segment is not missing and stands neither for a directory nor for the one above it. -/
def IsOrdinary (name : String) : Prop :=
  isSegment (afterLast '/' (forward name)) = true ∧ afterLast '/' (forward name) ≠ ['.', '.']

instance (name : String) : Decidable (IsOrdinary name) := inferInstanceAs (Decidable (_ ∧ _))

/-- The last segment of a name. -/
def lastOf (name : String) : String := String.ofList (afterLast '/' (forward name))

/-- The directory of what a name stands for, seen from the module that refers to it. -/
def placeOf (name referrer : String) : Path :=
  ((if isRelative (forward name) then directoryOf referrer else ⟨.relative, []⟩).append
    (ofChars (throughLast '/' (forward name)))).normalize

/-- The name of what is called `tail` in a directory. -/
def below (q : Path) (tail : String) : String := String.ofList (directoryText q) ++ tail

@[simp] lemma toList_below (q : Path) (tail : String) :
    (below q tail).toList = directoryText q ++ tail.toList := by
  simp [below]

/-! ### Canonical names -/

lemma backslash_not_mem_forward (name : String) : '\\' ∉ forward name := by
  intro h
  obtain ⟨c, -, hc⟩ := List.mem_map.mp h
  split at hc
  · simp at hc
  · contradiction

/-- The path of a name ends in its last segment. -/
lemma ofChars_forward (h : IsOrdinary name) : ofChars (forward name)
    = (ofChars (throughLast '/' (forward name))).append ⟨.relative, [lastOf name]⟩ := by
  have hslash := not_mem_afterLast '/' (forward name)
  have hhead : (afterLast '/' (forward name)).head? ≠ some '/' :=
    fun hhead => hslash (List.mem_of_mem_head? (by rw [hhead]; rfl))
  have hlast : (ofChars (afterLast '/' (forward name))) = ⟨.relative, [lastOf name]⟩ := by
    simp [ofChars, anchorOf_eq_relative_iff.mpr hhead, split_of_not_mem hslash, h.1, lastOf]
  rw [← hlast, ← ofChars_append (isDirectoryText_throughLast _) hhead, throughLast_append_afterLast]

lemma lastOf_ne_up (h : IsOrdinary name) : lastOf name ≠ ".." :=
  fun heq => h.2 (by simpa [lastOf] using congrArg String.toList heq)

/-- A segment that is not `..` stays behind the normal form of what it is seen from. -/
lemma normalize_append_segment {s : String} (hs : s ≠ "..") (p : Path) :
    (p.append ⟨.relative, [s]⟩).normalize = ⟨p.anchor, p.normalize.segments ++ [s]⟩ := by
  simp [append, Path.normalize, isAbsolute, collapse_concat_of_ne hs]

/-- The normal form of a name is its last segment in its directory. -/
lemma normalize_eq_below (h : IsOrdinary name) (referrer : String) :
    normalize name referrer = below (placeOf name referrer) (lastOf name) := by
  unfold normalize placeOf
  dsimp only
  rw [← forward, ofChars_forward h, ← append_assoc, normalize_append_segment (lastOf_ne_up h), text,
    if_neg (by simp), ← String.toList_inj, toList_text_concat, toList_below]
  rfl

lemma hasExtension_below (q : Path) (tail : String) :
    hasExtension (below q tail) = hasExtension tail := by
  rw [hasExtension, toList_below, (isDirectoryText_directoryText q).afterLast_append, hasExtension]

/-- Whether a name is completed does not depend on its directory. -/
lemma complete_below (q : Path) (tail : String) (options : Options) :
    complete (below q tail) options = (complete tail options).map (below q) := by
  unfold complete
  rw [hasExtension_below]
  split
  · rfl
  · cases extension options with
    | error failure => rfl
    | ok e => simp [Except.map, below, String.append_assoc]

lemma seenFrom_text (name referrer : String) :
    seenFrom name (.text referrer) = .ok (normalize name referrer) := by
  unfold seenFrom
  split
  · have hreferrer : referrerText (.text referrer) = .ok referrer := by
      unfold referrerText
      split
      · next hfalsy =>
        have hempty : referrer = "" := by simpa [Value.truthy, Scalar.truthy] using hfalsy
        rw [hempty]
      · rfl
    rw [hreferrer]
    rfl
  · next hrelative => simp [normalize, hrelative]

/-- The canonical name is the completed name. -/
lemma canonical_of_seenFrom {referrer : Value} {seen : String}
    (h : seenFrom name referrer = .ok seen) (options : Options) :
    canonical name referrer options = complete seen options := by
  rw [canonical, h]
  simp only [bind, Except.bind]

/-- The canonical name of a name that ends in an ordinary segment. -/
theorem canonical_text (h : IsOrdinary name) (referrer : String) (options : Options) :
    canonical name (.text referrer) options
      = (complete (lastOf name) options).map (below (placeOf name referrer)) := by
  rw [canonical_of_seenFrom (seenFrom_text name referrer), ← complete_below, ← normalize_eq_below h]

/-! ### Names in directories -/

/-- The path of a name in a directory. -/
lemma ofString_below (hq : q.WellFormed) (htail : tail.toList.head? ≠ some '/') :
    Path.ofString (below q tail) = q.append (.ofString tail) := by
  rw [Path.ofString, toList_below, ofChars_append (isDirectoryText_directoryText q) htail,
    ofChars_directoryText hq, Path.ofString]

lemma backslash_not_mem_directoryText (hq : ∀ s ∈ q.segments, '\\' ∉ s.toList) :
    '\\' ∉ directoryText q := by
  intro hmem
  rcases List.mem_append.mp hmem with hanchor | hsegments
  · cases hanchor' : q.anchor <;> simp [hanchor', anchorText] at hanchor
  · obtain ⟨s, hs, hmem⟩ := List.mem_flatMap.mp hsegments
    rcases List.mem_append.mp hmem with hmem | hslash
    · exact hq s hs hmem
    · simp at hslash

lemma backslash_not_mem_text (hq : ∀ s ∈ q.segments, '\\' ∉ s.toList) : '\\' ∉ q.text.toList := by
  obtain ⟨anchor, ss⟩ := q
  rcases List.eq_nil_or_concat' ss with rfl | ⟨ss, s, rfl⟩
  · cases anchor <;> decide
  · rw [toList_text_concat, List.mem_append, not_or]
    exact ⟨backslash_not_mem_directoryText fun t ht => hq t (List.mem_append_left _ ht), hq s (by simp)⟩

/-- A path without backslashes is written with forward slashes. -/
lemma slashed_text (hq : ∀ s ∈ q.segments, '\\' ∉ s.toList) : slashed q.text = q.text := by
  rw [slashed, swap_of_not_mem (backslash_not_mem_text hq), String.ofList_toList]

/-- What a module in a directory refers to is seen from there, unless the rest of its name leads on
to another directory. -/
lemma directoryOf_below (hq : q.WellFormed) (hplain : ∀ s ∈ q.segments, '\\' ∉ s.toList)
    (htail : (forward tail).head? ≠ some '/') :
    directoryOf (below q tail) = q.append (ofChars (throughLast '/' (forward tail))) := by
  have hhead := head?_throughLast_ne htail
  have hforward : swap '\\' '/' (below q tail).toList = directoryText q ++ forward tail := by
    rw [toList_below, forward, swap, List.map_append, ← swap, ← swap,
      swap_of_not_mem (backslash_not_mem_directoryText hplain)]
  rw [directoryOf, hforward, (isDirectoryText_directoryText q).throughLast_append,
    ofChars_append (isDirectoryText_directoryText q) hhead, ofChars_directoryText hq]

end Bundler.ModuleName
