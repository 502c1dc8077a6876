import Bundler.ModuleName
import Bundler.Proofs.DirectoryTexts

/-!
# The paths of canonical names

The canonical name of a module begins with the text of a path in normal form, its stem, unless it is
nothing but an extension behind an anchor. What follows the stem is settled by the options: it is
nothing, or what follows the first slash of the extension.

Where the extension holds no slash, the name is the text of its stem. Exceptions stand for
directories, which are never read: for the root, or for the directory that names are seen from,
where the whole name is an extension such as `.`.
-/

namespace Bundler.ModuleName

open Bundler.Path

variable {name c : String} {referrer : Value} {options : Options} {p : Path}

/-! ### Names without an extension -/

lemma exists_path_normalize (name referrer : String) :
    ∃ p : Path, p.WellFormed ∧ IsNormal p.isAbsolute p.segments ∧
      normalize name referrer = text p := by
  refine ⟨_, ?_, ?_, rfl⟩
  · apply WellFormed.normalize
    apply WellFormed.append _ (wellFormed_ofChars _)
    split
    · exact wellFormed_ofChars _
    · simp [WellFormed]
  · exact isNormal_collapse _ _

/-- A name seen from a referrer of any kind is seen from some text. -/
lemma seenFrom_ok (h : seenFrom name referrer = .ok c) : ∃ r, normalize name r = c := by
  unfold seenFrom at h
  split at h
  · cases href : referrerText referrer with
    | error failure =>
      rw [href] at h
      cases h
    | ok r =>
      rw [href] at h
      cases h
      exact ⟨r, rfl⟩
  · cases h
    exact ⟨"", rfl⟩

lemma exists_path_seenFrom (h : seenFrom name referrer = .ok c) :
    ∃ p : Path, p.WellFormed ∧ IsNormal p.isAbsolute p.segments ∧ c = text p := by
  obtain ⟨r, rfl⟩ := seenFrom_ok h
  exact exists_path_normalize name r

/-- Only a name without an extension gets the one of the options. -/
lemma complete_ok (h : complete name options = .ok c) :
    ∃ e, c = name ++ e ∧ (hasExtension name = true ∧ e = "" ∨ extension options = .ok e) := by
  unfold complete at h
  split at h
  · next hhas =>
    cases h
    exact ⟨"", String.append_empty.symm, Or.inl ⟨hhas, rfl⟩⟩
  · cases he : extension options with
    | error failure => rw [he] at h; cases h
    | ok e =>
      rw [he] at h
      cases h
      exact ⟨e, rfl, Or.inr rfl⟩

/-! ### Names with an extension -/

lemma isSegmentText_append {s e : String} (hs : IsSegmentText s) (he : '/' ∉ e.toList) :
    IsSegmentText (s ++ e) := by
  obtain ⟨hsegment, hslash⟩ := hs
  obtain ⟨hne, hdot⟩ := isSegment_iff.mp hsegment
  rw [IsSegmentText, isSegment_iff, String.toList_append]
  refine ⟨⟨by simp [hne], ?_⟩, by simp [hslash, he]⟩
  intro heq
  rcases List.append_eq_singleton_iff.mp heq with ⟨hs, -⟩ | ⟨hs, -⟩
  · exact hne hs
  · exact hdot hs

/-- A segment that is not `..` does not become `..` when it gets longer. -/
lemma append_ne_up {s e : String} (hs : IsSegmentText s) (hne : s ≠ "..") : s ++ e ≠ ".." := by
  obtain ⟨hempty, hdot⟩ := isSegment_iff.mp hs.1
  intro heq
  have hchars : s.toList ++ e.toList = ['.', '.'] := by
    rw [← String.toList_append, heq]
    rfl
  rcases List.append_eq_cons_iff.mp hchars with ⟨hs, -⟩ | ⟨rest, hs, hrest⟩
  · exact hempty hs
  · rcases List.append_eq_singleton_iff.mp hrest.symm with ⟨rfl, -⟩ | ⟨rfl, -⟩
    · exact hdot hs
    · exact hne (String.toList_inj.mp hs)

lemma isNormal_append_last {anchored : Bool} {ss : List String} {s : String} (e : String)
    (h : IsNormal anchored (ss ++ [s])) (hs : IsSegmentText s) :
    IsNormal anchored (ss ++ [s ++ e]) := by
  obtain ⟨up, down, hsplit, hdown, hup⟩ := h
  rcases List.eq_nil_or_concat' down with rfl | ⟨down, last, rfl⟩
  · rw [List.append_nil] at hsplit
    cases up with
    | zero => simp at hsplit
    | succ up =>
      rw [List.replicate_succ'] at hsplit
      obtain ⟨rfl, -⟩ := List.append_inj' hsplit rfl
      by_cases hlonger : s ++ e = ".."
      · refine ⟨up + 1, [], ?_, by simp, hup⟩
        rw [hlonger, List.append_nil, List.replicate_succ']
      · refine ⟨up, [s ++ e], rfl, by simpa using Ne.symm hlonger, ?_⟩
        intro hanchored
        exact absurd (hup hanchored) (by simp)
  · rw [← List.append_assoc] at hsplit
    obtain ⟨rfl, hlast⟩ := List.append_inj' hsplit rfl
    obtain rfl : s = last := by simpa using hlast
    rw [List.mem_append, not_or] at hdown
    have hne : s ≠ ".." := by
      rintro rfl
      simp at hdown
    refine ⟨up, down ++ [s ++ e], by simp, ?_, hup⟩
    simp [hdown.1, Ne.symm (append_ne_up hs hne)]

/-- A text without a slash after the text of a path makes its last segment longer. -/
lemma text_append_last {anchor : Anchor} {ss : List String} {s e : String} :
    Path.text ⟨anchor, ss ++ [s ++ e]⟩ = Path.text ⟨anchor, ss ++ [s]⟩ ++ e := by
  unfold Path.text
  rw [if_neg (by simp), if_neg (by simp), String.append_assoc]
  congr 1
  cases ss with
  | nil => simp
  | cons first ss =>
    rw [String.intercalate_append_of_ne_nil (by simp) (by simp),
      String.intercalate_append_of_ne_nil (by simp) (by simp)]
    simp [String.append_assoc]

/-! ### Stems -/

/-- An extension up to its first slash. -/
def beforeSlash (e : String) : String := String.ofList (e.toList.takeWhile (· ≠ '/'))

/-- An extension from its first slash on. -/
def fromSlash (e : String) : String := String.ofList (e.toList.dropWhile (· ≠ '/'))

lemma beforeSlash_append_fromSlash (e : String) : beforeSlash e ++ fromSlash e = e := by
  rw [← String.toList_inj, String.toList_append, beforeSlash, fromSlash, String.toList_ofList,
    String.toList_ofList, List.takeWhile_append_dropWhile]

lemma slash_not_mem_beforeSlash (e : String) : '/' ∉ (beforeSlash e).toList := by
  intro hmem
  have hall : (e.toList.takeWhile (· ≠ '/')).all (· ≠ '/') = true := List.all_takeWhile
  rw [beforeSlash, String.toList_ofList] at hmem
  simpa using List.all_eq_true.mp hall '/' hmem

lemma fromSlash_eq (e : String) : fromSlash e = "" ∨ ∃ cs, (fromSlash e).toList = '/' :: cs := by
  cases hchars : e.toList.dropWhile (· ≠ '/') with
  | nil => exact Or.inl (congrArg String.ofList hchars)
  | cons first cs =>
    have hne : e.toList.dropWhile (· ≠ '/') ≠ [] := by rw [hchars]; exact List.cons_ne_nil _ _
    have hfirst := List.head_dropWhile_not (· ≠ '/') hne
    simp only [hchars, List.head_cons] at hfirst
    obtain rfl : first = '/' := by simpa using hfirst
    exact Or.inr ⟨cs, by rw [fromSlash, hchars, String.toList_ofList]⟩

lemma fromSlash_of_not_mem {e : String} (he : '/' ∉ e.toList) : fromSlash e = "" := by
  rcases fromSlash_eq e with h | ⟨cs, hcs⟩
  · exact h
  · exfalso
    apply he
    rw [← beforeSlash_append_fromSlash e, String.toList_append, hcs]
    simp

/-- The name is the text of a path in normal form, followed by nothing or by what follows the first
slash of the extension. -/
structure IsStem (options : Options) (q : Path) (suffix c : String) : Prop where
  wellFormed : q.WellFormed
  normal : IsNormal q.isAbsolute q.segments
  ne_nil : q.segments ≠ []
  text : c = q.text ++ suffix
  suffix : suffix = "" ∨ ∃ e, extension options = .ok e ∧ suffix = fromSlash e

/-- Whatever the extension, a canonical name has a stem, or it is an extension behind an anchor. -/
theorem canonical_stem (h : canonical name referrer options = .ok c) :
    (∃ e anchor, extension options = .ok e ∧ c = anchorText anchor ++ e) ∨
      ∃ q suffix, IsStem options q suffix c := by
  unfold canonical at h
  cases hseen : seenFrom name referrer with
  | error failure => rw [hseen] at h; cases h
  | ok n =>
    rw [hseen] at h
    obtain ⟨⟨anchor, ss⟩, hwell, hnormal, rfl⟩ := exists_path_seenFrom hseen
    obtain ⟨e, rfl, he⟩ := complete_ok h
    rcases List.eq_nil_or_concat' ss with rfl | ⟨ss, s, rfl⟩
    · left
      have htext : text ⟨anchor, []⟩ = anchorText anchor := by
        cases anchor <;> simp [text, Path.text, anchorText]
      rw [htext] at he ⊢
      rcases he with ⟨hhas, -⟩ | he
      · cases anchor <;> exact absurd hhas (by decide)
      · exact ⟨e, anchor, he, rfl⟩
    · right
      have htext : text ⟨anchor, ss ++ [s]⟩ = Path.text ⟨anchor, ss ++ [s]⟩ := by
        simp [text]
      have hs : IsSegmentText s := hwell s (by simp)
      rw [htext]
      rcases he with ⟨-, rfl⟩ | he
      · exact ⟨⟨anchor, ss ++ [s]⟩, "", hwell, hnormal, by simp, rfl, Or.inl rfl⟩
      · refine ⟨⟨anchor, ss ++ [s ++ beforeSlash e]⟩, fromSlash e, ?_,
          isNormal_append_last _ hnormal hs, by simp, ?_, Or.inr ⟨e, he, rfl⟩⟩
        · intro t ht
          rcases List.mem_append.mp ht with ht | ht
          · exact hwell t (by simp [ht])
          · rw [List.mem_singleton.mp ht]
            exact isSegmentText_append hs (slash_not_mem_beforeSlash e)
        · rw [text_append_last, String.append_assoc, beforeSlash_append_fromSlash]

/-- The path of a name goes on after its stem. -/
lemma IsStem.ofString {q : Path} {suffix : String} (h : IsStem options q suffix c) :
    ofString c = ⟨q.anchor, q.segments ++ (ofString suffix).segments⟩ := by
  rw [h.text]
  apply ofString_text_append h.wellFormed h.ne_nil
  rcases h.suffix with rfl | ⟨e, -, rfl⟩
  · exact Or.inl rfl
  · exact fromSlash_eq e

/-! ### Extensions without a slash -/

/-- Only the empty text and `.` are texts without a slash that are no segment. -/
lemma eq_of_not_isSegment {e : String} (h : ¬ isSegment e.toList = true) : e = "" ∨ e = "." := by
  rw [isSegment_iff, not_and_or, not_not, not_not] at h
  rcases h with h | h
  · exact Or.inl (String.toList_inj.mp h)
  · exact Or.inr (String.toList_inj.mp h)

/-- The name is the text of its path, which is in normal form. -/
def IsPlain (name : String) : Prop :=
  IsNormal (ofString name).isAbsolute (ofString name).segments ∧ (ofString name).segments ≠ [] ∧
    (ofString name).text = name

/-- A text without a slash behind an anchor is plain, unless it only says where it stands. -/
lemma isPlain_anchorText_append (anchor : Anchor) {e : String} (he : '/' ∉ e.toList) :
    IsPlain (anchorText anchor ++ e) ∨
      (ofString (anchorText anchor ++ e)).isAbsolute = true ∧
        (ofString (anchorText anchor ++ e)).normalize.segments = [] ∨
      anchor = .relative ∧ ofString (anchorText anchor ++ e) = ⟨.relative, []⟩ := by
  by_cases hsegment : isSegment e.toList = true
  · have hwell : WellFormed ⟨anchor, [e]⟩ := by
      intro t ht
      rw [List.mem_singleton.mp ht]
      exact ⟨hsegment, he⟩
    have hpath : Path.text ⟨anchor, [e]⟩ = anchorText anchor ++ e := by simp [Path.text]
    rw [← hpath, IsPlain, ofString_text hwell]
    by_cases hup : e = ".."
    · subst hup
      cases anchor with
      | relative => exact Or.inl ⟨⟨1, [], rfl, by simp, by simp⟩, by simp, rfl⟩
      | root => exact Or.inr (Or.inl ⟨rfl, rfl⟩)
      | doubleRoot => exact Or.inr (Or.inl ⟨rfl, rfl⟩)
    · exact Or.inl ⟨.of_not_mem (by simpa using Ne.symm hup), by simp, rfl⟩
  · rcases eq_of_not_isSegment hsegment with rfl | rfl <;> right <;> cases anchor with
    | relative => exact Or.inr ⟨rfl, rfl⟩
    | root => exact Or.inl ⟨rfl, rfl⟩
    | doubleRoot => exact Or.inl ⟨rfl, rfl⟩

/-- A canonical name is plain or stands for a directory: for the root, or, if it is nothing but an
extension, for the directory that names are seen from. -/
theorem canonical_path (h : canonical name referrer options = .ok c)
    (hextension : ∀ e, extension options = .ok e → '/' ∉ e.toList) :
    IsPlain c ∨ (ofString c).isAbsolute = true ∧ (ofString c).normalize.segments = [] ∨
      ofString c = ⟨.relative, []⟩ ∧ extension options = .ok c := by
  rcases canonical_stem h with ⟨e, anchor, he, rfl⟩ | ⟨q, suffix, hstem⟩
  · rcases isPlain_anchorText_append anchor (hextension e he) with hplain | hroot | ⟨rfl, hempty⟩
    · exact Or.inl hplain
    · exact Or.inr (Or.inl hroot)
    · refine Or.inr (Or.inr ⟨hempty, ?_⟩)
      rw [he]
      exact congrArg _ String.empty_append.symm
  · have hsuffix : suffix = "" := by
      rcases hstem.suffix with rfl | ⟨e, he, rfl⟩
      · rfl
      · exact fromSlash_of_not_mem (hextension e he)
    left
    rw [IsPlain, hstem.text, hsuffix, String.append_empty, ofString_text hstem.wellFormed]
    exact ⟨hstem.normal, hstem.ne_nil, rfl⟩

/-- The path of a canonical name is in normal form, unless it leads to the root. -/
lemma isNormal_of_canonical (h : canonical name referrer options = .ok c)
    (hextension : ∀ e, extension options = .ok e → '/' ∉ e.toList)
    (hroot : (ofString c).isAbsolute = true → (ofString c).normalize.segments ≠ []) :
    IsNormal (ofString c).isAbsolute (ofString c).segments := by
  rcases canonical_path h hextension with ⟨hnormal, -⟩ | ⟨habsolute, hempty⟩ | ⟨hempty, -⟩
  · exact hnormal
  · exact absurd hempty (hroot habsolute)
  · rw [hempty]
    exact .of_not_mem (by simp)

/-- Canonical names of the same path are equal, unless it leads to the root. -/
theorem canonical_inj {name' c' : String} {referrer' : Value}
    (h : canonical name referrer options = .ok c) (h' : canonical name' referrer' options = .ok c')
    (hextension : ∀ e, extension options = .ok e → '/' ∉ e.toList)
    (hroot : (ofString c).isAbsolute = true → (ofString c).normalize.segments ≠ [])
    (hpath : ofString c = ofString c') : c = c' := by
  have hcases := canonical_path h hextension
  have hcases' := canonical_path h' hextension
  rw [IsPlain, ← hpath] at hcases'
  rcases hcases with ⟨-, hne, htext⟩ | ⟨habsolute, hempty⟩ | ⟨hempty, he⟩
  · rcases hcases' with ⟨-, -, htext'⟩ | ⟨habsolute', hempty'⟩ | ⟨hempty', -⟩
    · exact htext.symm.trans htext'
    · exact absurd hempty' (hroot habsolute')
    · exact absurd (congrArg Path.segments hempty') hne
  · exact absurd hempty (hroot habsolute)
  · rcases hcases' with ⟨-, hne', -⟩ | ⟨habsolute', -⟩ | ⟨-, he'⟩
    · exact absurd (congrArg Path.segments hempty) hne'
    · rw [hempty] at habsolute'
      cases habsolute'
    · exact Except.ok.inj (he.symm.trans he')

end Bundler.ModuleName
