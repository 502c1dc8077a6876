import Bundler.Load.Source
import Bundler.Proofs.CanonicalNames
import Bundler.Proofs.OrdinaryNames

/-!
# Names of one file below two directories

A file has different names in sessions below different directories. `Counterparts` relates two such
names: they end alike, and the directories in front lead to the same place, each from its own base.
What counterparts refer to are counterparts again, unless a bare name is seen from two bases.
-/

namespace Bundler.ModuleName

open Bundler.Path Text

variable {name tail c c' : String} {options : Options} {q q' b b' : Path}
  {anchors : Anchor → Anchor → Prop}

/-! ### Names and their directories -/

/-- A directory in normal form whose text holds no backslash. -/
structure IsDirectory (q : Path) : Prop where
  wellFormed : q.WellFormed
  normal : IsNormal q.isAbsolute q.segments
  plain : ∀ s ∈ q.segments, '\\' ∉ s.toList

/-- The text does not lead to the root. -/
def IsTail (tail : String) : Prop := (forward tail).head? ≠ some '/'

/-- Names below two bases that end alike, in directories that are the same place; `anchors` tells
how the directories may start. -/
inductive Counterparts (anchors : Anchor → Anchor → Prop) (b b' : Path) : String → String → Prop where
  | below {q q' : Path} {tail : String} (hq : IsDirectory q) (hq' : IsDirectory q')
      (htail : IsTail tail) (hanchor : anchors q.anchor q'.anchor)
      (hplace : (b.append q).place = (b'.append q').place) :
      Counterparts anchors b b' (below q tail) (below q' tail)

lemma IsTail.head?_ne (h : IsTail tail) : tail.toList.head? ≠ some '/' := by
  intro hhead
  apply h
  rw [forward, swap, List.head?_map, hhead]
  rfl

lemma isSegmentText_lastOf (h : IsOrdinary name) :
    IsSegmentText (lastOf name) ∧ '\\' ∉ (lastOf name).toList := by
  rw [IsSegmentText, lastOf, String.toList_ofList]
  refine ⟨⟨h.1, not_mem_afterLast '/' _⟩, ?_⟩
  intro hmem
  apply backslash_not_mem_forward name
  rw [← throughLast_append_afterLast '/' (forward name)]
  exact List.mem_append_right _ hmem

/-- What comes of a segment does not lead to the root. -/
lemma isTail_of_complete {s : String} (hs : IsSegmentText s) (hbackslash : '\\' ∉ s.toList)
    (htail : complete s options = .ok tail) : IsTail tail := by
  obtain ⟨e, rfl, -⟩ := complete_ok htail
  obtain ⟨hsegment, hslash⟩ := hs
  rw [IsTail, forward, String.toList_append]
  cases hchars : s.toList with
  | nil => exact absurd hchars (isSegment_iff.mp hsegment).1
  | cons first rest =>
    rw [hchars, List.mem_cons, not_or] at hslash hbackslash
    simp [swap, Ne.symm hslash.1, Ne.symm hbackslash.1]

/-! ### Directories that names refer to -/

lemma backslash_not_mem_segments {cs : List Char} (h : '\\' ∉ cs) :
    ∀ s ∈ (ofChars cs).segments, '\\' ∉ s.toList := by
  intro s hs hmem
  obtain ⟨part, hpart, rfl⟩ := List.mem_map.mp hs
  rw [String.toList_ofList] at hmem
  exact h (mem_of_mem_split (List.mem_filter.mp hpart).1 hmem)

lemma backslash_not_mem_throughLast (name : String) :
    '\\' ∉ throughLast '/' (forward name) := fun hmem =>
  backslash_not_mem_forward name (by
    rw [← throughLast_append_afterLast '/' (forward name)]
    exact List.mem_append_left _ hmem)

/-- Joining and normalizing paths makes no backslashes. -/
lemma backslash_not_mem_append {p : Path} {cs : List Char}
    (hp : ∀ s ∈ p.segments, '\\' ∉ s.toList) (hcs : '\\' ∉ cs) :
    ∀ s ∈ (p.append (ofChars cs)).normalize.segments, '\\' ∉ s.toList := by
  intro s hs
  have hs := collapse_subset _ _ hs
  unfold append at hs
  split at hs
  · exact backslash_not_mem_segments hcs s hs
  · rcases List.mem_append.mp hs with hs | hs
    · exact hp s hs
    · exact backslash_not_mem_segments hcs s hs

/-- Whatever a name is seen from, its directory is in normal form. -/
lemma isDirectory_placeOf (name referrer : String) : IsDirectory (placeOf name referrer) := by
  have hwell : ∀ cs, (ofChars cs).WellFormed := wellFormed_ofChars
  have hname := backslash_not_mem_throughLast name
  unfold placeOf
  split
  · exact ⟨((hwell _).append (hwell _)).normalize, isNormal_collapse _ _,
      backslash_not_mem_append
        (backslash_not_mem_segments (backslash_not_mem_throughLast referrer)) hname⟩
  · exact ⟨WellFormed.normalize (WellFormed.append (fun _ => nofun) (hwell _)),
      isNormal_collapse _ _, backslash_not_mem_append (fun _ => nofun) hname⟩

/-- Canonical names hold no backslash, unless the extension does. -/
lemma backslash_not_mem_canonical {referrer : Value}
    (hextension : ∀ e, extension options = .ok e → '\\' ∉ e.toList)
    (h : canonical name referrer options = .ok c) : '\\' ∉ c.toList := by
  have htext : ∀ p : Path, (∀ s ∈ p.segments, '\\' ∉ s.toList) →
      '\\' ∉ (ModuleName.text p).toList := by
    intro p hp
    unfold ModuleName.text
    split
    · decide
    · exact backslash_not_mem_text hp
  have hnormalize : ∀ referrer, '\\' ∉ (normalize name referrer).toList := by
    intro referrer
    apply htext
    apply backslash_not_mem_append _ (backslash_not_mem_forward name)
    split
    · exact backslash_not_mem_segments (backslash_not_mem_throughLast referrer)
    · exact fun _ => nofun
  unfold canonical at h
  cases hseen : seenFrom name referrer with
  | error failure =>
    rw [hseen] at h
    cases h
  | ok seen =>
    simp only [hseen, bind, Except.bind] at h
    obtain ⟨r, rfl⟩ := seenFrom_ok hseen
    obtain ⟨e, rfl, he⟩ := complete_ok h
    rw [String.toList_append, List.mem_append, not_or]
    refine ⟨hnormalize r, ?_⟩
    rcases he with ⟨-, rfl⟩ | he
    · decide
    · exact hextension e he

/-- The name does not depend on a base: it starts with `./`, `../` or a slash. -/
def IsAnchored (name : String) : Prop :=
  isRelative (forward name) = true ∨ (forward name).head? = some '/'

instance (name : String) : Decidable (IsAnchored name) := inferInstanceAs (Decidable (_ ∨ _))

lemma isAbsolute_of_head? {cs : List Char} (h : cs.head? = some '/') :
    (ofChars (throughLast '/' cs)).isAbsolute = true := by
  cases cs with
  | nil => cases h
  | cons first cs =>
    obtain rfl : first = '/' := by simpa using h
    have hthrough := throughLast_append_sep '/' [] cs
    rw [List.nil_append, List.nil_append] at hthrough
    have hanchor : anchorOf ('/' :: throughLast '/' cs) ≠ .relative := by
      simp [anchorOf_eq_relative_iff]
    simpa [isAbsolute, ofChars, hthrough] using hanchor

lemma isAbsolute_of_head?_ne {cs : List Char} (h : cs.head? ≠ some '/') :
    (ofChars (throughLast '/' cs)).isAbsolute = false := by
  have hanchor := anchorOf_eq_relative_iff.mpr (head?_throughLast_ne h)
  simp [isAbsolute, ofChars, hanchor]

lemma head?_ne_of_isRelative {cs : List Char} (h : isRelative cs = true) : cs.head? ≠ some '/' := by
  unfold isRelative at h
  split at h <;> simp at h ⊢

/-- Seen from counterparts, the directory of a name is the same place. -/
lemma placeOf_of_counterparts {referrer referrer' : String} (hb : b.isAbsolute = true)
    (hb' : b'.isAbsolute = true) (habsolute : ∀ a ≠ Anchor.relative, anchors a a)
    (hname : IsAnchored name ∨ b.place = b'.place ∧ anchors .relative .relative)
    (h : Counterparts anchors b b' referrer referrer') :
    anchors (placeOf name referrer).anchor (placeOf name referrer').anchor ∧
      (b.append (placeOf name referrer)).place = (b'.append (placeOf name referrer')).place := by
  obtain ⟨hq, hq', htail, hanchor, hplace⟩ := h
  unfold placeOf
  rw [place_append_normalize hb, place_append_normalize hb']
  by_cases hrelative : isRelative (forward name) = true
  · rw [if_pos hrelative, if_pos hrelative, directoryOf_below hq.wellFormed hq.plain htail,
      directoryOf_below hq'.wellFormed hq'.plain htail]
    have hrest := isAbsolute_of_head?_ne htail
    have hdown := isAbsolute_of_head?_ne (head?_ne_of_isRelative hrelative)
    constructor
    · rw [append_relative _ hrest, append_relative _ hrest, append_relative _ hdown,
        append_relative _ hdown]
      exact hanchor
    · rw [← append_assoc, ← append_assoc, ← append_assoc, ← append_assoc]
      apply place_append_congr (isAbsolute_append _ (isAbsolute_append _ hb))
        (isAbsolute_append _ (isAbsolute_append _ hb'))
      exact place_append_congr (isAbsolute_append _ hb) (isAbsolute_append _ hb') hplace _
  · rw [if_neg hrelative, if_neg hrelative]
    -- the directory is seen from no referrer
    by_cases habs : ((⟨.relative, []⟩ : Path).append
        (ofChars (throughLast '/' (forward name)))).isAbsolute = true
    · rw [append_absolute _ habs, append_absolute _ habs]
      refine ⟨habsolute _ ?_, rfl⟩
      simpa [isAbsolute, Path.normalize] using habs
    · rcases hname with hanchored | ⟨hsame, hrel⟩
      · have hhead := hanchored.resolve_left hrelative
        rw [append_absolute _ (isAbsolute_of_head? hhead)] at habs
        exact absurd (isAbsolute_of_head? hhead) habs
      · constructor
        · have hanchor' : ((⟨.relative, []⟩ : Path).append
              (ofChars (throughLast '/' (forward name)))).anchor = .relative := by
            simpa [isAbsolute] using habs
          rw [Path.normalize, hanchor']
          exact hrel
        · exact place_append_congr hb hb' hsame _

/-- What counterparts refer to by an ordinary name are counterparts, or neither refers to anything
by that name. -/
theorem canonical_of_counterparts {referrer referrer' : String} {options' : Options}
    (hb : b.isAbsolute = true) (hb' : b'.isAbsolute = true)
    (habsolute : ∀ a ≠ Anchor.relative, anchors a a)
    (hname : IsAnchored name ∨ b.place = b'.place ∧ anchors .relative .relative)
    (hordinary : IsOrdinary name) (hextension : extension options = extension options')
    (h : Counterparts anchors b b' referrer referrer') :
    (∃ c c', canonical name (.text referrer) options = .ok c ∧
      canonical name (.text referrer') options' = .ok c' ∧ Counterparts anchors b b' c c') ∨
    ∃ failure, canonical name (.text referrer) options = .error failure ∧
      canonical name (.text referrer') options' = .error failure := by
  have hcomplete : complete (lastOf name) options = complete (lastOf name) options' := by
    rw [complete, complete, hextension]
  obtain ⟨hanchor, hplace⟩ := placeOf_of_counterparts hb hb' habsolute hname h
  rw [canonical_text hordinary, canonical_text hordinary, ← hcomplete]
  cases htail : complete (lastOf name) options with
  | error failure => exact Or.inr ⟨failure, rfl, rfl⟩
  | ok tail =>
    obtain ⟨hsegment, hbackslash⟩ := isSegmentText_lastOf hordinary
    exact Or.inl ⟨_, _, rfl, rfl, .below (isDirectory_placeOf _ _) (isDirectory_placeOf _ _)
      (isTail_of_complete hsegment hbackslash htail) hanchor hplace⟩

/-- What counterparts refer to by some ordinary names are counterparts, one by one, or one of the
names stands for nothing. -/
theorem dependencies_of_counterparts {referrer referrer' : String} {options' : Options}
    {names : List String} (hb : b.isAbsolute = true) (hb' : b'.isAbsolute = true)
    (habsolute : ∀ a ≠ Anchor.relative, anchors a a)
    (hnames : ∀ name ∈ names, (IsAnchored name ∨ b.place = b'.place ∧ anchors .relative .relative) ∧
      IsOrdinary name)
    (hextension : extension options = extension options')
    (h : Counterparts anchors b b' referrer referrer') :
    (∃ cs cs', names.mapM (fun name => canonical name (.text referrer) options) = .ok cs ∧
      names.mapM (fun name => canonical name (.text referrer') options') = .ok cs' ∧
      List.Forall₂ (Counterparts anchors b b') cs cs') ∨
    ∃ failure, names.mapM (fun name => canonical name (.text referrer) options) = .error failure ∧
      names.mapM (fun name => canonical name (.text referrer') options') = .error failure := by
  induction names with
  | nil => exact Or.inl ⟨[], [], rfl, rfl, .nil⟩
  | cons name names ih =>
    obtain ⟨hname, hordinary⟩ := hnames name List.mem_cons_self
    rw [List.mapM_cons, List.mapM_cons]
    rcases canonical_of_counterparts hb hb' habsolute hname hordinary hextension h with
      ⟨c, c', hc, hc', hfirst⟩ | ⟨failure, hc, hc'⟩
    · rw [hc, hc']
      rcases ih fun name hmem => hnames name (List.mem_cons_of_mem _ hmem) with
        ⟨cs, cs', hcs, hcs', hrest⟩ | ⟨failure, hcs, hcs'⟩
      · rw [hcs, hcs']
        exact Or.inl ⟨c :: cs, c' :: cs', rfl, rfl, .cons hfirst hrest⟩
      · rw [hcs, hcs']
        exact Or.inr ⟨failure, rfl, rfl⟩
    · rw [hc, hc']
      exact Or.inr ⟨failure, rfl, rfl⟩

/-- Counterparts lead to the same place. -/
theorem place_of_counterparts (hb : b.isAbsolute = true) (hb' : b'.isAbsolute = true)
    (h : Counterparts anchors b b' c c') :
    (Load.Source.locate b c).place = (Load.Source.locate b' c').place := by
  obtain ⟨hq, hq', htail, -, hplace⟩ := h
  rw [Load.Source.locate, Load.Source.locate, ofString_below hq.wellFormed htail.head?_ne,
    ofString_below hq'.wellFormed htail.head?_ne, ← append_assoc, ← append_assoc]
  exact place_append_congr (isAbsolute_append _ hb) (isAbsolute_append _ hb') hplace _

end Bundler.ModuleName
