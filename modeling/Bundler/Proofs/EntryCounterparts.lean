import Bundler.Entry.Placement
import Bundler.Proofs.Counterparts
import Bundler.Proofs.Locations

/-!
# Entries below two directories

The name of an entry is made absolute, or relative to the directory that files are merged in. Both
names are counterparts, seen from that directory and from the base directory, unless the directory
is the entry itself or lies below it.
-/

namespace Bundler

/-! ### The way from one place to another -/

namespace Path

/-- The way leads up to where both places part and then down. -/
lemma exists_wayTo (start target : List String) : ∃ shared behind ahead,
    start = shared ++ behind ∧ target = shared ++ ahead ∧
      wayTo start target = List.replicate behind.length ".." ++ ahead := by
  induction start generalizing target with
  | nil => exact ⟨[], [], target, rfl, rfl, rfl⟩
  | cons s start ih =>
    cases target with
    | nil =>
      have hway : wayTo (s :: start) [] = (s :: start).map fun _ => ".." := rfl
      exact ⟨[], s :: start, [], rfl, rfl, by rw [hway, List.map_const', List.append_nil]⟩
    | cons t target =>
      by_cases hst : s = t
      · subst hst
        obtain ⟨shared, behind, ahead, rfl, rfl, hway⟩ := ih target
        exact ⟨s :: shared, behind, ahead, rfl, rfl, by rw [wayTo, if_pos rfl, hway]⟩
      · exact ⟨[], s :: start, t :: target, rfl, rfl, by
          simp [wayTo, hst, List.map_const', List.replicate_succ]⟩

lemma wayTo_append (start ahead : List String) : wayTo start (start ++ ahead) = ahead := by
  induction start with
  | nil => rfl
  | cons s start ih => rw [List.cons_append, wayTo, if_pos rfl, ih]

/-- The way to a place that does not lie above goes down to a last segment; it goes up unless the
place lies below. -/
lemma exists_wayTo_last {start target : List String} (houtside : ¬ target <+: start) :
    ∃ shared behind ss s, start = shared ++ behind ∧ target = shared ++ ss ++ [s] ∧
      wayTo start target = List.replicate behind.length ".." ++ ss ++ [s] ∧
      (start <+: target ↔ behind.length = 0) := by
  obtain ⟨shared, behind, ahead, hstart, htarget, hway, hbelow⟩ : ∃ shared behind ahead,
      start = shared ++ behind ∧ target = shared ++ ahead ∧
        wayTo start target = List.replicate behind.length ".." ++ ahead ∧
        (start <+: target ↔ behind.length = 0) := by
    by_cases hbelow : start <+: target
    · obtain ⟨ahead, rfl⟩ := hbelow
      exact ⟨start, [], ahead, (List.append_nil _).symm, rfl, wayTo_append start ahead,
        fun _ => rfl, fun _ => ⟨ahead, rfl⟩⟩
    · obtain ⟨shared, behind, ahead, hstart, htarget, hway⟩ := exists_wayTo start target
      refine ⟨shared, behind, ahead, hstart, htarget, hway, fun h => absurd h hbelow, ?_⟩
      intro hnil
      rw [hstart, htarget, List.length_eq_zero_iff.mp hnil, List.append_nil]
      exact List.prefix_append _ _
  rcases List.eq_nil_or_concat' ahead with rfl | ⟨ss, s, rfl⟩
  · exact absurd ⟨behind, by rw [htarget, List.append_nil, hstart]⟩ houtside
  · exact ⟨shared, behind, ss, s, hstart, by rw [htarget, List.append_assoc],
      by rw [hway, List.append_assoc], hbelow⟩

end Path

/-! ### Names that are written as paths -/

namespace ModuleName

open Bundler.Path Text

variable {anchor : Anchor} {ss : List String} {s : String} {options : Options} {referrer : Value}

/-- A referrer of any kind stands for its text. -/
lemma seenFrom_of_referrerText {seen : String} (name : String)
    (h : referrerText referrer = .ok seen) :
    seenFrom name referrer = .ok (normalize name seen) := by
  rw [← seenFrom_text]
  unfold seenFrom
  split
  · next hrelative =>
    have htext := seenFrom_text name seen
    rw [seenFrom, if_pos hrelative] at htext
    rw [h, htext]
    rfl
  · rfl

lemma seenFrom_of_falsy (name : String) (h : referrer.truthy = false) :
    seenFrom name referrer = .ok (normalize name "") := by
  apply seenFrom_of_referrerText
  unfold referrerText
  rw [h]
  rfl

lemma seenFrom_of_not_isRelative {name : String} (referrer : Value)
    (h : isRelative (forward name) = false) : seenFrom name referrer = .ok (normalize name "") := by
  rw [seenFrom, ← forward, h]
  rfl

lemma forward_text (anchor : Anchor) (hq : ∀ t ∈ ss, '\\' ∉ t.toList) (hs : '\\' ∉ s.toList) :
    forward (Path.text ⟨anchor, ss ++ [s]⟩) = directoryText ⟨anchor, ss⟩ ++ s.toList := by
  rw [forward, toList_text_concat, swap_of_not_mem]
  rw [List.mem_append, not_or]
  exact ⟨backslash_not_mem_directoryText hq, hs⟩

lemma afterLast_forward_text (hq : IsDirectory ⟨anchor, ss⟩) (hs : IsSegmentText s)
    (hbackslash : '\\' ∉ s.toList) :
    afterLast '/' (forward (Path.text ⟨anchor, ss ++ [s]⟩)) = s.toList := by
  rw [forward_text anchor hq.plain hbackslash, (isDirectoryText_directoryText _).afterLast_append,
    afterLast_of_not_mem hs.2]

lemma isOrdinary_text (hq : IsDirectory ⟨anchor, ss⟩) (hs : IsSegmentText s)
    (hbackslash : '\\' ∉ s.toList) (hup : s ≠ "..") :
    IsOrdinary (Path.text ⟨anchor, ss ++ [s]⟩) := by
  rw [IsOrdinary, afterLast_forward_text hq hs hbackslash]
  exact ⟨hs.1, fun heq => hup (String.toList_inj.mp heq)⟩

/-- A name that is written as a path stands in the directory above its last segment. -/
lemma placeOf_text (hq : IsDirectory ⟨anchor, ss⟩) (hs : IsSegmentText s)
    (hbackslash : '\\' ∉ s.toList) (seen : String) :
    placeOf (Path.text ⟨anchor, ss ++ [s]⟩) seen
      = ((if isRelative (forward (Path.text ⟨anchor, ss ++ [s]⟩)) then directoryOf seen
          else ⟨.relative, []⟩).append ⟨anchor, ss⟩).normalize := by
  have hthrough : throughLast '/' (forward (Path.text ⟨anchor, ss ++ [s]⟩))
      = directoryText ⟨anchor, ss⟩ := by
    rw [forward_text anchor hq.plain hbackslash,
      (isDirectoryText_directoryText _).throughLast_append, throughLast_of_not_mem hs.2,
      List.append_nil]
  rw [placeOf, hthrough, ofChars_directoryText hq.wellFormed]

/-- Seen from a text, a name that is written as a path names its last segment in the directory
above. -/
lemma normalize_text (hq : IsDirectory ⟨anchor, ss⟩) (hs : IsSegmentText s)
    (hbackslash : '\\' ∉ s.toList) (hup : s ≠ "..") (seen : String) :
    normalize (Path.text ⟨anchor, ss ++ [s]⟩) seen
      = below (placeOf (Path.text ⟨anchor, ss ++ [s]⟩) seen) s := by
  rw [normalize_eq_below (isOrdinary_text hq hs hbackslash hup), lastOf,
    afterLast_forward_text hq hs hbackslash, String.ofList_toList]

/-- A name that is written as a path names its last segment in the directory above. -/
lemma canonical_of_path (hq : IsDirectory ⟨anchor, ss⟩) (hs : IsSegmentText s)
    (hbackslash : '\\' ∉ s.toList) (hup : s ≠ "..")
    (hseen : seenFrom (Path.text ⟨anchor, ss ++ [s]⟩) referrer
      = .ok (normalize (Path.text ⟨anchor, ss ++ [s]⟩) "")) :
    canonical (Path.text ⟨anchor, ss ++ [s]⟩) referrer options
      = (complete s options).map (below ⟨anchor, ss⟩) := by
  have hplace : placeOf (Path.text ⟨anchor, ss ++ [s]⟩) "" = ⟨anchor, ss⟩ := by
    have hhere : directoryOf "" = ⟨.relative, []⟩ := rfl
    have happend : (⟨.relative, []⟩ : Path).append ⟨anchor, ss⟩ = ⟨anchor, ss⟩ := by
      cases anchor <;> rfl
    rw [placeOf_text hq hs hbackslash, hhere, ite_self, happend, normalize_of_isNormal hq.normal]
  rw [canonical_of_seenFrom hseen, normalize_text hq hs hbackslash hup, hplace, ← complete_below]

/-- A name that is written as an absolute path is seen from no referrer. -/
lemma isRelative_text_of_isAbsolute (hanchor : anchor ≠ .relative)
    (hq : ∀ t ∈ ss, '\\' ∉ t.toList) (hs : '\\' ∉ s.toList) :
    isRelative (forward (Path.text ⟨anchor, ss ++ [s]⟩)) = false := by
  rw [forward_text _ hq hs, directoryText]
  cases anchor with
  | relative => exact absurd rfl hanchor
  | root => simp [anchorText, isRelative]
  | doubleRoot => simp [anchorText, isRelative]

lemma split_of_isRelative {cs : List Char} (h : isRelative cs = true) :
    ∃ first rest, split '/' cs = first :: rest ∧ (first = ['.'] ∨ first = ['.', '.']) := by
  have hdot : '/' ∉ ['.'] := by decide
  have hdots : '/' ∉ ['.', '.'] := by decide
  unfold isRelative at h
  split at h
  · exact ⟨_, _, split_append_sep hdot _, Or.inl rfl⟩
  · exact ⟨_, _, split_append_sep hdots _, Or.inr rfl⟩
  · cases h

/-- A name that is written as a path downwards is seen from no referrer. -/
lemma isRelative_text_of_not_mem (hwell : ∀ t ∈ ss, IsSegmentText t) (hne : ss ≠ [])
    (hup : ".." ∉ ss) : isRelative (Path.text ⟨.relative, ss⟩).toList = false := by
  have hchars : (Path.text ⟨.relative, ss⟩).toList = join '/' (ss.map String.toList) := by
    rw [Path.text, if_neg (by simp [hne]), String.toList_append, toList_intercalate_slash]
    rfl
  have hsplit : split '/' (Path.text ⟨.relative, ss⟩).toList = ss.map String.toList := by
    rw [hchars, split_join (by simpa using hne)]
    intro part hpart
    obtain ⟨t, ht, rfl⟩ := List.mem_map.mp hpart
    exact (hwell t ht).2
  rw [Bool.eq_false_iff]
  intro hrelative
  obtain ⟨first, rest, hfirst, hdots⟩ := split_of_isRelative hrelative
  have hmem : first ∈ ss.map String.toList := by
    rw [← hsplit, hfirst]
    exact List.mem_cons_self
  obtain ⟨t, ht, rfl⟩ := List.mem_map.mp hmem
  rcases hdots with hdot | hdots
  · exact (isSegment_iff.mp (hwell t ht).1).2 hdot
  · obtain rfl : t = ".." := String.toList_inj.mp hdots
    exact hup ht

/-- The way to a directory, up and then down, is a directory. -/
lemma isDirectory_way (up : Nat) (hwell : ∀ t ∈ ss, IsSegmentText t) (hdown : ".." ∉ ss)
    (hplain : ∀ t ∈ ss, '\\' ∉ t.toList) :
    IsDirectory ⟨.relative, List.replicate up ".." ++ ss⟩ := by
  have hway : ∀ t ∈ List.replicate up ".." ++ ss, t = ".." ∨ t ∈ ss := by
    intro t ht
    exact (List.mem_append.mp ht).imp_left List.eq_of_mem_replicate
  refine ⟨?_, ⟨up, ss, rfl, hdown, nofun⟩, ?_⟩
  · intro t ht
    rcases hway t ht with rfl | ht
    · exact ⟨rfl, by decide⟩
    · exact hwell t ht
  · intro t ht
    rcases hway t ht with rfl | ht
    · decide
    · exact hplain t ht

/-- A way that leads only down is seen from no referrer. -/
lemma isRelative_text_down (hq : IsDirectory ⟨.relative, ss⟩) (hs : IsSegmentText s)
    (hbackslash : '\\' ∉ s.toList) (hup : s ≠ "..") (hdown : ".." ∉ ss) :
    isRelative (forward (Path.text ⟨.relative, ss ++ [s]⟩)) = false := by
  rw [forward_text _ hq.plain hbackslash, ← toList_text_concat]
  apply isRelative_text_of_not_mem _ (by simp)
  · simpa [hdown] using Ne.symm hup
  · intro t ht
    rcases List.mem_append.mp ht with ht | ht
    · exact hq.wellFormed t ht
    · rwa [List.mem_singleton.mp ht]

/-- The name of a place relative to a directory and its absolute name are counterparts. -/
lemma counterparts_of_way {directory base : Path} {anchors : Anchor → Anchor → Prop}
    {options options' : Options} {target : List String} (referrer' : Value)
    (hdirectory : directory.isAbsolute = true) (hnormal : ".." ∉ directory.segments)
    (habsolute : anchor ≠ .relative) (hwell : ∀ t ∈ target, IsSegmentText t)
    (hup : ".." ∉ target) (hplain : ∀ t ∈ target, '\\' ∉ t.toList)
    (houtside : ¬ target <+: directory.segments)
    (hreferrer : referrer.truthy = false ∨ directory.segments <+: target)
    (hanchor : anchors .relative anchor) (hextension : extension options = extension options') :
    (∃ c c', canonical (slashed (Path.text ⟨.relative, wayTo directory.segments target⟩)) referrer
        options = .ok c ∧
      canonical (Path.text ⟨anchor, target⟩) referrer' options' = .ok c' ∧
      Counterparts anchors directory base c c') ∨
    ∃ failure, canonical (slashed (Path.text ⟨.relative, wayTo directory.segments target⟩)) referrer
        options = .error failure ∧
      canonical (Path.text ⟨anchor, target⟩) referrer' options' = .error failure := by
  obtain ⟨shared, behind, ahead, s, hshared, rfl, hway, hbelow⟩ := exists_wayTo_last houtside
  have hseen : referrer.truthy = false ∨ behind = [] :=
    hreferrer.imp_right fun h => List.length_eq_zero_iff.mp (hbelow.mp h)
  rw [hway]
  have hs : IsSegmentText s := hwell s (by simp)
  have hbackslash : '\\' ∉ s.toList := hplain s (by simp)
  have hlast : s ≠ ".." := by
    rintro rfl
    simp at hup
  have hdown : ".." ∉ ahead := fun hmem => hup (by simp [hmem])
  have hq : IsDirectory ⟨.relative, List.replicate behind.length ".." ++ ahead⟩ :=
    isDirectory_way _ (fun t ht => hwell t (by simp [ht])) hdown fun t ht => hplain t (by simp [ht])
  have hq' : IsDirectory ⟨anchor, shared ++ ahead⟩ :=
    ⟨fun t ht => hwell t (List.mem_append_left _ ht),
      .of_not_mem fun hmem => hup (List.mem_append_left _ hmem),
      fun t ht => hplain t (List.mem_append_left _ ht)⟩
  have hplace : (directory.append ⟨.relative, List.replicate behind.length ".." ++ ahead⟩).place
      = (base.append ⟨anchor, shared ++ ahead⟩).place := by
    have hup' : ".." ∉ shared ++ ahead := fun hmem => hup (List.mem_append_left _ hmem)
    rw [place, place, segments_normalize_append hdirectory hnormal rfl rfl hdown,
      segments_normalize_absolute (by simpa [isAbsolute] using habsolute) hup', hshared]
    simp
  have hslashed : slashed (Path.text ⟨.relative, List.replicate behind.length ".." ++ ahead ++ [s]⟩)
      = Path.text ⟨.relative, List.replicate behind.length ".." ++ ahead ++ [s]⟩ := by
    apply slashed_text
    intro t ht
    rcases List.mem_append.mp ht with ht | ht
    · exact hq.plain t ht
    · rwa [List.mem_singleton.mp ht]
  rw [hslashed, canonical_of_path hq hs hbackslash hlast, canonical_of_path hq' hs hbackslash hlast]
  · have hcomplete : complete s options = complete s options' := by
      rw [complete, complete, hextension]
    rw [← hcomplete]
    cases htail : complete s options with
    | error failure => exact Or.inr ⟨failure, rfl, rfl⟩
    | ok tail =>
      exact Or.inl ⟨_, _, rfl, rfl, .below hq hq' (isTail_of_complete hs hbackslash htail) hanchor
        hplace⟩
  · exact seenFrom_of_not_isRelative _ (isRelative_text_of_isAbsolute habsolute hq'.plain hbackslash)
  · rcases hseen with hfalsy | rfl
    · exact seenFrom_of_falsy _ hfalsy
    · exact seenFrom_of_not_isRelative _
        (isRelative_text_down hq hs hbackslash hlast (by simpa using hdown))

end ModuleName

/-! ### Entries -/

namespace Entry

open Bundler.Path ModuleName

variable {w : Workspace} {base directory : Path} {entry : Entry} {options options' : Options}
  {anchors : Anchor → Anchor → Prop}

/-- Between absolute paths the way does not depend on the current directory. -/
lemma resolveIn_eq (w : Workspace) (entry : Entry) (hbase : base.isAbsolute = true)
    (hdirectory : directory.isAbsolute = true) (hnormal : ".." ∉ directory.segments) :
    resolveIn w base directory entry = .ok { entry with
      name := slashed (Path.text ⟨.relative,
        wayTo directory.segments (Path.resolve entry.name base).segments⟩) } := by
  have htarget : (Path.resolve entry.name base).isAbsolute = true := isAbsolute_append _ hbase
  have hplace : (Path.resolve entry.name base).normalize = Path.resolve entry.name base :=
    normalize_normalize _
  simp only [resolveIn, Workspace.relativeText, Workspace.relative, Workspace.absolute, hdirectory,
    htarget, if_true, normalize_eq_self hnormal, hplace, relativeTo, Except.map, bind, Except.bind]

/-- The names of an entry below both directories are counterparts, or it has no name below either. -/
theorem counterparts_of_entry (hbase : base.isAbsolute = true) (hwell : base.WellFormed)
    (hdirectory : directory.isAbsolute = true) (hnormal : ".." ∉ directory.segments)
    (hplain : ∀ s ∈ (Path.resolve entry.name base).segments, '\\' ∉ s.toList)
    (houtside : ¬ (Path.resolve entry.name base).segments <+: directory.segments)
    (hreferrer : options.referrerName.truthy = false ∨
      directory.segments <+: (Path.resolve entry.name base).segments)
    (hanchor : anchors .relative (Path.resolve entry.name base).anchor)
    (hextension : extension options = extension options') :
    ∃ entry', resolveIn w base directory entry = .ok entry' ∧ entry'.kind = entry.kind ∧
      ((∃ c c', canonical entry'.name options.referrerName options = .ok c ∧
        canonical (entry.resolve base).name options'.referrerName options' = .ok c' ∧
        Counterparts anchors directory base c c') ∨
      ∃ failure, canonical entry'.name options.referrerName options = .error failure ∧
        canonical (entry.resolve base).name options'.referrerName options' = .error failure) := by
  have hwell' : (Path.resolve entry.name base).WellFormed :=
    (hwell.append (wellFormed_ofChars _)).normalize
  have hanchored : (Path.resolve entry.name base).anchor ≠ .relative := by
    have htarget : (Path.resolve entry.name base).isAbsolute = true := isAbsolute_append _ hbase
    simpa [isAbsolute] using htarget
  refine ⟨_, resolveIn_eq w entry hbase hdirectory hnormal, rfl, ?_⟩
  exact counterparts_of_way _ hdirectory hnormal hanchored hwell'
    (not_mem_place (isAbsolute_append _ hbase)) hplain houtside hreferrer hanchor hextension

end Entry

end Bundler
