import Bundler.Proofs.EntryCounterparts

/-!
# Outputs of entries

An entry that is compiled on its own is written to the place below the output directory that its
name has below the base directory, or, if it lies outside of the base directory, to the place that
it has below the root. So it never leaves the output directory. Two entries share an output only
where these two ways of naming meet.
-/

namespace Bundler.Entry

open Bundler.Path

variable {base output : Path} {name name' : String}

/-- The way from the base directory to an entry leads out of it. -/
def Leaves (base : Path) (name : String) : Prop :=
  if (Path.ofString name).isAbsolute then ¬ base.place <+: (Path.ofString name).place
  else climbs (Path.ofString name).normalize = true

instance (base : Path) (name : String) : Decidable (Leaves base name) :=
  inferInstanceAs (Decidable (if (Path.ofString name).isAbsolute
    then ¬ base.place <+: (Path.ofString name).place
    else climbs (Path.ofString name).normalize = true))

lemma climbs_eq_false {p : Path} (h : ".." ∉ p.segments) : climbs p = false := by
  rw [Bool.eq_false_iff, climbs]
  intro hclimbs
  exact h (List.mem_of_mem_head? (by simpa using hclimbs))

/-- What an entry is called below the output directory: its place below the base directory, or its
absolute path if the way to it leads out. -/
structure IsBelow (base : Path) (name : String) (below : List String) : Prop where
  down : ".." ∉ below
  inside : ¬ Leaves base name → (Path.resolve name base).segments = base.place ++ below
  outside : Leaves base name → below = (Path.resolve name base).segments

lemma exists_placeBelow_absolute (w : Workspace) (hbase : base.isAbsolute = true)
    (hname : (Path.ofString name).isAbsolute = true) :
    ∃ below, placeBelow w base name = .ok below ∧ IsBelow base name below := by
  have hresolve : Path.resolve name base = (Path.ofString name).normalize := by
    rw [Path.resolve, append_absolute _ hname]
  have hnear : w.relative (Path.ofString name).normalize base
      = .ok ⟨.relative, wayTo base.place (Path.ofString name).place⟩ := by
    simp [Workspace.relative, Workspace.absolute, hbase, hname, bind, Except.bind, relativeTo,
      place]
  have hplace : placeBelow w base name = .ok
      (if climbs ⟨.relative, wayTo base.place (Path.ofString name).place⟩
        then (Path.resolve name base).segments
        else wayTo base.place (Path.ofString name).place) := by
    rw [placeBelow, isAbsolute_normalize, if_pos hname, hnear]
    rfl
  have hup := not_mem_place hname
  have hleaves : Leaves base name ↔ ¬ base.place <+: (Path.ofString name).place := by
    rw [Leaves, if_pos hname]
  by_cases hprefix : base.place <+: (Path.ofString name).place
  · obtain ⟨below, hbelow⟩ := hprefix
    have hdown : ".." ∉ below := by
      intro hmem
      rw [← hbelow] at hup
      exact hup (List.mem_append_right _ hmem)
    rw [← hbelow, wayTo_append, climbs_eq_false hdown] at hplace
    refine ⟨below, hplace, hdown, ?_, ?_⟩
    · intro _
      rw [hresolve, hbelow]
      rfl
    · intro hleave
      exact absurd ⟨below, hbelow⟩ (hleaves.mp hleave)
  · obtain ⟨shared, behind, ahead, hshared, htarget, hway⟩ :=
      exists_wayTo base.place (Path.ofString name).place
    have hclimbs : climbs ⟨.relative, wayTo base.place (Path.ofString name).place⟩ = true := by
      cases behind with
      | nil =>
        rw [List.append_nil] at hshared
        exact absurd ⟨ahead, by rw [hshared, htarget]⟩ hprefix
      | cons s behind => simp [climbs, hway, List.replicate_succ]
    rw [if_pos hclimbs] at hplace
    refine ⟨_, hplace, ?_, ?_, fun _ => rfl⟩
    · rwa [hresolve]
    · exact fun hstays => absurd (hleaves.mpr hprefix) hstays

lemma exists_placeBelow_relative (w : Workspace) (hbase : base.isAbsolute = true)
    (hname : (Path.ofString name).isAbsolute = false) :
    ∃ below, placeBelow w base name = .ok below ∧ IsBelow base name below := by
  have hplace : placeBelow w base name = .ok
      (if climbs (Path.ofString name).normalize then (Path.resolve name base).segments
        else (Path.ofString name).normalize.segments) := by
    rw [placeBelow, isAbsolute_normalize, hname]
    rfl
  have hleaves : Leaves base name ↔ climbs (Path.ofString name).normalize = true := by
    rw [Leaves, hname]
    rfl
  by_cases hclimbs : climbs (Path.ofString name).normalize = true
  · rw [if_pos hclimbs] at hplace
    exact ⟨_, hplace, not_mem_place (isAbsolute_append _ hbase),
      fun hstays => absurd (hleaves.mpr hclimbs) hstays, fun _ => rfl⟩
  · rw [if_neg hclimbs] at hplace
    have hdown : ".." ∉ (Path.ofString name).normalize.segments := by
      obtain ⟨up, down, hsegments, hdown, -⟩ :=
        isNormal_collapse (Path.ofString name).isAbsolute (Path.ofString name).segments
      have hnormal : (Path.ofString name).normalize.segments = List.replicate up ".." ++ down :=
        hsegments
      cases up with
      | zero => simpa [hnormal] using hdown
      | succ up => simp [climbs, hnormal, List.replicate_succ] at hclimbs
    refine ⟨_, hplace, hdown, ?_, fun hleave => absurd (hleaves.mp hleave) hclimbs⟩
    intro _
    have hrelative : (Path.ofString name).normalize.isAbsolute = false := hname
    calc (Path.resolve name base).segments
        = (base.append (Path.ofString name)).place := rfl
      _ = (base.append (Path.ofString name).normalize).place :=
        (place_append_normalize hbase _).symm
      _ = base.place ++ (Path.ofString name).normalize.segments := by
        rw [append_relative _ hrelative, place_concat _ hdown]

/-- Every entry has a place below the output directory. -/
lemma exists_isBelow (w : Workspace) (hbase : base.isAbsolute = true) (name : String) :
    ∃ below, placeBelow w base name = .ok below ∧ IsBelow base name below := by
  cases hname : (Path.ofString name).isAbsolute with
  | true => exact exists_placeBelow_absolute w hbase hname
  | false => exact exists_placeBelow_relative w hbase hname

/-! ### Staying below the output directory -/

lemma IsBelow.subset {below : List String} (h : IsBelow base name below) :
    below ⊆ (Path.resolve name base).segments := by
  by_cases hleaves : Leaves base name
  · rw [← h.outside hleaves]
    exact List.Subset.refl below
  · rw [h.inside hleaves]
    exact List.subset_append_right _ _

/-- The way from an absolute base directory to what a name stands for, if it leads down. -/
lemma relative_resolve {below : List String} (w : Workspace) (hbase : base.isAbsolute = true)
    (h : (Path.resolve name base).segments = base.place ++ below) :
    w.relative (Path.resolve name base) base = .ok ⟨.relative, below⟩ := by
  have htarget : (Path.resolve name base).isAbsolute = true := isAbsolute_append _ hbase
  have hnormal : (Path.resolve name base).normalize = Path.resolve name base :=
    normalize_normalize _
  have hway : (Path.resolve name base).relativeTo base.normalize = ⟨.relative, below⟩ := by
    rw [relativeTo, h]
    exact congrArg (Path.mk .relative) (wayTo_append base.place below)
  simp only [Workspace.relative, Workspace.absolute, hbase, htarget, if_true, hnormal, bind,
    Except.bind, hway]

/-- Every entry is written below the output directory. If the way from the base directory to the
entry leads down, that is the way from the output directory as well. -/
theorem outputPath_isBelow (w : Workspace) (baseText outputText name : String)
    (hbase : (Path.ofString baseText).isAbsolute = true) : ∃ below,
    outputPath w (.ofString baseText) (.ofString outputText) name
        = .ok ⟨(Path.ofString outputText).anchor, (Path.ofString outputText).segments ++ below⟩ ∧
      (∀ s ∈ below, s ≠ ".." ∧ IsSegmentText s) ∧
      (¬ Leaves (.ofString baseText) name →
        w.relative (Path.resolve name (.ofString baseText)) (.ofString baseText)
          = .ok ⟨.relative, below⟩) ∧
      (Leaves (.ofString baseText) name →
        below = (Path.resolve name (.ofString baseText)).segments) := by
  obtain ⟨below, hplaced, hbelow⟩ := exists_isBelow w hbase name
  have hwell : (Path.resolve name (.ofString baseText)).WellFormed :=
    ((wellFormed_ofChars _).append (wellFormed_ofChars _)).normalize
  refine ⟨below, ?_, ?_, ?_, hbelow.outside⟩
  · rw [outputPath, hplaced]
    rfl
  · intro s hs
    refine ⟨?_, hwell s (hbelow.subset hs)⟩
    rintro rfl
    exact hbelow.down hs
  · exact fun hstays => relative_resolve w hbase (hbelow.inside hstays)

/-- A name that climbs above the base directory and above the root. -/
theorem outputPath_isBelow_climbing : ∃ below,
    outputPath ⟨.empty, some [], ⟨.root, []⟩, []⟩ (.ofString "/p/src") (.ofString "out")
        ".././../..//a.js" = .ok ⟨.relative, "out" :: below⟩ ∧
      ".." ∉ below ∧ below = ["a.js"] := by
  obtain ⟨below, hplaced, hsegments, -, houtside⟩ := outputPath_isBelow
    ⟨.empty, some [], ⟨.root, []⟩, []⟩ "/p/src" "out" ".././../..//a.js" (by decide)
  refine ⟨below, hplaced, fun h => (hsegments _ h).1 rfl, ?_⟩
  rw [houtside (by decide)]
  decide

/-! ### Entries with the same output -/

/-- The first entry lies below the base directory where the second one, which is outside of it, lies
below the root. -/
def Meets (base : Path) (name name' : String) : Prop :=
  ¬ Leaves base name ∧ Leaves base name' ∧
    (Path.resolve name base).segments = base.place ++ (Path.resolve name' base).segments

instance (base : Path) (name name' : String) : Decidable (Meets base name name') :=
  inferInstanceAs (Decidable (_ ∧ _ ∧ _))

/-- Two entries have the same output exactly if both or neither are outside of the base directory
and they are the same place, or if one of them meets the other. Different outputs are different
places. -/
theorem outputPath_eq_iff (w : Workspace) (hbase : base.isAbsolute = true) (output : Path)
    (name name' : String) : ∃ p q,
    outputPath w base output name = .ok p ∧ outputPath w base output name' = .ok q ∧
      (p.place = q.place → p = q) ∧
      (p = q ↔
        (Leaves base name ↔ Leaves base name') ∧
            (Path.resolve name base).segments = (Path.resolve name' base).segments ∨
          Meets base name name' ∨ Meets base name' name) := by
  obtain ⟨below, hplaced, hbelow⟩ := exists_isBelow w hbase name
  obtain ⟨below', hplaced', hbelow'⟩ := exists_isBelow w hbase name'
  have hsame : (⟨output.anchor, output.segments ++ below⟩ : Path)
      = ⟨output.anchor, output.segments ++ below'⟩ ↔ below = below' := by
    simp
  refine ⟨⟨output.anchor, output.segments ++ below⟩, ⟨output.anchor, output.segments ++ below'⟩,
    ?_, ?_, ?_, ?_⟩
  · rw [outputPath, hplaced]
    rfl
  · rw [outputPath, hplaced']
    rfl
  · rw [place_concat _ hbelow.down, place_concat _ hbelow'.down, hsame]
    exact List.append_cancel_left
  · rw [hsame, Meets, Meets]
    by_cases hleaves : Leaves base name <;> by_cases hleaves' : Leaves base name'
    · simp [hleaves, hleaves', hbelow.outside hleaves, hbelow'.outside hleaves']
    · simp [hleaves, hleaves', hbelow.outside hleaves, hbelow'.inside hleaves', eq_comm]
    · simp [hleaves, hleaves', hbelow.inside hleaves, hbelow'.outside hleaves']
    · simp [hleaves, hleaves', hbelow.inside hleaves, hbelow'.inside hleaves']

/-- A file beside the base directory keeps the names of the directories that lead to it. -/
theorem outputPath_ne_beside : ∃ p q,
    outputPath ⟨.empty, some [], ⟨.root, []⟩, []⟩ ⟨.root, ["src"]⟩ ⟨.root, ["out"]⟩ "a.js" = .ok p ∧
      outputPath ⟨.empty, some [], ⟨.root, []⟩, []⟩ ⟨.root, ["src"]⟩ ⟨.root, ["out"]⟩ "../lib/a.js"
        = .ok q ∧
      p.place ≠ q.place := by
  have hbase : (⟨.root, ["src"]⟩ : Path).isAbsolute = true := rfl
  obtain ⟨p, q, hp, hq, hplace, hsame⟩ := outputPath_eq_iff ⟨.empty, some [], ⟨.root, []⟩, []⟩ hbase
    ⟨.root, ["out"]⟩ "a.js" "../lib/a.js"
  refine ⟨p, q, hp, hq, fun h => ?_⟩
  have hmeet := hsame.mp (hplace h)
  revert hmeet
  decide

/-- Different files may have the same output: a file in the base directory and one outside of it
that lies below the root where the first one lies below the base directory. -/
theorem outputPath_not_injective : ¬ ∀ (w : Workspace) (base output : Path) (name name' : String),
    base.isAbsolute = true → output.isAbsolute = true →
      (Path.resolve name base).text ≠ (Path.resolve name' base).text →
        outputPath w base output name ≠ outputPath w base output name' := by
  intro h
  have hdiffers := h ⟨.empty, some [], ⟨.root, []⟩, []⟩ ⟨.root, ["src"]⟩ ⟨.root, ["out"]⟩ "a.js"
    "../a.js" rfl rfl (by decide)
  exact hdiffers (by decide +kernel)

end Bundler.Entry
