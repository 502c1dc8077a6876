import Bundler.Proofs.EntryCounterparts

/-!
# Relative names below an anchor

A relative specifier is seen from the directory of the module that holds it. The module may be known
under a relative name, whose leading `..` are kept, or under the absolute one that this name has
below some directory, where `..` is dropped at the root. Seen from the one or from the other, the
specifier leads to the same path.
-/

namespace Bundler.ModuleName

open Bundler.Path Text

variable {name referrer : String} {base q : Path}

/-- A normal form is read back as its path. -/
lemma ofString_text_eq (hq : q.WellFormed) : Path.ofString (text q) = q := by
  unfold text
  split
  · next hempty =>
    rw [hempty]
    rfl
  · exact Path.ofString_text hq

/-! ### The directory of a module -/

/-- A module stands in its directory, below which `..` has been resolved. -/
lemma resolve_eq_concat (h : IsOrdinary referrer) (hplain : '\\' ∉ referrer.toList) (base : Path) :
    resolve referrer base
      = ⟨(base.append (directoryOf referrer)).anchor,
          (base.append (directoryOf referrer)).normalize.segments ++ [lastOf referrer]⟩ := by
  have hforward : forward referrer = referrer.toList := swap_of_not_mem hplain
  have hreferrer : Path.ofString referrer
      = (directoryOf referrer).append ⟨.relative, [lastOf referrer]⟩ := by
    rw [directoryOf, ← forward, ← ofChars_forward h, hforward, Path.ofString]
  rw [resolve, hreferrer, ← append_assoc, normalize_append_segment (lastOf_ne_up h)]

/-- The directory of a module that is seen from another directory. -/
lemma parent_resolve (h : IsOrdinary referrer) (hplain : '\\' ∉ referrer.toList) (base : Path) :
    (resolve referrer base).parent = (base.append (directoryOf referrer)).normalize := by
  rw [resolve_eq_concat h hplain, parent, List.dropLast_concat, Path.normalize]

/-- What a relative name is called, seen from a module. -/
lemma normalize_of_isRelative (hname : isRelative name.toList = true)
    (hplain : '\\' ∉ name.toList) (referrer : String) :
    normalize name referrer
      = text ((directoryOf referrer).append (.ofString name)).normalize := by
  have hforward : swap '\\' '/' name.toList = name.toList := swap_of_not_mem hplain
  rw [normalize, hforward, if_pos hname, Path.ofString]

/-- What is nothing but an ordinary segment is seen from where it stands. -/
lemma append_directoryOf_lastOf (h : IsOrdinary referrer) (q : Path) :
    q.append (ofChars (throughLast '/' (forward (lastOf referrer)))) = q := by
  obtain ⟨hsegment, hbackslash⟩ := isSegmentText_lastOf h
  have hhere : ofChars [] = ⟨.relative, []⟩ := rfl
  rw [forward, swap_of_not_mem hbackslash, throughLast_of_not_mem hsegment.2, hhere,
    append_relative q rfl, List.append_nil]

/-- The directory of a module that is known under its absolute name. -/
lemma directoryOf_text_resolve (h : IsOrdinary referrer) (hplain : '\\' ∉ referrer.toList)
    (hwell : base.WellFormed) (hclean : ∀ s ∈ base.segments, '\\' ∉ s.toList) :
    directoryOf (resolve referrer base).text = (resolve referrer base).parent := by
  have hdirectory : IsDirectory (base.append (directoryOf referrer)).normalize :=
    ⟨(hwell.append (wellFormed_ofChars _)).normalize, isNormal_collapse _ _,
      backslash_not_mem_append hclean (backslash_not_mem_throughLast referrer)⟩
  have htail : IsTail (lastOf referrer) := by
    obtain ⟨hsegment, hbackslash⟩ := isSegmentText_lastOf h
    rw [IsTail, forward, swap_of_not_mem hbackslash]
    simpa using hsegment.head?_ne []
  have hbelow : (resolve referrer base).text
      = below (base.append (directoryOf referrer)).normalize (lastOf referrer) := by
    rw [resolve_eq_concat h hplain, ← String.toList_inj, toList_text_concat, toList_below]
    rfl
  rw [hbelow, directoryOf_below hdirectory.wellFormed hdirectory.plain htail,
    append_directoryOf_lastOf h, parent_resolve h hplain]

/-! ### The same path from both names -/

/-- A relative specifier may be normalized below the name of its module and then seen from a
directory, or be seen from the directory that the module has there: both lead to the same path. This
is also what the specifier is called seen from the absolute name of the module. -/
theorem resolve_normalize_specifier (directory referrer specifier : String)
    (hdirectory : (Path.ofString directory).isAbsolute = true)
    (hordinary : IsOrdinary referrer) (hreferrer : '\\' ∉ referrer.toList)
    (hrelative : isRelative specifier.toList = true) (hspecifier : '\\' ∉ specifier.toList) :
    resolve (normalize specifier referrer) (.ofString directory)
        = resolve specifier (resolve referrer (.ofString directory)).parent ∧
      ('\\' ∉ directory.toList →
        normalize specifier (resolve referrer (.ofString directory)).text
          = (resolve (normalize specifier referrer) (.ofString directory)).text) := by
  have hboth : resolve (normalize specifier referrer) (.ofString directory)
      = resolve specifier (resolve referrer (.ofString directory)).parent := by
    have hwell : ((directoryOf referrer).append (.ofString specifier)).normalize.WellFormed :=
      ((wellFormed_ofChars _).append (wellFormed_ofChars _)).normalize
    calc resolve (normalize specifier referrer) (.ofString directory)
        = ((Path.ofString directory).append
            ((directoryOf referrer).append (.ofString specifier)).normalize).normalize := by
          rw [normalize_of_isRelative hrelative hspecifier, resolve, ofString_text_eq hwell]
      _ = (((Path.ofString directory).append (directoryOf referrer)).append
            (.ofString specifier)).normalize := by
          rw [normalize_append_normalize hdirectory, append_assoc]
      _ = resolve specifier (resolve referrer (.ofString directory)).parent := by
          rw [parent_resolve hordinary hreferrer, resolve,
            normalize_normalize_append (isAbsolute_append _ hdirectory)]
  refine ⟨hboth, ?_⟩
  intro hplain
  have hwell : (Path.ofString directory).WellFormed := wellFormed_ofChars _
  have hparent : (resolve referrer (.ofString directory)).parent.isAbsolute = true :=
    isAbsolute_append _ hdirectory
  have hnonempty : ((resolve referrer (.ofString directory)).parent.append
      (.ofString specifier)).normalize ≠ ⟨.relative, []⟩ := by
    intro hempty
    have habsolute := isAbsolute_append (.ofString specifier) hparent
    rw [← isAbsolute_normalize, hempty] at habsolute
    cases habsolute
  rw [hboth, normalize_of_isRelative hrelative hspecifier,
    directoryOf_text_resolve hordinary hreferrer hwell (backslash_not_mem_segments hplain), text,
    if_neg hnonempty]
  rfl

/-- A specifier and a name that both climb above the root. -/
theorem resolve_normalize_specifier_climbing :
    (normalize "../../../z.js" "../../../x/y.js" = "../../../../../z.js" ∧
      (resolve "../../../x/y.js" (.ofString "/a/b")).text = "/x/y.js") ∧
    resolve (normalize "../../../z.js" "../../../x/y.js") (.ofString "/a/b")
      = resolve "../../../z.js" (resolve "../../../x/y.js" (.ofString "/a/b")).parent ∧
    normalize "../../../z.js" (resolve "../../../x/y.js" (.ofString "/a/b")).text
      = (resolve (normalize "../../../z.js" "../../../x/y.js") (.ofString "/a/b")).text := by
  obtain ⟨hpath, hname⟩ := resolve_normalize_specifier "/a/b" "../../../x/y.js" "../../../z.js"
    (by decide) (by decide) (by decide) (by decide) (by decide)
  exact ⟨by decide +kernel, hpath, hname (by decide)⟩

end Bundler.ModuleName
