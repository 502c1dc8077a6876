import Bundler.Path.Relative
import Bundler.Proofs.EntryCounterparts

/-!
# Resolved names

A name that is resolved against an absolute base directory is the text of an absolute path in normal
form, and resolving it again, against whatever directory, leaves it as it is. The relative path from
one absolute path to another goes up and then down, and resolving it where it starts leads back to
where it ends.
-/

namespace Bundler

namespace Path

variable {p : Path} {s d : String}

/-- The text of an absolute path in which no segment is empty, `.` or `..`. -/
structure IsResolved (s : String) : Prop where
  absolute : (ofString s).isAbsolute = true
  written : s = anchorText (ofString s).anchor ++ String.intercalate "/" (ofString s).segments
  plain : ∀ t ∈ (ofString s).segments, t ≠ "" ∧ t ≠ "." ∧ t ≠ ".." ∧ '/' ∉ t.toList

lemma isSegmentText_iff : IsSegmentText s ↔ s ≠ "" ∧ s ≠ "." ∧ '/' ∉ s.toList := by
  have hdot : s.toList = ".".toList ↔ s = "." := String.toList_inj
  rw [IsSegmentText, isSegment_iff, Ne, Ne, String.toList_eq_nil_iff]
  rw [show ['.'] = ".".toList from rfl, hdot, and_assoc]

lemma text_of_isAbsolute (hp : p.isAbsolute = true) :
    p.text = anchorText p.anchor ++ String.intercalate "/" p.segments := by
  have hanchor : p.anchor ≠ .relative := by simpa [isAbsolute] using hp
  rw [text, if_neg fun h => hanchor h.1]

/-- The text of an absolute path in normal form is resolved. -/
lemma isResolved_text (hp : p.isAbsolute = true) (hwell : p.WellFormed)
    (hnormal : ".." ∉ p.segments) : IsResolved p.text := by
  have hread : ofString p.text = p := ofString_text hwell
  refine ⟨?_, ?_, ?_⟩
  · rwa [hread]
  · rw [hread]
    exact text_of_isAbsolute hp
  · intro t ht
    rw [hread] at ht
    obtain ⟨hempty, hdot, hslash⟩ := isSegmentText_iff.mp (hwell t ht)
    refine ⟨hempty, hdot, ?_, hslash⟩
    rintro rfl
    exact hnormal ht

/-- A name seen from an absolute directory is resolved. -/
lemma isResolved_resolve {base : Path} (hbase : base.isAbsolute = true) (hwell : base.WellFormed)
    (name : String) : IsResolved (resolve name base).text :=
  isResolved_text (isAbsolute_append _ hbase) (hwell.append (wellFormed_ofChars _)).normalize
    (not_mem_place (isAbsolute_append _ hbase))

/-- What is resolved stands for itself, seen from anywhere. -/
lemma IsResolved.resolve_text (h : IsResolved s) (base : Path) : (resolve s base).text = s := by
  have hnormal : ".." ∉ (ofString s).segments := fun hmem => (h.plain _ hmem).2.2.1 rfl
  rw [resolve, append_absolute _ h.absolute, normalize_eq_self hnormal,
    text_of_isAbsolute h.absolute]
  exact h.written.symm

/-! ### There and back -/

/-- The text of a path from the root that begins with one slash, or with more than two, and holds no
backslash. -/
def IsPlainRooted (s : String) : Prop := (ofString s).anchor = .root ∧ '\\' ∉ s.toList

instance (s : String) : Decidable (IsPlainRooted s) := inferInstanceAs (Decidable (_ ∧ _))

/-- The path goes up and then down. -/
def GoesUpThenDown (p : Path) : Prop :=
  ∃ up down, p = ⟨.relative, List.replicate up ".." ++ down⟩ ∧ ".." ∉ down

lemma IsPlainRooted.isAbsolute (h : IsPlainRooted s) : (ofString s).isAbsolute = true := by
  rw [Path.isAbsolute, h.1]
  rfl

/-- A way goes up, and down through segments of the place it leads to. -/
lemma exists_climb (start target : List String) :
    ∃ up down, wayTo start target = List.replicate up ".." ++ down ∧ down ⊆ target := by
  obtain ⟨shared, behind, ahead, -, rfl, hway⟩ := exists_wayTo start target
  exact ⟨behind.length, ahead, hway, List.subset_append_right _ _⟩

lemma mem_wayTo {start target : List String} (h : s ∈ wayTo start target) :
    s = ".." ∨ s ∈ target := by
  obtain ⟨up, down, hway, hdown⟩ := exists_climb start target
  rw [hway] at h
  exact (List.mem_append.mp h).imp List.eq_of_mem_replicate fun hmem => hdown hmem

/-- The way between two places, seen from the first one, leads to the second one. -/
lemma place_append_wayTo {start target : Path} (hstart : start.isAbsolute = true)
    (htarget : target.isAbsolute = true) :
    (start.append ⟨.relative, wayTo start.place target.place⟩).place = target.place := by
  obtain ⟨shared, behind, ahead, hshared, hahead, hway⟩ := exists_wayTo start.place target.place
  have hdown : ".." ∉ ahead := by
    have hup := not_mem_place htarget
    rw [hahead] at hup
    exact fun hmem => hup (List.mem_append_right _ hmem)
  have hnormal : start.normalize.isAbsolute = true := hstart
  have hsegments : start.normalize.segments = shared ++ behind := hshared
  rw [place_append_congr hstart hnormal (place_normalize start).symm, place,
    segments_normalize_append hnormal (not_mem_place hstart) rfl hway hdown, hsegments, hahead]
  simp

lemma wellFormed_wayTo (start : List String) (s : String) :
    WellFormed ⟨.relative, wayTo start (ofString s).place⟩ := by
  intro t ht
  rcases mem_wayTo ht with rfl | ht
  · decide
  · exact (wellFormed_ofChars s.toList).normalize t ht

lemma goesUpThenDown_wayTo (start : List String) {target : Path}
    (htarget : target.isAbsolute = true) :
    GoesUpThenDown ⟨.relative, wayTo start target.place⟩ := by
  obtain ⟨up, down, hway, hdown⟩ := exists_climb start target.place
  exact ⟨up, down, congrArg _ hway, fun hmem => not_mem_place htarget (hdown hmem)⟩

/-- Between plain texts the way does not depend on the current directory. -/
lemma relativeName_eq (w : Workspace) (hp : IsPlainRooted s) (hd : IsPlainRooted d) :
    w.relativeName s d
      = .ok (Path.text ⟨.relative, wayTo (ofString d).place (ofString s).place⟩) := by
  have hname : s.isEmpty = false := by
    rw [← Bool.not_eq_true, String.isEmpty_iff]
    rintro rfl
    cases hp.1
  have hplain : ∀ t ∈ wayTo (ofString d).place (ofString s).place, '\\' ∉ t.toList := by
    intro t ht
    rcases mem_wayTo ht with rfl | ht
    · decide
    · exact ModuleName.backslash_not_mem_segments hp.2 t (collapse_subset _ _ ht)
  have hway : w.relative (ofString s) (ofString d)
      = .ok ⟨.relative, wayTo (ofString d).place (ofString s).place⟩ := by
    simp only [Workspace.relative, Workspace.absolute, hp.isAbsolute, hd.isAbsolute, if_true, bind,
      Except.bind, relativeTo, place]
  rw [Workspace.relativeName, hname, Workspace.relativeText, hway]
  exact congrArg Except.ok (ModuleName.slashed_text hplain)

/-- The way to a path, resolved where it starts, is that path. -/
lemma resolve_wayTo (hp : IsPlainRooted s) (hd : IsPlainRooted d) (base : Path) :
    resolve (Path.text ⟨.relative, wayTo (ofString d).place (ofString s).place⟩) (.ofString d)
      = resolve s base := by
  have hplace := place_append_wayTo hd.isAbsolute hp.isAbsolute
  rw [append_relative _ rfl] at hplace
  rw [resolve, resolve, ofString_text (wellFormed_wayTo _ s), append_relative _ rfl,
    append_absolute base hp.isAbsolute]
  exact congrArg₂ Path.mk (hd.1.trans hp.1.symm) hplace

/-- Resolving a name gives an absolute path in normal form, which is not changed by resolving it
again; so resolved entries stay as they are. The relative path from an absolute directory to an
absolute path goes up and then down, and resolved against that directory it is that path. -/
theorem resolve_isStable :
    (∀ name baseText : String, (ofString baseText).isAbsolute = true →
      IsResolved (resolve name (.ofString baseText)).text ∧
      ∀ base, (resolve (resolve name (.ofString baseText)).text base).text
        = (resolve name (.ofString baseText)).text) ∧
    (∀ (w : Workspace) (entries : List Entry) (baseText : String),
      (ofString baseText).isAbsolute = true →
      ∃ resolved, Entry.resolveAll w (.ofString baseText) none entries = .ok resolved ∧
        resolved.map Entry.kind = entries.map Entry.kind ∧
        ∀ w' base, Entry.resolveAll w' base none resolved = .ok resolved) ∧
    ∀ (w : Workspace) (p d : String), IsPlainRooted p → IsPlainRooted d →
      ∃ r, w.relativeName p d = .ok r ∧
        (∀ base, (resolve r (.ofString d)).text = (resolve p base).text) ∧
        (ofString r).text = r ∧ GoesUpThenDown (ofString r) := by
  have hresolved : ∀ name baseText : String, (ofString baseText).isAbsolute = true →
      IsResolved (resolve name (.ofString baseText)).text :=
    fun name _ hbase => isResolved_resolve hbase (wellFormed_ofChars _) name
  refine ⟨?_, ?_, ?_⟩
  · intro name baseText hbase
    exact ⟨hresolved name baseText hbase, (hresolved name baseText hbase).resolve_text⟩
  · intro w entries baseText hbase
    refine ⟨_, rfl, ?_, ?_⟩
    · rw [List.map_map]
      rfl
    · intro w' base
      have hsame : ∀ entry : Entry,
          (entry.resolve (.ofString baseText)).resolve base
            = entry.resolve (.ofString baseText) := by
        intro entry
        rw [Entry.resolve, Entry.resolve, (hresolved entry.name baseText hbase).resolve_text]
      rw [Entry.resolveAll, List.map_map]
      exact congrArg _ (List.map_congr_left fun entry _ => hsame entry)
  · intro w p d hp hd
    have hread := ofString_text (wellFormed_wayTo (ofString d).place p)
    refine ⟨_, relativeName_eq w hp hd, ?_, ?_, ?_⟩
    · intro base
      rw [resolve_wayTo hp hd base]
    · rw [hread]
    · rw [hread]
      exact goesUpThenDown_wayTo _ hp.isAbsolute

/-- A name that climbs above the root, and the way between two paths that part at the root. -/
theorem resolve_isStable_climbing :
    (∃ s, (resolve ".././../..//a/./b.js" (.ofString "/p/q")).text = s ∧ s = "/a/b.js" ∧
      IsResolved s ∧ ∀ base, (resolve s base).text = s) ∧
    (∃ resolved, Entry.resolveAll ⟨.empty, none, ⟨.root, []⟩, []⟩ (.ofString "/p/q") none
        [⟨"../s.js", .script⟩, ⟨"", .module⟩] = .ok resolved ∧
      resolved = [⟨"/p/s.js", .script⟩, ⟨"/p/q", .module⟩] ∧
      ∀ w base, Entry.resolveAll w base none resolved = .ok resolved) ∧
    ∃ r, (⟨.empty, none, ⟨.root, []⟩, []⟩ : Workspace).relativeName "/src/../lib//a.js" "///out/./x/"
        = .ok r ∧
      r = "../../lib/a.js" ∧ (resolve r (.ofString "///out/./x/")).text = "/lib/a.js" ∧
      GoesUpThenDown (ofString r) := by
  obtain ⟨hname, hentries, hway⟩ := resolve_isStable
  refine ⟨?_, ?_, ?_⟩
  · obtain ⟨hresolved, hsame⟩ := hname ".././../..//a/./b.js" "/p/q" (by decide)
    exact ⟨_, rfl, by decide +kernel, hresolved, hsame⟩
  · obtain ⟨resolved, hall, -, hsame⟩ := hentries ⟨.empty, none, ⟨.root, []⟩, []⟩
      [⟨"../s.js", .script⟩, ⟨"", .module⟩] "/p/q" (by decide)
    have hlist : resolved = [⟨"/p/s.js", .script⟩, ⟨"/p/q", .module⟩] := by
      rw [← Except.ok.inj hall]
      decide +kernel
    exact ⟨resolved, hall, hlist, hsame⟩
  · obtain ⟨r, hr, hback, -, hgoes⟩ := hway ⟨.empty, none, ⟨.root, []⟩, []⟩ "/src/../lib//a.js"
      "///out/./x/" (by decide +kernel) (by decide +kernel)
    have htext : r = "../../lib/a.js" := by
      rw [relativeName_eq _ (by decide +kernel) (by decide +kernel)] at hr
      rw [← Except.ok.inj hr]
      decide +kernel
    refine ⟨r, hr, htext, (hback ⟨.root, []⟩).trans ?_, hgoes⟩
    decide +kernel

end Path

end Bundler
