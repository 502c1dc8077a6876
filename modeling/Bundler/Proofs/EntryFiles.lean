import Bundler.Proofs.DependencyLists
import Bundler.Proofs.SharedFiles

/-!
# The files of entries of merged requests

The name of a merged entry is made absolute, then relative to the directory of the output, then
normalized as a module name, and last it gets an extension. The file it is read from is the one that
its absolute name stands for. Only an entry outside of the directory of the output has a name that
is seen from a referrer.
-/

namespace Bundler

/-! ### Paths in normal form -/

namespace Path

variable {p q : Path}

/-- Absolute paths that start alike and lead to the same place have the same normal form. -/
lemma normalize_eq_of_place (hanchor : p.anchor = q.anchor) (hplace : p.place = q.place) :
    p.normalize = q.normalize := by
  rw [Path.mk.injEq]
  exact ⟨hanchor, hplace⟩

/-- Whether a path is normalized before it is seen from a directory makes no difference. -/
lemma anchor_append_normalize (p q : Path) :
    (p.append q.normalize).anchor = (p.append q).anchor := by
  cases hq : q.isAbsolute with
  | true => rw [append_absolute p hq, append_absolute p (q := q.normalize) hq, normalize]
  | false => rw [append_relative p hq, append_relative p (q := q.normalize) hq]

lemma anchor_append_relative (p : Path) (hq : q.isAbsolute = false) :
    (p.append q).anchor = p.anchor := by
  rw [append_relative p hq]

end Path

namespace ModuleName

open Bundler.Path Text

variable {directory q : Path} {tail : String}

/-- A name in a directory that is seen from another one leads to the same file as its absolute
name. -/
lemma normalize_locate_below (hdirectory : directory.isAbsolute = true)
    (hwell : directory.WellFormed) (hq : q.WellFormed) (htail : IsTail tail) :
    (Load.Source.locate directory (below q.normalize tail)).normalize
      = (Path.ofString (below (directory.append q).normalize tail)).normalize := by
  have hrelative : (Path.ofString tail).isAbsolute = false := by
    simp [Path.isAbsolute, Path.ofString, ofChars, anchorOf_eq_relative_iff.mpr htail.head?_ne]
  have habsolute := isAbsolute_append q.normalize hdirectory
  have habsolute' : (directory.append q).normalize.isAbsolute = true :=
    isAbsolute_append q hdirectory
  rw [Load.Source.locate, ofString_below hq.normalize htail.head?_ne,
    ofString_below (hwell.append hq).normalize htail.head?_ne, ← append_assoc]
  apply normalize_eq_of_place
  · rw [anchor_append_relative _ hrelative, anchor_append_relative _ hrelative,
      anchor_append_normalize]
    rfl
  · apply place_append_congr habsolute habsolute'
    rw [place_append_normalize hdirectory, place_normalize]

/-- A way that leads up first is seen from a referrer. -/
lemma isRelative_text_up {up : Nat} {ss : List String} {s : String}
    (hq : IsDirectory ⟨.relative, List.replicate (up + 1) ".." ++ ss⟩)
    (hbackslash : '\\' ∉ s.toList) :
    isRelative (forward (Path.text ⟨.relative, List.replicate (up + 1) ".." ++ ss ++ [s]⟩))
      = true := by
  rw [forward_text _ hq.plain hbackslash, directoryText, List.replicate_succ]
  simp [anchorText, isRelative]

end ModuleName

namespace Compile

open Bundler.Path Bundler.Text Load Load.Source ModuleName WorkM Bundler.Units

variable {request : Request} {w : Workspace} {entry : Entry} {reporting : Bool} {nesting : Nat}
  {work : Work (Record (List (Value × String)))}

/-! ### Where entries are read -/

/-- The path that a merged request reads an entry from. -/
def Request.readPath (request : Request) (w : Workspace) (entry : Entry) : Except Failure Path := do
  let entry ← (Entry.resolveIn w (request.start w) (request.directory w) entry).mapError .file
  let name ← nameOf request.mergeOptions entry
  .ok (locate (request.directory w) name)

/-- The absolute path of an entry. -/
def Request.named (request : Request) (w : Workspace) (entry : Entry) : Path :=
  Path.resolve entry.name (request.start w)

/-- The way from the directory of the output to an entry. -/
def Request.wayTo (request : Request) (w : Workspace) (entry : Entry) : List String :=
  Path.wayTo (request.directory w).segments (request.named w entry).segments

/-- The referrer that the way to an entry is seen from. There is none for an entry below the
directory of the output. -/
def Request.viewpoint (request : Request) (w : Workspace) (entry : Entry) : Except Failure String :=
  if (request.directory w).segments <+: (request.named w entry).segments then .ok ""
  else referrerText request.mergeOptions.referrerName

/-- The absolute path that the way to an entry leads to, seen from a referrer. -/
def Request.seen (request : Request) (w : Workspace) (entry : Entry) (referrer : String) : Path :=
  (((request.directory w).append (directoryOf referrer)).append
    ⟨.relative, request.wayTo w entry⟩).normalize

/-- The way to an entry goes up by `..` and then down to a last segment. -/
structure IsWayOf (request : Request) (w : Workspace) (entry : Entry) (up : Nat) (ss : List String)
    (s : String) : Prop where
  way : request.wayTo w entry = List.replicate up ".." ++ ss ++ [s]
  directory : IsDirectory ⟨.relative, List.replicate up ".." ++ ss⟩
  down : ".." ∉ ss
  segment : IsSegmentText s
  plain : '\\' ∉ s.toList
  ne_up : s ≠ ".."
  inside : (request.directory w).segments <+: (request.named w entry).segments ↔ up = 0
  named : ∃ front, (request.named w entry).segments = front ++ [s] ∧
    (request.directory w).segments.take ((request.directory w).segments.length - up) ++ ss = front

lemma exists_isWayOf (hbase : (request.start w).isAbsolute = true)
    (hwell : (request.start w).WellFormed)
    (houtside : ¬ (request.named w entry).segments <+: (request.directory w).segments)
    (hplain : ∀ s ∈ request.wayTo w entry, '\\' ∉ s.toList) :
    ∃ up ss s, IsWayOf request w entry up ss s := by
  have hsegments : (request.named w entry).WellFormed :=
    (hwell.append (wellFormed_ofChars _)).normalize
  have hup : ".." ∉ (request.named w entry).segments := not_mem_place (isAbsolute_append _ hbase)
  obtain ⟨shared, behind, ss, s, hdirectory, hnamed, hway, hinside⟩ := exists_wayTo_last houtside
  have hmem : ∀ t ∈ ss ++ [s],
      t ∈ (request.named w entry).segments ∧ t ∈ request.wayTo w entry := by
    intro t ht
    rw [hnamed, Request.wayTo, hway, List.append_assoc, List.append_assoc]
    exact ⟨List.mem_append_right _ ht, List.mem_append_right _ ht⟩
  have hlast := hmem s (by simp)
  have hss : ∀ t ∈ ss, t ∈ ss ++ [s] := fun t ht => List.mem_append_left _ ht
  have hdown : ".." ∉ ss := fun h => hup (hmem _ (hss _ h)).1
  refine ⟨behind.length, ss, s, hway, ?_, hdown, hsegments s hlast.1, hplain s hlast.2, ?_, hinside,
    shared ++ ss, hnamed, ?_⟩
  · exact isDirectory_way _ (fun t ht => hsegments t (hmem t (hss t ht)).1) hdown
      fun t ht => hplain t (hmem t (hss t ht)).2
  · rintro rfl
    exact hup hlast.1
  · rw [hdirectory]
    simp

variable {up : Nat} {ss : List String} {s referrer : String}

/-- The relative name of an entry is its way. -/
lemma IsWayOf.resolveIn (h : IsWayOf request w entry up ss s)
    (hbase : (request.start w).isAbsolute = true) :
    Entry.resolveIn w (request.start w) (request.directory w) entry = .ok { entry with
      name := Path.text ⟨.relative, List.replicate up ".." ++ ss ++ [s]⟩ } := by
  have hdirectory : (request.directory w).isAbsolute = true := isAbsolute_append _ hbase
  have hslashed : slashed (Path.text ⟨.relative, List.replicate up ".." ++ ss ++ [s]⟩)
      = Path.text ⟨.relative, List.replicate up ".." ++ ss ++ [s]⟩ := by
    apply slashed_text
    intro t ht
    rcases List.mem_append.mp ht with ht | ht
    · exact h.directory.plain t ht
    · rw [List.mem_singleton.mp ht]
      exact h.plain
  rw [Entry.resolveIn_eq w entry hbase hdirectory (not_mem_segments_directory hdirectory),
    ← hslashed, ← h.way]
  rfl

/-- The way to an entry is seen from its viewpoint. -/
lemma IsWayOf.seenFrom (h : IsWayOf request w entry up ss s) :
    ModuleName.seenFrom (Path.text ⟨.relative, List.replicate up ".." ++ ss ++ [s]⟩)
        request.mergeOptions.referrerName
      = (request.viewpoint w entry).map
        (normalize (Path.text ⟨.relative, List.replicate up ".." ++ ss ++ [s]⟩)) := by
  cases up with
  | zero =>
    rw [Request.viewpoint, if_pos (h.inside.mpr rfl)]
    exact seenFrom_of_not_isRelative _
      (isRelative_text_down h.directory h.segment h.plain h.ne_up (by simpa using h.down))
  | succ up =>
    have houtside : ¬ (request.directory w).segments <+: (request.named w entry).segments :=
      fun hinside => absurd (h.inside.mp hinside) (Nat.succ_ne_zero up)
    rw [Request.viewpoint, if_neg houtside, ModuleName.seenFrom, ← forward,
      if_pos (isRelative_text_up h.directory h.plain)]

/-- The directory of the way to an entry is seen from the directory of the referrer. -/
lemma IsWayOf.placeOf (h : IsWayOf request w entry up ss s)
    (hreferrer : request.viewpoint w entry = .ok referrer) :
    ModuleName.placeOf (Path.text ⟨.relative, List.replicate up ".." ++ ss ++ [s]⟩) referrer
      = ((directoryOf referrer).append ⟨.relative, List.replicate up ".." ++ ss⟩).normalize := by
  rw [placeOf_text h.directory h.segment h.plain]
  cases up with
  | zero =>
    rw [Request.viewpoint, if_pos (h.inside.mpr rfl)] at hreferrer
    cases hreferrer
    have hhere : directoryOf "" = ⟨.relative, []⟩ := rfl
    rw [hhere, ite_self]
  | succ up => rw [if_pos (isRelative_text_up h.directory h.plain)]

/-- The directory of the way to an entry, seen from a referrer. -/
def Request.above (request : Request) (w : Workspace) (referrer : String) (up : Nat)
    (ss : List String) : Path :=
  ((request.directory w).append (directoryOf referrer)).append
    ⟨.relative, List.replicate up ".." ++ ss⟩

/-- The way to an entry ends in its last segment, wherever it is seen from. -/
lemma IsWayOf.seen_eq (h : IsWayOf request w entry up ss s) (referrer : String) :
    request.seen w entry referrer = ⟨(request.above w referrer up ss).anchor,
      (request.above w referrer up ss).normalize.segments ++ [s]⟩ := by
  have hway : (⟨.relative, request.wayTo w entry⟩ : Path)
      = (⟨.relative, List.replicate up ".." ++ ss⟩ : Path).append ⟨.relative, [s]⟩ := by
    rw [h.way]
    rfl
  rw [Request.seen, hway, ← append_assoc, normalize_append_segment h.ne_up]
  rfl

lemma IsWayOf.text_seen (h : IsWayOf request w entry up ss s) (referrer : String) :
    (request.seen w entry referrer).text
      = below (request.above w referrer up ss).normalize s := by
  rw [h.seen_eq, ← String.toList_inj, toList_text_concat, toList_below]
  rfl

/-- The path that an entry is read from leads where its way leads, seen from its viewpoint. -/
lemma IsWayOf.readPath (h : IsWayOf request w entry up ss s)
    (hbase : (request.start w).isAbsolute = true) (hwell : (request.start w).WellFormed) :
    (request.readPath w entry).map Path.normalize = (do
      let referrer ← request.viewpoint w entry
      let text ← complete (request.seen w entry referrer).text request.mergeOptions
      .ok (Path.ofString text).normalize) := by
  rw [Request.readPath, h.resolveIn hbase]
  simp only [Except.mapError, bind, Except.bind, nameOf, canonical, h.seenFrom, h.text_seen]
  cases hreferrer : request.viewpoint w entry with
  | error failure => rfl
  | ok referrer =>
    simp only [Except.map]
    rw [normalize_text h.directory h.segment h.plain h.ne_up, h.placeOf hreferrer, complete_below,
      complete_below]
    cases htail : complete s request.mergeOptions with
    | error failure => rfl
    | ok tail =>
      have hdirectory : (request.directory w).isAbsolute = true := isAbsolute_append _ hbase
      have htarget : (request.target w).WellFormed :=
        (hwell.append (wellFormed_ofChars _)).normalize
      have hsegments : (request.directory w).WellFormed :=
        fun t ht => htarget t (List.dropLast_subset _ ht)
      have hway : ((directoryOf referrer).append
          ⟨.relative, List.replicate up ".." ++ ss⟩).WellFormed :=
        (wellFormed_ofChars _).append h.directory.wellFormed
      refine congrArg Except.ok ?_
      rw [normalize_locate_below hdirectory hsegments hway
        (isTail_of_complete h.segment h.plain htail), ← append_assoc]
      rfl

/-- Seen from the directory of the output, the way to an entry leads to its absolute path. -/
lemma IsWayOf.segments_seen (h : IsWayOf request w entry up ss s)
    (hbase : (request.start w).isAbsolute = true)
    (hhere : ((request.directory w).append (directoryOf referrer)).place
      = (request.directory w).place) :
    (request.seen w entry referrer).segments = (request.named w entry).segments := by
  have hdirectory : (request.directory w).isAbsolute = true := isAbsolute_append _ hbase
  obtain ⟨front, hnamed, hfront⟩ := h.named
  have hseen : (request.above w referrer up ss).place = front := by
    rw [Request.above, place_append_congr (isAbsolute_append _ hdirectory) hdirectory hhere, place,
      segments_normalize_append hdirectory (not_mem_segments_directory hdirectory) rfl rfl h.down,
      hfront]
  rw [h.seen_eq, hnamed, ← hseen]
  rfl

/-- The way to an entry ends in the last segment of its name. -/
lemma IsWayOf.last (h : IsWayOf request w entry up ss s) (hordinary : IsOrdinary entry.name)
    (hplain : '\\' ∉ entry.name.toList) : afterLast '/' entry.name.toList = s.toList := by
  have hforward : forward entry.name = entry.name.toList := swap_of_not_mem hplain
  have hname : Path.ofString entry.name = (ofChars (throughLast '/' (forward entry.name))).append
      ⟨.relative, [lastOf entry.name]⟩ := by
    rw [Path.ofString, ← hforward, ofChars_forward hordinary]
  obtain ⟨front, hsegments, -⟩ := h.named
  rw [Request.named, Path.resolve, hname, ← append_assoc,
    normalize_append_segment (lastOf_ne_up hordinary)] at hsegments
  obtain ⟨-, hlast⟩ := List.append_inj' hsegments rfl
  rw [← List.singleton_inj.mp hlast, lastOf, hforward, String.toList_ofList]

/-- The absolute path that the way to an entry leads to has an extension exactly if the name of the
entry has one. -/
lemma IsWayOf.hasExtension_seen (h : IsWayOf request w entry up ss s)
    (hordinary : IsOrdinary entry.name) (hplain : '\\' ∉ entry.name.toList) (referrer : String) :
    hasExtension (request.seen w entry referrer).text = hasExtension entry.name := by
  rw [h.text_seen, hasExtension_below, hasExtension, hasExtension, h.last hordinary hplain,
    afterLast_of_not_mem h.segment.2]

/-! ### What entries are read -/

/-- The tree of a merged request has a unit for every entry, made from the file that the entry is
read from. -/
lemma exists_unit_of_entry {tree : Tree} (hbase : (request.start work.workspace).isAbsolute = true)
    (hentry : entry ∈ request.entries)
    (h : (carryOut (merge (Source.loader reporting nesting) request) work).1 = .ok (some tree)) :
    ∃ entries path, request.entriesIn work.workspace = .ok entries ∧
      request.readPath work.workspace entry = .ok path ∧
      ∃ unit ∈ Element.units tree, MadeDuring (request.view work)
        (request.compile (Source.loader reporting nesting) entries work).2.notes
        (IsMadeFrom (request.directory work.workspace) request.mergeOptions path.place) unit := by
  obtain ⟨entries, hentries, htree⟩ := merge_ok h
  obtain ⟨asked, loaded, hasked, hunits⟩ := compileEntries_adds htree
  obtain ⟨entry', hentry', hresolved⟩ := (mem_of_mapM_eq_ok hentries).1 entry hentry
  obtain ⟨name, hname, hnameOf⟩ := (mem_of_mapM_eq_ok hasked).1 entry' hentry'
  obtain ⟨unit, hunit, rfl⟩ := hunits.exists_unit (hunits.asked_subset hname)
  have hdirectory : (request.directory work.workspace).isAbsolute = true :=
    isAbsolute_append _ hbase
  refine ⟨entries, locate (request.directory work.workspace) unit.name, hentries, ?_, unit, hunit,
    madeFrom_location hdirectory (hunits.made_of_mem unit hunit)⟩
  rw [Request.readPath, Request.start, hresolved]
  simp only [Except.mapError, bind, Except.bind, hnameOf]

/-- A merged request reads an entry from the file that its name stands for, with the extension of
the options if the name has none; an entry outside of the directory of the output is seen from the
referrer, which makes no difference if there is none or it is in that directory. The entry is not a
directory that the output lies in. -/
theorem merge_readsNamed (hbase : (request.start work.workspace).isAbsolute = true)
    (hwell : (request.start work.workspace).WellFormed) (hentry : entry ∈ request.entries)
    (hordinary : IsOrdinary entry.name) (hplain : '\\' ∉ entry.name.toList)
    (houtside : ¬ (request.named work.workspace entry).segments
      <+: (request.directory work.workspace).segments)
    (hway : ∀ s ∈ request.wayTo work.workspace entry, '\\' ∉ s.toList) :
    ((request.readPath work.workspace entry).map Path.normalize = do
      let referrer ← request.viewpoint work.workspace entry
      let text ← complete (request.seen work.workspace entry referrer).text request.mergeOptions
      .ok (Path.ofString text).normalize) ∧
    (∀ referrer,
      hasExtension (request.seen work.workspace entry referrer).text = hasExtension entry.name ∧
      (request.seen work.workspace entry referrer).anchor
        = ((request.directory work.workspace).append (directoryOf referrer)).anchor ∧
      (((request.directory work.workspace).append (directoryOf referrer)).place
          = (request.directory work.workspace).place →
        (request.seen work.workspace entry referrer).segments
          = (request.named work.workspace entry).segments)) ∧
    ∀ tree, (carryOut (merge (Source.loader reporting nesting) request) work).1 = .ok (some tree) →
      ∃ entries path, request.entriesIn work.workspace = .ok entries ∧
        request.readPath work.workspace entry = .ok path ∧
        ∃ unit ∈ Element.units tree, MadeDuring (request.view work)
          (request.compile (Source.loader reporting nesting) entries work).2.notes
          (IsMadeFrom (request.directory work.workspace) request.mergeOptions path.place) unit := by
  obtain ⟨up, ss, s, h⟩ := exists_isWayOf hbase hwell houtside hway
  refine ⟨h.readPath hbase hwell, ?_, fun tree => exists_unit_of_entry hbase hentry⟩
  intro referrer
  refine ⟨h.hasExtension_seen hordinary hplain referrer, ?_, h.segments_seen hbase⟩
  rw [h.seen_eq]
  rfl

/-- An entry beside the directory of the output that is seen from no referrer. -/
theorem readsNamed_nestedProject :
    (nestedRequest.start nestedProject.workspace).isAbsolute = true ∧
    (nestedRequest.readPath nestedProject.workspace ⟨"main.js", .module⟩).map Path.normalize
      = .ok ⟨.root, ["p", "main.js"]⟩ ∧
    ∃ entries path, nestedRequest.entriesIn nestedProject.workspace = .ok entries ∧
      nestedRequest.readPath nestedProject.workspace ⟨"main.js", .module⟩ = .ok path ∧
      ∃ unit ∈ Element.units nestedTree, MadeDuring (nestedRequest.view nestedProject)
        (nestedRequest.compile (Source.loader false 8) entries nestedProject).2.notes
        (IsMadeFrom ⟨.root, ["p", "out"]⟩ nestedRequest.mergeOptions path.place) unit := by
  have hwell : (nestedRequest.start nestedProject.workspace).WellFormed := by
    intro s hs
    rw [List.mem_singleton.mp hs]
    exact ⟨rfl, by decide⟩
  have hentry : (⟨"main.js", .module⟩ : Entry) ∈ nestedRequest.entries := by decide
  obtain ⟨hread, -, hmade⟩ := @merge_readsNamed _ _ false 8 _ rfl hwell hentry
    (by decide) (by decide) (by decide +kernel) (by decide +kernel)
  refine ⟨rfl, ?_, hmade nestedTree merge_nested⟩
  rw [hread]
  exact eq_ok_of_toOption (by decide +kernel)

/-- A request with a referrer in another directory. -/
def referringRequest : Request where
  output := "/p/out/app.js"
  entries := [⟨"main.js", .module⟩]
  options := some { referrerName := .text "r/x" }
  base := some "/p"

/-- A request whose entry is the directory of its output. -/
def enclosingRequest : Request where
  output := "/p/out/app.js"
  entries := [⟨"out", .module⟩]
  options := none
  base := some "/p"

/-- A request below a directory whose name has a backslash. -/
def separatedRequest : Request where
  output := "/p/out/app.js"
  entries := [⟨"main.js", .module⟩]
  options := none
  base := some "/p/a\\b"

/-- An entry of the request with an ordinary name is not read from the file that the name stands
for. -/
def Request.IsMisread (request : Request) (w : Workspace) : Prop :=
  (request.start w).isAbsolute = true ∧ isAbsoluteText request.output = true ∧
    ∃ entry ∈ request.entries, IsOrdinary entry.name ∧ '\\' ∉ entry.name.toList ∧
      ((request.readPath w entry).map Path.normalize).toOption
        ≠ ((complete (request.named w entry).text request.mergeOptions).map
          fun text => (Path.ofString text).normalize).toOption

/-- An entry need not be read from the file that its name stands for. With a referrer, one beside the
directory of the output may be taken for one in it, that directory itself has no name there, and a
backslash on the way is taken for a slash. -/
theorem not_always_readsNamed :
    referringRequest.IsMisread nestedProject.workspace ∧
    enclosingRequest.IsMisread nestedProject.workspace ∧
    separatedRequest.IsMisread nestedProject.workspace := by
  unfold Request.IsMisread
  decide +kernel

end Compile

end Bundler
