import Bundler.Proofs.KeptFiles
import Bundler.Proofs.SideBySide
import Bundler.Proofs.Writing

/-!
# Relative paths

A relative path leads from the current directory to where its absolute form leads from the root.
Files are read and written through it alike, and directories are made alike; only what failures tell
is different. The absolute form may be too long, though, where the path is not, and the other way
round.
-/

namespace Bundler

namespace Path

/-- The absolute form of a path, seen from a location. -/
def rootedAt (loc : Location) (p : Path) : Path := ((Workspace.pathOf loc).append p).normalize

lemma isAbsolute_rootedAt (loc : Location) (p : Path) : (p.rootedAt loc).isAbsolute = true :=
  isAbsolute_append p rfl

lemma rootedAt_of_isAbsolute {p : Path} (loc : Location) (hnormal : p.normalize = p)
    (habsolute : p.isAbsolute = true) : p.rootedAt loc = p := by
  rw [rootedAt, append_absolute _ habsolute, hnormal]

/-- Against the absolute form of a base directory a name is resolved to the absolute form. -/
lemma resolve_append (loc : Location) (base : Path) (name : String) :
    resolve name ((Workspace.pathOf loc).append base) = (resolve name base).rootedAt loc := by
  rw [resolve, append_assoc, rootedAt, resolve, normalize_append_normalize rfl]

lemma append_here (loc : Location) :
    (Workspace.pathOf loc).append ⟨.relative, []⟩ = Workspace.pathOf loc := by
  rw [append_relative _ rfl, Workspace.pathOf, List.append_nil]

/-- The absolute form of the current directory is its location. -/
lemma rootedAt_here {loc : Location} (hloc : ".." ∉ loc) :
    (⟨.relative, []⟩ : Path).rootedAt loc = Workspace.pathOf loc := by
  rw [rootedAt, append_here]
  exact normalize_eq_self hloc

/-- A path in normal form that goes on downwards is in normal form. -/
lemma normalize_concat {p : Path} {ss : List String} (hnormal : p.normalize = p) (h : ".." ∉ ss) :
    (⟨p.anchor, p.segments ++ ss⟩ : Path).normalize = ⟨p.anchor, p.segments ++ ss⟩ := by
  have hplace : (⟨p.anchor, p.segments ++ ss⟩ : Path).place = p.segments ++ ss :=
    (place_concat p h).trans (congrArg (· ++ ss) (congrArg segments hnormal))
  exact Path.mk.injEq .. |>.mpr ⟨rfl, hplace⟩

/-- Its absolute form goes on in the same way. -/
lemma rootedAt_concat {ss : List String} (loc : Location) (p : Path) (h : ".." ∉ ss) :
    (⟨p.anchor, p.segments ++ ss⟩ : Path).rootedAt loc
      = { p.rootedAt loc with segments := (p.rootedAt loc).segments ++ ss } := by
  rw [rootedAt, append_segments]
  exact Path.mk.injEq .. |>.mpr ⟨rfl, place_concat _ h⟩

/-- The absolute form of a file in the current directory. -/
lemma rootedAt_file {loc : Location} {file : String} (hloc : ".." ∉ loc) (hfile : file ≠ "..") :
    (⟨.relative, [file]⟩ : Path).rootedAt loc = Workspace.pathOf (loc ++ [file]) := by
  have hmem : ".." ∉ [file] := by simpa using hfile.symm
  have hconcat := rootedAt_concat loc ⟨.relative, []⟩ hmem
  rw [rootedAt_here hloc] at hconcat
  exact hconcat

/-- The relative path that goes up and then down. -/
def climbing (up : Nat) (down : List String) : Path := ⟨.relative, List.replicate up ".." ++ down⟩

/-- The absolute path that leads from the root to where one comes from a location by going up and then
down. -/
def landing (loc : Location) (up : Nat) (down : List String) : Path :=
  ⟨.root, loc.take (loc.length - up) ++ down⟩

lemma parent_climbing (up : Nat) (above : List String) (last : String) :
    (climbing up (above ++ [last])).parent = climbing up above := by
  rw [climbing, parent, ← List.append_assoc, List.dropLast_concat]
  rfl

lemma parent_landing (loc : Location) (up : Nat) (above : List String) (last : String) :
    (landing loc up (above ++ [last])).parent = landing loc up above := by
  rw [landing, parent, ← List.append_assoc, List.dropLast_concat]
  rfl

/-- A relative path in normal form goes up and then down. -/
lemma exists_climbing {loc : Location} {p : Path} (hloc : ".." ∉ loc) (hnormal : p.normalize = p)
    (hrelative : p.isAbsolute = false) : ∃ up down, p = climbing up down ∧
      p.rootedAt loc = landing loc up down := by
  obtain ⟨up, down, hsegments, hdown, -⟩ := isNormal_collapse p.isAbsolute p.segments
  have hsplit : p.segments = List.replicate up ".." ++ down := by
    rw [← hsegments]
    exact (congrArg segments hnormal).symm
  refine ⟨up, down, ?_, ?_⟩
  · rw [climbing, ← hsplit]
    obtain ⟨anchor, segments⟩ := p
    obtain rfl : anchor = .relative := by simpa [isAbsolute] using hrelative
    rfl
  · have hlands : ((Workspace.pathOf loc).append p).normalize.segments
        = loc.take (loc.length - up) ++ down :=
      segments_normalize_append rfl hloc hrelative hsplit hdown
    rw [rootedAt, append_relative _ hrelative] at *
    exact Path.mk.injEq .. |>.mpr ⟨rfl, hlands⟩

end Path

namespace Workspace

open Bundler.Path

variable {w w' : Workspace} {loc : Location} {p : Path} {up : Nat} {down above : List String}
  {last : String}

/-! ### Paths made absolute -/

/-- A path seen from the current directory is made absolute in one step or in two. -/
lemma absolute_append (hcwd : w.cwd = some loc) (p : Path) :
    w.absolute ((pathOf loc).append p) = w.absolute p := by
  unfold absolute cwdPath
  rw [hcwd]
  have habsolute : ((pathOf loc).append p).isAbsolute = true := Path.isAbsolute_append _ rfl
  rw [if_pos habsolute]
  split
  · next hp => rw [Path.append_absolute _ hp]
  · rfl

/-- Nor does it matter whether it is normalized before. -/
lemma absolute_normalize (hcwd : w.cwd = some loc) (p : Path) :
    w.absolute p.normalize = w.absolute p := by
  unfold absolute cwdPath
  rw [hcwd, Path.isAbsolute_normalize]
  split
  · rw [Path.normalize_normalize]
  · simp only [Except.map, Path.normalize_append_normalize (p := pathOf loc) rfl]

/-- The absolute form of a path is absolute already. -/
lemma absolute_rootedAt (hcwd : w.cwd = some loc) (p : Path) :
    w.absolute (p.rootedAt loc) = w.absolute p := by
  rw [rootedAt, absolute_normalize hcwd, absolute_append hcwd]

/-! ### Lengths -/

lemma isTooLong_root_iff (ss : List String) :
    isTooLong ⟨.root, ss⟩ = false ↔ Path.sizeOf ss ≤ pathLimit := by
  by_cases hne : ss = []
  · subst hne
    exact iff_of_true rfl (Nat.zero_le _)
  · rw [isTooLong, utf8ByteSize_text_root hne, decide_eq_false_iff_not, Nat.not_lt]

lemma isTooLong_relative_iff (ss : List String) :
    isTooLong ⟨.relative, ss⟩ = false ↔ Path.sizeOf ss ≤ pathLimit + 1 := by
  by_cases hne : ss = []
  · subst hne
    exact iff_of_true rfl (Nat.zero_le _)
  · have hempty : (anchorText .relative).utf8ByteSize = 0 := rfl
    have hsize := utf8ByteSize_intercalate hne
    rw [isTooLong, decide_eq_false_iff_not, Nat.not_lt, text, if_neg (fun h => hne h.2),
      String.utf8ByteSize_append, hempty]
    dsimp only
    omega

/-- A relative path has no more bytes than its absolute form before that is normalized. -/
lemma isTooLong_of_append (hrelative : p.isAbsolute = false)
    (h : isTooLong ((pathOf loc).append p) = false) : isTooLong p = false := by
  rw [append_relative _ hrelative, pathOf, isTooLong_root_iff, Path.sizeOf_append] at h
  obtain ⟨anchor, segments⟩ := p
  obtain rfl : anchor = .relative := by simpa [Path.isAbsolute] using hrelative
  rw [isTooLong_relative_iff]
  dsimp only at h
  omega

lemma isTooLong_climbing_of_concat (h : isTooLong (climbing up (above ++ [last])) = false) :
    isTooLong (climbing up above) = false := by
  unfold climbing at h ⊢
  rw [isTooLong_relative_iff] at h ⊢
  simp only [Path.sizeOf_append] at h ⊢
  omega

lemma isTooLong_landing_of_concat (h : isTooLong (landing loc up (above ++ [last])) = false) :
    isTooLong (landing loc up above) = false := by
  unfold landing at h ⊢
  rw [isTooLong_root_iff] at h ⊢
  simp only [Path.sizeOf_append] at h ⊢
  omega

/-! ### Directories in steps -/

/-- To make a directory is tried first, and if it is made or is there that is all. -/
lemma exists_makingDirectoriesAt_eq (p : Path) :
    ∃ next : Except FileTree.Errno Unit → Steps Workspace (Except PathFault Unit),
      makingDirectoriesAt p.anchor p.segments.reverse = ensuring p >>= next ∧
        next (.ok ()) = pure (.ok ()) := by
  obtain ⟨anchor, ss⟩ := p
  rcases List.eq_nil_or_concat' ss with rfl | ⟨above, last, rfl⟩
  · exact ⟨_, rfl, rfl⟩
  · have hreverse : (above ++ [last]).reverse = last :: above.reverse := by simp
    have hsame : (last :: above.reverse).reverse = above ++ [last] := by simp
    dsimp only
    rw [hreverse, makingDirectoriesAt, hsame]
    exact ⟨_, rfl, rfl⟩

/-- Directories are made from the last one up to the first one that is there. -/
lemma makingDirectoriesAt_parent (hp : p.segments ≠ []) :
    makingDirectoriesAt p.anchor p.segments.reverse = ensuring p >>= fun
      | .error .noEntry =>
        makingDirectoriesAt p.parent.anchor p.parent.segments.reverse >>= fun
          | .error f => pure (.error f)
          | .ok () => ensuring p >>= fun result => pure (result.mapError (fault p))
      | result => pure (result.mapError (fault p)) := by
  obtain ⟨anchor, ss⟩ := p
  obtain ⟨above, last, rfl⟩ := (List.eq_nil_or_concat' ss).resolve_left hp
  have hreverse : (above ++ [last]).reverse = last :: above.reverse := by simp
  have hsame : (last :: above.reverse).reverse = above ++ [last] := by simp
  dsimp only [parent]
  rw [List.dropLast_concat, hreverse, ← hsame]
  rfl

lemma makeDirectoriesAt_of_ensureDirectory (h : w.ensureDirectory p = .ok w') :
    w.makeDirectoriesAt p.anchor p.segments.reverse = (.ok (), w') := by
  obtain ⟨next, hnext, hdone⟩ := exists_makingDirectoriesAt_eq p
  rw [makeDirectoriesAt, hnext, Steps.run_bind, ensuring, Steps.run_once, h]
  dsimp only
  rw [hdone]
  rfl

/-! ### The current directory -/

namespace IsCurrent

/-- The location of the current directory has no `..`. -/
lemma normal (h : w.IsCurrent loc) : ".." ∉ loc := by
  obtain ⟨-, hwalk, -⟩ := h.walk_ok
  have hplace : loc = (pathOf loc).place := FileTree.eq_place_of_walk rfl hwalk
  rw [hplace]
  exact Path.not_mem_place rfl

lemma origin (h : w.IsCurrent loc) (hrelative : p.isAbsolute = false) : w.origin? p = some loc := by
  rw [origin?, hrelative, h.cwd]
  rfl

/-- A path leads from the current directory to where its absolute form leads. -/
lemma read_append (h : w.IsCurrent loc) (hshort : isTooLong ((pathOf loc).append p) = false) :
    (w.read ((pathOf loc).append p)).toOption = (w.read p).toOption := by
  by_cases habsolute : p.isAbsolute = true
  · rw [append_absolute _ habsolute]
  have hrelative : p.isAbsolute = false := by simpa using habsolute
  have hshort' := isTooLong_of_append hrelative hshort
  rw [append_relative _ hrelative] at hshort ⊢
  apply read_congr
  · have hplain : (loc.any fun s => s.toList.contains '\x00') = false := h.plain
    simp only [holdsNull, pathOf, List.any_append, hplain, Bool.false_or]
  · have hfound : w.files.look [] (loc ++ p.segments) = w.files.look loc p.segments := by
      have hwalk : w.files.walk [] (loc ++ p.segments) = w.files.walk loc p.segments := by
        rw [FileTree.walk_append, h.walk_ok.2.1]
        rfl
      rw [FileTree.look, hwalk, FileTree.look]
    have hroot : w.origin? ⟨(pathOf loc).anchor, (pathOf loc).segments ++ p.segments⟩ = some [] :=
      rfl
    rw [look, look, hshort, hshort', h.origin hrelative, hroot]
    dsimp only [pathOf]
    rw [hfound]

/-! ### Ways up and down -/

lemma walk_climbing (h : w.IsCurrent loc) (up : Nat) (ss : List String) :
    w.files.walk loc (List.replicate up ".." ++ ss)
      = w.files.walk [] (loc.take (loc.length - up) ++ ss) := by
  obtain ⟨-, hwalk, hnode⟩ := h.walk_ok
  have hwhole := w.files.walk_append [] loc (List.replicate up ".." ++ ss)
  rw [hwalk] at hwhole
  exact hwhole.symm.trans (FileTree.walk_detour h.normal hwalk hnode up ss)

/-- Going up makes paths no longer. -/
lemma isTooLong_up (h : w.IsCurrent loc) (up : Nat) : isTooLong (landing loc up []) = false := by
  have hle := Path.sizeOf_le_of_sublist (List.take_sublist (loc.length - up) loc)
  have hshort := (isTooLong_root_iff loc).mp h.walk_ok.1
  rw [landing, List.append_nil, isTooLong_root_iff]
  omega

/-- One comes to a directory by going up. -/
lemma walk_up (h : w.IsCurrent loc) (up : Nat) :
    ".." ∉ loc.take (loc.length - up) ∧
      w.files.walk [] (loc.take (loc.length - up)) = .ok (loc.take (loc.length - up)) ∧
      w.files.node? (loc.take (loc.length - up)) = some .directory :=
  ⟨fun hmem => h.normal (List.mem_of_mem_take hmem),
    FileTree.walk_take h.normal h.walk_ok.2.1 h.walk_ok.2.2 (loc.length - up)⟩

lemma look_climbing (h : w.IsCurrent loc) (hshort : isTooLong (climbing up down) = false)
    (hshort' : isTooLong (landing loc up down) = false) :
    w.look (climbing up down) = w.look (landing loc up down) := by
  have hfound : w.files.look loc (climbing up down).segments
      = w.files.look [] (landing loc up down).segments := by
    rw [FileTree.look, FileTree.look, climbing, landing, h.walk_climbing]
  have hroot : w.origin? (landing loc up down) = some [] := rfl
  rw [look, look, hshort, hshort', h.origin rfl, hroot]
  dsimp only
  rw [hfound]

/-- The slot of a path that does not only go up is that of its absolute form. -/
lemma slot_climbing (h : w.IsCurrent loc)
    (hshort : isTooLong (climbing up (above ++ [last])) = false)
    (hshort' : isTooLong (landing loc up (above ++ [last])) = false) (whenTaken : FileTree.Errno) :
    w.slot (climbing up (above ++ [last])) whenTaken
      = w.slot (landing loc up (above ++ [last])) whenTaken := by
  have hroot : w.origin? (landing loc up (above ++ [last])) = some [] := rfl
  have hsplit : (climbing up (above ++ [last])).segments
      = (List.replicate up ".." ++ above) ++ [last] := (List.append_assoc _ _ _).symm
  have hsplit' : (landing loc up (above ++ [last])).segments
      = (loc.take (loc.length - up) ++ above) ++ [last] := (List.append_assoc _ _ _).symm
  rw [slot, slot, hshort, hshort', h.origin rfl, hroot, hsplit, hsplit']
  simp only [List.getLast?_concat, List.dropLast_concat, h.walk_climbing]

/-! ### Directories made -/

lemma ensureDirectory_climbing (h : w.IsCurrent loc)
    (hshort : isTooLong (climbing up (above ++ [last])) = false)
    (hshort' : isTooLong (landing loc up (above ++ [last])) = false) :
    w.ensureDirectory (climbing up (above ++ [last]))
      = w.ensureDirectory (landing loc up (above ++ [last])) := by
  rw [ensureDirectory, ensureDirectory, makeDirectory, makeDirectory, isDirectory, isDirectory,
    h.slot_climbing hshort hshort', h.look_climbing hshort hshort']

/-- Nothing can be made where a path only goes up. -/
lemma slot_up (h : w.IsCurrent loc) (hshort : isTooLong (climbing up []) = false)
    (whenTaken : FileTree.Errno) : w.slot (climbing up []) whenTaken = .error whenTaken := by
  cases up with
  | zero =>
    rw [slot, hshort]
    rfl
  | succ up =>
    have hsplit : (climbing (up + 1) []).segments = List.replicate up ".." ++ [".."] := by
      rw [climbing, List.append_nil, List.replicate_succ']
    obtain ⟨-, hwalk, hnode⟩ := h.walk_up up
    have hup := h.walk_climbing up []
    rw [List.append_nil, List.append_nil, hwalk] at hup
    have hstep : w.files.step (loc.take (loc.length - up)) ".."
        = .ok (loc.take (loc.length - up)).dropLast := by
      rw [FileTree.step, hnode]
      rfl
    rw [slot, hshort, h.origin rfl, hsplit]
    simp [hup, hstep, bind, Except.bind]

/-- What one comes to by going up is a directory that is there. -/
lemma ensureDirectory_landing (h : w.IsCurrent loc) (up : Nat) :
    w.ensureDirectory (landing loc up []) = .ok w := by
  obtain ⟨hnormal, hwalk, hnode⟩ := h.walk_up up
  have hsegments : (landing loc up []).segments = loc.take (loc.length - up) := List.append_nil _
  rw [ensureDirectory_eq rfl (hsegments ▸ hnormal) (h.isTooLong_up up), hsegments, hwalk]
  simp [hnode]

lemma ensureDirectory_up (h : w.IsCurrent loc) (hshort : isTooLong (climbing up []) = false) :
    w.ensureDirectory (climbing up []) = .ok w := by
  obtain ⟨-, hwalk, hnode⟩ := h.walk_up up
  have hshort' := h.isTooLong_up up
  have hsegments : (landing loc up []).segments = loc.take (loc.length - up) := List.append_nil _
  have hroot : w.origin? (landing loc up []) = some [] := rfl
  have hlook : w.look (landing loc up []) = .ok (some (loc.take (loc.length - up)), .directory) := by
    rw [look, hshort', hroot, hsegments]
    simp [FileTree.look, hwalk, hnode, bind, Except.bind, Except.map]
  have hdirectory : w.isDirectory (climbing up []) = true := by
    rw [isDirectory, h.look_climbing hshort hshort', hlook]
  rw [ensureDirectory, makeDirectory, h.slot_up hshort]
  simp [bind, Except.bind, hdirectory]

lemma holdsNull_climbing (h : w.IsCurrent loc) (up : Nat) (down : List String) :
    holdsNull (climbing up down) = holdsNull (landing loc up down) := by
  have hups : ((List.replicate up "..").any fun s => s.toList.contains '\x00') = false := by
    rw [List.any_eq_false]
    intro s hs
    rw [List.eq_of_mem_replicate hs]
    decide
  have hplain : ((loc.take (loc.length - up)).any fun s => s.toList.contains '\x00') = false := by
    rw [List.any_eq_false]
    exact fun s hs => List.any_eq_false.mp h.plain s (List.mem_of_mem_take hs)
  rw [holdsNull, holdsNull, climbing, landing, List.any_append, List.any_append, hups, hplain]

lemma holdsNull_landing_up (h : w.IsCurrent loc) (up : Nat) :
    holdsNull (landing loc up []) = false := by
  rw [holdsNull, landing, List.append_nil, List.any_eq_false]
  exact fun s hs => List.any_eq_false.mp h.plain s (List.mem_of_mem_take hs)

lemma makeDirectories_landing (h : w.IsCurrent loc) (up : Nat) :
    w.makeDirectories (landing loc up []) = (.ok (), w) := by
  rw [makeDirectories_eq, h.holdsNull_landing_up]
  exact makeDirectoriesAt_of_ensureDirectory (h.ensureDirectory_landing up)

/-- Nothing needs to be made to come to the current directory, and nothing changes there. -/
lemma stay_pathOf (h : w.IsCurrent loc) :
    w.makeDirectories (pathOf loc) = (.ok (), w) ∧ w.enter (pathOf loc) = .ok w := by
  have hpath : landing loc 0 [] = pathOf loc := by simp [landing, pathOf]
  refine ⟨hpath ▸ h.makeDirectories_landing 0, ?_⟩
  rw [h.enter (.refl [] w.files), ← h.cwd]

/-- The same holds of its relative path. -/
lemma stay_here (h : w.IsCurrent loc) :
    w.makeDirectories ⟨.relative, []⟩ = (.ok (), w) ∧ w.enter ⟨.relative, []⟩ = .ok w := by
  have hpath : landing loc 0 [] = pathOf loc := by simp [landing, pathOf]
  have hensure : w.ensureDirectory (climbing 0 []) = .ok w := h.ensureDirectory_up rfl
  have hlook : w.look (climbing 0 []) = w.look (landing loc 0 []) :=
    h.look_climbing rfl (h.isTooLong_up 0)
  rw [hpath, h.leads] at hlook
  have henter : w.enter (climbing 0 []) = .ok w := by
    rw [Workspace.enter, hlook, ← h.cwd]
    rfl
  exact ⟨makeDirectoriesAt_of_ensureDirectory hensure, henter⟩

/-! ### Files written -/

lemma openFile_climbing (h : w.IsCurrent loc) (hshort : isTooLong (climbing up down) = false)
    (hshort' : isTooLong (landing loc up down) = false) :
    (w.openFile (climbing up down)).toOption = (w.openFile (landing loc up down)).toOption := by
  rcases List.eq_nil_or_concat' down with rfl | ⟨above, last, rfl⟩
  · -- both paths lead to a directory that is there
    have hup : (w.openFile (climbing up [])).toOption = none := by
      rw [openFile, h.slot_up hshort]
      split <;> rfl
    have hland : (w.openFile (landing loc up [])).toOption = none := by
      obtain ⟨hnormal, hwalk, hnode⟩ := h.walk_up up
      have hsegments : (landing loc up []).segments = loc.take (loc.length - up) :=
        List.append_nil _
      rw [openFile, slot_eq rfl (hsegments ▸ hnormal) hshort', hsegments, hwalk]
      by_cases hroot : loc.take (loc.length - up) = []
      · rw [if_pos hroot]
        split <;> rfl
      · rw [if_neg hroot]
        dsimp only
        rw [hnode]
        split <;> rfl
    rw [hup, hland]
  · rw [openFile, openFile, h.holdsNull_climbing, h.slot_climbing hshort hshort']
    split
    · rfl
    · split
      · rfl
      · split <;> rfl

end IsCurrent

/-! ### Step by step -/

/-- The workspaces are the same, with the current directory at a location. -/
def SameAt (loc : Location) (w w' : Workspace) : Prop := w' = w ∧ w.IsCurrent loc

/-- The results are the same but for what failures tell. -/
def SameResult {ε α : Type} (x x' : Except ε α) : Prop := x'.toOption = x.toOption

section Steps

variable {P D : Workspace → Prop} {p' : Path}

lemma SameAt.of_keeps {changing : List Location} (h : w.IsCurrent loc)
    (hkeeps : w.Keeps changing w') : SameAt loc w' w' :=
  ⟨rfl, h.of_keeps hkeeps.cwd hkeeps.files⟩

lemma ensuring_goAlike (h : ∀ w : Workspace, w.IsCurrent loc →
      w.ensureDirectory p' = w.ensureDirectory p) :
    (ensuring p).GoAlike P (SameAt loc) D (fun x x' => x' = x) (ensuring p') := by
  refine .once ?_
  rintro _ w ⟨rfl, hat⟩
  rw [h w hat]
  cases hmade : w.ensureDirectory p with
  | ok made => exact ⟨.of_keeps hat (ensureDirectory_keeps hmade : w.Keeps [] made), rfl⟩
  | error code => exact ⟨⟨rfl, hat⟩, rfl⟩

/-- Nothing is made where a path only goes up. -/
lemma makingDirectoriesAt_up (hshort : isTooLong (climbing up []) = false) (up' : Nat) :
    (makingDirectoriesAt (landing loc up' []).anchor (landing loc up' []).segments.reverse).GoAlike
      P (SameAt loc) D SameResult
      (makingDirectoriesAt (climbing up []).anchor (climbing up []).segments.reverse) := by
  obtain ⟨next, hlanding, hnext⟩ := exists_makingDirectoriesAt_eq (landing loc up' [])
  obtain ⟨next', hclimbing, hnext'⟩ := exists_makingDirectoriesAt_eq (climbing up [])
  rw [hlanding, hclimbing]
  refine Steps.GoAlike.bind (Q := fun x x' => x = .ok () ∧ x' = .ok ()) (.once ?_) ?_
  · rintro _ w ⟨rfl, hat⟩
    rw [hat.ensureDirectory_landing, hat.ensureDirectory_up hshort]
    exact ⟨⟨rfl, hat⟩, rfl, rfl⟩
  · rintro _ _ ⟨rfl, rfl⟩
    rw [hnext, hnext']
    exact .pure rfl

/-- Directories are made through a path as they are through its absolute form. -/
lemma makingDirectoriesAt_climbing (hshort : isTooLong (climbing up down) = false)
    (hshort' : isTooLong (landing loc up down) = false) :
    (makingDirectoriesAt (landing loc up down).anchor (landing loc up down).segments.reverse).GoAlike
      P (SameAt loc) D SameResult
      (makingDirectoriesAt (climbing up down).anchor (climbing up down).segments.reverse) := by
  induction down using List.reverseRecOn with
  | nil => exact makingDirectoriesAt_up hshort up
  | append_singleton above last ih =>
    have hne : (climbing up (above ++ [last])).segments ≠ [] := by simp [climbing]
    have hne' : (landing loc up (above ++ [last])).segments ≠ [] := by simp [landing]
    have hensure := ensuring_goAlike (P := P) (D := D) fun (w : Workspace) (hat : w.IsCurrent loc) =>
      hat.ensureDirectory_climbing hshort hshort'
    rw [makingDirectoriesAt_parent hne, makingDirectoriesAt_parent hne', parent_climbing,
      parent_landing]
    -- only a directory that has nothing above it is tried again
    refine hensure.bind ?_
    rintro (code | _) _ rfl
    · cases code with
      | noEntry =>
        refine (ih (isTooLong_climbing_of_concat hshort)
          (isTooLong_landing_of_concat hshort')).bind ?_
        rintro (fault | _) (fault' | _) hresult
        · exact .pure rfl
        · cases hresult
        · cases hresult
        · refine hensure.bind ?_
          rintro (code | _) _ rfl
          · exact .pure rfl
          · exact .pure rfl
      | _ => exact .pure rfl
    · exact .pure rfl

lemma makingDirectories_climbing (hloc : ∃ w : Workspace, w.IsCurrent loc)
    (hshort : isTooLong (climbing up down) = false)
    (hshort' : isTooLong (landing loc up down) = false) :
    (makingDirectories (landing loc up down)).GoAlike P (SameAt loc) D SameResult
      (makingDirectories (climbing up down)) := by
  obtain ⟨w, hat⟩ := hloc
  unfold makingDirectories
  rw [hat.holdsNull_climbing]
  split
  · exact .pure rfl
  · exact makingDirectoriesAt_climbing hshort hshort'

lemma opening_goAlike (h : ∀ w : Workspace, w.IsCurrent loc →
      (w.openFile p').toOption = (w.openFile p).toOption) :
    (opening p).GoAlike P (SameAt loc) D SameResult (opening p') := by
  refine .once ?_
  rintro _ w ⟨rfl, hat⟩
  have hopen := h w hat
  rcases hopened : w.openFile p with fault | ⟨place, opened⟩ <;>
    rcases hopened' : w.openFile p' with fault' | ⟨place', opened'⟩ <;>
    rw [hopened, hopened'] at hopen <;> cases hopen
  · exact ⟨⟨rfl, hat⟩, rfl⟩
  · obtain ⟨hnode, rfl⟩ := openFile_ok hopened
    have hkeeps : w.Keeps [place] { w with files := w.files.put place (.file .empty) } :=
      ⟨rfl, .put_file _ List.mem_cons_self hnode⟩
    exact ⟨.of_keeps hat hkeeps, rfl⟩

lemma filling_goAlike (place : Location) (text : String) :
    (filling place text).GoAlike P (SameAt loc) D (fun x x' => x' = x) (filling place text) := by
  refine .once ?_
  rintro _ w ⟨rfl, hat⟩
  cases Text.Utf8.encode w.standIns text with
  | error fault => exact ⟨⟨rfl, hat⟩, rfl⟩
  | ok bytes =>
    rcases w.fill_cases place bytes with ⟨-, hfill⟩ | ⟨old, -, hnode, hfill⟩
    · simp only [hfill]
      exact ⟨⟨rfl, hat⟩, trivial⟩
    · simp only [hfill]
      have hkeeps : w.Keeps [place]
          { w with files := w.files.put place (.file (overlay bytes old)) } :=
        ⟨rfl, .put_file _ List.mem_cons_self hnode⟩
      exact ⟨.of_keeps hat hkeeps, trivial⟩

end Steps

end Workspace

namespace Tree

open Bundler.Path Workspace

variable {P D : Workspace → Prop} {w : Workspace} {loc : Location} {up : Nat} {down : List String}

/-- The directories above a path are made as those above its absolute form. -/
lemma makingDirectories_parent (hloc : ∃ w : Workspace, w.IsCurrent loc)
    (hshort : isTooLong (climbing up down) = false)
    (hshort' : isTooLong (landing loc up down) = false) :
    (makingDirectories (landing loc up down).parent).GoAlike P (SameAt loc) D SameResult
      (makingDirectories (climbing up down).parent) := by
  rcases List.eq_nil_or_concat' down with rfl | ⟨above, last, rfl⟩
  · -- all there is above a path that only goes up is there
    have hparent : (climbing up []).parent = climbing (up - 1) [] := by
      simp [climbing, parent]
    have hparent' : (landing loc up []).parent = landing loc (up + 1) [] := by
      simp only [landing, parent, List.append_nil, List.dropLast_eq_take, List.take_take,
        List.length_take]
      congr 2
      omega
    have habove : isTooLong (climbing (up - 1) []) = false := by
      have hle := Path.sizeOf_le_of_sublist
        (List.replicate_sublist_replicate ".." |>.mpr (Nat.sub_le up 1))
      unfold climbing at hshort ⊢
      rw [List.append_nil, isTooLong_relative_iff] at hshort ⊢
      omega
    obtain ⟨w, hat⟩ := hloc
    unfold makingDirectories
    rw [hparent, hparent', hat.holdsNull_landing_up, hat.holdsNull_climbing, hat.holdsNull_landing_up]
    exact makingDirectoriesAt_up habove (up + 1)
  · rw [parent_climbing, parent_landing]
    exact makingDirectories_climbing hloc (isTooLong_climbing_of_concat hshort)
      (isTooLong_landing_of_concat hshort')

/-- Trees are written alike if their directories are made and their files are opened alike. -/
lemma writing_goAlike {p p' : Path}
    (hmaking : (makingDirectories p.parent).GoAlike P (SameAt loc) D SameResult
      (makingDirectories p'.parent))
    (hopening : (Workspace.opening p).GoAlike P (SameAt loc) D SameResult (Workspace.opening p'))
    (tree : Tree) :
    (tree.writing p).GoAlike P (SameAt loc) D SameResult (tree.writing p') := by
  unfold writing
  cases tree.render with
  | error failure => exact .pure rfl
  | ok text =>
    refine hmaking.bind ?_
    rintro (fault | _) (fault' | _) hresult
    · exact .pure rfl
    · cases hresult
    · cases hresult
    refine hopening.bind ?_
    rintro (fault | place) (fault' | place') hresult
    · exact .pure rfl
    · cases hresult
    · cases hresult
    cases hresult
    refine (filling_goAlike place text).bind ?_
    rintro result _ rfl
    exact .pure rfl

/-- A tree is written through a path in normal form as it is through its absolute form, if neither is
too long or they are the same. -/
theorem writing_rootedAt {p : Path} (hloc : ∃ w : Workspace, w.IsCurrent loc)
    (hnormal : p.normalize = p)
    (hshort : p.isAbsolute = true ∨ isTooLong p = false ∧ isTooLong (p.rootedAt loc) = false)
    (tree : Tree) :
    (tree.writing (p.rootedAt loc)).GoAlike P (SameAt loc) D SameResult (tree.writing p) := by
  by_cases habsolute : p.isAbsolute = true
  · rw [rootedAt_of_isAbsolute loc hnormal habsolute]
    refine writing_goAlike ?_ (opening_goAlike fun _ _ => rfl) tree
    exact .refl (fun _ _ h => h.1) (fun _ _ hkeeps h => .of_keeps h.2 hkeeps) (fun _ => rfl)
      (makingDirectories_always p.parent)
  · obtain ⟨hshort, hshort'⟩ := hshort.resolve_left habsolute
    have hrelative : p.isAbsolute = false := by simpa using habsolute
    obtain ⟨w, hat⟩ := hloc
    obtain ⟨up, down, hp, hlands⟩ := exists_climbing hat.normal hnormal hrelative
    rw [hlands] at hshort' ⊢
    rw [hp] at hshort ⊢
    exact writing_goAlike (makingDirectories_parent ⟨w, hat⟩ hshort hshort')
      (opening_goAlike fun w hat => hat.openFile_climbing hshort hshort') tree

/-- So it is in a row. -/
lemma write_rootedAt {p : Path} (hat : w.IsCurrent loc) (hnormal : p.normalize = p)
    (hshort : p.isAbsolute = true ∨ isTooLong p = false ∧ isTooLong (p.rootedAt loc) = false)
    (tree : Tree) :
    SameResult (tree.write w (p.rootedAt loc)).1 (tree.write w p).1 ∧
      (tree.write w p).2 = (tree.write w (p.rootedAt loc)).2 := by
  have halike := writing_rootedAt (P := fun _ => True) (D := fun _ => False) ⟨w, hat⟩ hnormal hshort
    tree
  rcases halike.run (fun _ _ _ => ⟨id, id⟩) (fun _ _ _ => trivial) (.of_true _) ⟨rfl, hat⟩ with
    hnever | ⟨⟨hsame, -⟩, hresult⟩
  · exact hnever.elim
  · exact ⟨hresult, hsame⟩

end Tree

end Bundler
