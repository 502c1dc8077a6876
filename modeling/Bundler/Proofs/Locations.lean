import Bundler.FileTree.Workspace
import Bundler.Proofs.Paths

/-!
# Where paths lead to

A path that leads to a file leads to the location that its normal form writes, whatever directories
it goes through. So two paths that are seen from one directory lead to the same file only if they
are equal or one of them makes a detour.
-/

namespace Bundler

open Bundler.Path

namespace FileTree

/-! ### Nodes -/

@[simp] lemma node?_nil (t : FileTree) : t.node? [] = some .directory := by simp [node?]

/-- A write shows at its own location and nowhere else. -/
lemma node?_put (t : FileTree) (loc : Location) (node : Node) (other : Location)
    (h : loc ≠ []) : (t.put loc node).node? other = if other = loc then some node else t.node? other := by
  by_cases ho : other = loc
  · subst ho; simp [node?, put, h]
  · by_cases hn : other = []
    · subst hn; simp [Ne.symm h]
    · have hl : (loc == other) = false := by simpa using Ne.symm ho
      simp only [node?, put, hn, ho, if_false, List.find?_cons, hl]
      congr 1
      induction t.nodes with
      | nil => rfl
      | cons e es ih =>
        by_cases he : e.1 = loc
        · have : (e.1 == other) = false := by rw [he]; exact hl
          simp [he, ih, hl]
        · by_cases heo : e.1 = other <;> simp [he, heo, ih, ho]

/-! ### Walking -/

variable {t : FileTree} {loc loc' : Location} {segment : String} {segments : List String}

/-- A step that succeeds does what a segment does to the segments before it. -/
lemma step_ok (hloc : ".." ∉ loc) (h : t.step loc segment = .ok loc') :
    loc'.reverse = push true loc.reverse segment ∧ ".." ∉ loc' := by
  unfold step at h
  split at h
  · cases h
  · cases h
  · split at h
    · next hup =>
      cases h
      subst hup
      refine ⟨?_, fun hmem => hloc (List.dropLast_subset loc hmem)⟩
      rcases List.eq_nil_or_concat' loc with rfl | ⟨above, last, rfl⟩
      · rfl
      · have hlast : last ≠ ".." := by
          rintro rfl
          simp at hloc
        simp [push, hlast]
    · next hname =>
      split at h
      · cases h
      · cases h
        refine ⟨by simp [push, hname], ?_⟩
        simp [hloc, Ne.symm hname]

/-- A walk that succeeds resolves every `..`. -/
lemma walk_ok (hloc : ".." ∉ loc) (h : t.walk loc segments = .ok loc') :
    loc' = (segments.foldl (push true) loc.reverse).reverse := by
  unfold walk at h
  induction segments generalizing loc with
  | nil =>
    cases h
    simp
  | cons segment segments ih =>
    rw [List.foldlM_cons] at h
    cases hstep : t.step loc segment with
    | error code => rw [hstep] at h; cases h
    | ok next =>
      rw [hstep] at h
      obtain ⟨hnext, hup⟩ := step_ok hloc hstep
      rw [List.foldl_cons, ← hnext]
      exact ih hup h

end FileTree

/-! ### Files at the end of paths -/

namespace Workspace

variable {w : Workspace} {p : Path} {loc : Location}

/-- The location of the file that a path leads to. -/
def fileAt? (w : Workspace) (p : Path) : Option Location :=
  match w.look p with
  | .ok (some loc, .file _) => some loc
  | _ => none

/-- An absolute path leads to what stands at the location that its normal form writes. -/
lemma look_ok {node : Node} {loc : Option Location} (hp : p.isAbsolute = true)
    (h : w.look p = .ok (loc, node)) :
    loc = some p.normalize.segments ∧ w.files.node? p.normalize.segments = some node := by
  unfold look at h
  split at h
  · cases h
  · rw [origin?, if_pos hp] at h
    dsimp only at h
    unfold FileTree.look at h
    cases hwalk : w.files.walk [] p.segments with
    | error code => rw [hwalk] at h; cases h
    | ok reached =>
      have hreached : reached = p.normalize.segments := by
        rw [FileTree.walk_ok (by simp) hwalk, Path.normalize, hp]
        rfl
      rw [hwalk] at h
      cases hnode : w.files.node? reached with
      | none => simp [hnode, bind, Except.bind, Except.map] at h
      | some node' =>
        simp only [hnode, bind, Except.bind, Except.map, Except.ok.injEq, Prod.mk.injEq] at h
        rw [← h.1, ← hreached, hnode, h.2]
        exact ⟨rfl, rfl⟩

/-- What can be read is a file, at the location that the normal form of its path writes. -/
theorem fileAt?_of_read {content : ByteArray} (hp : p.isAbsolute = true)
    (h : w.read p = .ok content) :
    w.fileAt? p = some p.normalize.segments ∧ p.normalize.segments ≠ [] := by
  unfold read at h
  split at h
  · cases h
  · split at h
    · next loc content hlook =>
      obtain ⟨rfl, hnode⟩ := look_ok hp hlook
      refine ⟨by rw [fileAt?, hlook], fun hroot => ?_⟩
      rw [hroot, FileTree.node?_nil] at hnode
      cases hnode
    · cases h
    · cases h

end Workspace

/-! ### Straight ways and detours -/

namespace Path

variable {directory p q : Path}

/-- The number of `..` in front. -/
def climb (p : Path) : Nat := (p.segments.takeWhile (· = "..")).length

/-- The path is not the straight way from a directory: it is absolute, goes up beyond the root, or
goes up and then back into the directory it came from. -/
def Detours (directory p : Path) : Prop :=
  p.isAbsolute = true ∨ directory.segments.length < p.climb ∨ ∃ s,
    directory.segments[directory.segments.length - p.climb]? = some s ∧
      p.segments[p.climb]? = some s

/-- A path goes up and then down; in normal form it goes up no more after that. -/
lemma exists_down {anchored : Bool} (h : IsNormal anchored p.segments) :
    ∃ down, p.segments = List.replicate p.climb ".." ++ down ∧ ".." ∉ down ∧
      p.segments[p.climb]? = down.head? := by
  obtain ⟨up, down, hsegments, hdown, -⟩ := h
  have hclimb : p.climb = up := by
    have hstop : down.takeWhile (· = "..") = [] := by
      cases down with
      | nil => rfl
      | cons first down =>
        rw [List.mem_cons, not_or] at hdown
        simp [Ne.symm hdown.1]
    rw [climb, hsegments, List.takeWhile_append_of_pos (by simp), hstop]
    simp
  refine ⟨down, by rw [hclimb, hsegments], hdown, ?_⟩
  rw [hclimb, hsegments, List.getElem?_append_right (by simp), List.length_replicate,
    Nat.sub_self, List.head?_eq_getElem?]

/-- The location of a relative path in normal form, seen from a normal directory. -/
lemma segments_normalize_append (hdirectory : directory.isAbsolute = true)
    (hnormal : ".." ∉ directory.segments) (hp : p.isAbsolute = false) {up : Nat}
    {down : List String} (hsegments : p.segments = List.replicate up ".." ++ down)
    (hdown : ".." ∉ down) : (directory.append p).normalize.segments
      = directory.segments.take (directory.segments.length - up) ++ down := by
  have happend : directory.append p = ⟨directory.anchor, directory.segments ++ p.segments⟩ := by
    simp [Path.append, hp]
  have hanchored : (⟨directory.anchor, directory.segments ++ p.segments⟩ : Path).isAbsolute = true :=
    hdirectory
  rw [happend, Path.normalize, hanchored, hsegments]
  exact collapse_append hnormal hdown up

lemma segments_normalize_absolute (hp : p.isAbsolute = true) (h : ".." ∉ p.segments) :
    (directory.append p).normalize.segments = p.segments := by
  rw [append_absolute directory hp, Path.normalize, hp]
  exact collapse_append (List.not_mem_nil) h 0

/-- Paths with the same anchor that go up equally far lead to different locations. -/
theorem eq_of_climb_eq (hdirectory : directory.isAbsolute = true)
    (hnormal : ".." ∉ directory.segments) (hp : IsNormal p.isAbsolute p.segments)
    (hq : IsNormal q.isAbsolute q.segments) (hanchor : p.anchor = q.anchor)
    (hclimb : p.climb = q.climb)
    (h : (directory.append p).normalize.segments = (directory.append q).normalize.segments) :
    p = q := by
  have hsame : p.isAbsolute = q.isAbsolute := by rw [isAbsolute, isAbsolute, hanchor]
  have hsegments : p.segments = q.segments := by
    by_cases habsolute : p.isAbsolute = true
    · have habsolute' := hsame ▸ habsolute
      rw [habsolute] at hp
      rw [habsolute'] at hq
      rwa [segments_normalize_absolute habsolute hp.not_mem,
        segments_normalize_absolute habsolute' hq.not_mem] at h
    · rw [Bool.not_eq_true] at habsolute
      obtain ⟨down, hsplit, hdown, -⟩ := exists_down hp
      obtain ⟨down', hsplit', hdown', -⟩ := exists_down hq
      rw [segments_normalize_append hdirectory hnormal habsolute hsplit hdown,
        segments_normalize_append hdirectory hnormal (hsame ▸ habsolute) hsplit' hdown',
        hclimb] at h
      rw [hsplit, hsplit', hclimb, List.append_cancel_left h]
  rw [Path.mk.injEq]
  exact ⟨hanchor, hsegments⟩

/-- Of two relative paths to the same location, the one that goes up further makes a detour. -/
theorem detours_of_climb_lt (hdirectory : directory.isAbsolute = true)
    (hnormal : ".." ∉ directory.segments) (hp : IsNormal p.isAbsolute p.segments)
    (hq : IsNormal q.isAbsolute q.segments) (hrelative : p.isAbsolute = false)
    (hclimb : p.climb < q.climb)
    (h : (directory.append p).normalize.segments = (directory.append q).normalize.segments) :
    Detours directory q := by
  by_cases hrelative' : q.isAbsolute = true
  · exact Or.inl hrelative'
  rw [Bool.not_eq_true] at hrelative'
  right
  by_cases hroot : directory.segments.length < q.climb
  · exact Or.inl hroot
  right
  obtain ⟨down, hsplit, hdown, -⟩ := exists_down hp
  obtain ⟨down', hsplit', hdown', hhead⟩ := exists_down hq
  rw [segments_normalize_append hdirectory hnormal hrelative hsplit hdown,
    segments_normalize_append hdirectory hnormal hrelative' hsplit' hdown'] at h
  -- both have come to the directory that the first one still went through
  have hlt : directory.segments.length - q.climb < directory.segments.length - p.climb := by omega
  have hat := congrArg (fun ss => ss[directory.segments.length - q.climb]?) h
  rw [List.getElem?_append_left (by rw [List.length_take]; omega),
    List.getElem?_append_right (by rw [List.length_take]; omega),
    List.getElem?_take_of_lt hlt, List.length_take] at hat
  refine ⟨directory.segments[directory.segments.length - q.climb],
    List.getElem?_eq_getElem (by omega), ?_⟩
  rw [hhead, List.head?_eq_getElem?, ← List.getElem?_eq_getElem, hat]
  congr 1
  omega

/-- Different paths to the same location do not start alike, and one of them makes a detour. -/
theorem detours_of_location_eq (hdirectory : directory.isAbsolute = true)
    (hnormal : ".." ∉ directory.segments) (hp : IsNormal p.isAbsolute p.segments)
    (hq : IsNormal q.isAbsolute q.segments) (hne : p ≠ q)
    (h : (directory.append p).normalize.segments = (directory.append q).normalize.segments) :
    (p.anchor ≠ q.anchor ∨ p.climb ≠ q.climb) ∧ (Detours directory p ∨ Detours directory q) := by
  constructor
  · by_contra hsame
    rw [not_or, not_not, not_not] at hsame
    exact hne (eq_of_climb_eq hdirectory hnormal hp hq hsame.1 hsame.2 h)
  · by_cases habsolute : p.isAbsolute = true
    · exact Or.inl (Or.inl habsolute)
    by_cases habsolute' : q.isAbsolute = true
    · exact Or.inr (Or.inl habsolute')
    rw [Bool.not_eq_true] at habsolute habsolute'
    rcases Nat.lt_trichotomy p.climb q.climb with hlt | heq | hlt
    · exact Or.inr (detours_of_climb_lt hdirectory hnormal hp hq habsolute hlt h)
    · have hanchor : p.anchor = q.anchor := by
        rw [isAbsolute, bne_eq_false_iff_eq] at habsolute habsolute'
        rw [habsolute, habsolute']
      exact absurd (eq_of_climb_eq hdirectory hnormal hp hq hanchor heq h) hne
    · exact Or.inl (detours_of_climb_lt hdirectory hnormal hq hp habsolute' hlt h.symm)

end Path

end Bundler
