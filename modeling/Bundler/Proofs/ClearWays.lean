import Bundler.Load.Source
import Bundler.Proofs.Growth

/-!
# Ways clear of a directory

The way to the file of a name goes up by the `..` in front and then on. If none of the places it
comes through after that lies in some directory, then the file stays the same however the tree grows
in that directory.
-/

namespace Bundler

/-! ### Walks through what stays the same -/

namespace FileTree

variable {t t' : FileTree} {loc loc' directory : Location} {ss : List String} {s : String}
  {outs logs : List Location}

/-- The node at a location is the same in both trees, or a file of the log in both. -/
def SameAt (logs : List Location) (t t' : FileTree) (loc : Location) : Prop :=
  t'.node? loc = t.node? loc ∨
    loc ∈ logs ∧ (t.content? loc).isSome = true ∧ (t'.content? loc).isSome = true

/-- A tree that grows in a directory only is the same outside of it. -/
lemma Grows.sameAt (h : Grows outs logs t t') (hsound : t.IsSound)
    (hdirectory : t.node? directory = some .directory) (hin : ∀ out ∈ outs, directory <+: out)
    (hloc : ¬ directory <+: loc) : SameAt logs t t' loc := by
  cases h.grown loc with
  | same h => exact Or.inl h
  | logged hlog h h' => exact Or.inr ⟨hlog, by simp [content?, h], by simp [content?, h']⟩
  | made h h' hway =>
    -- a directory that is made lies in the directory or above it, where nothing is missing
    obtain ⟨out, hout, hway, -⟩ := hway
    rcases List.prefix_or_prefix_of_prefix hway (hin out hout) with habove | hbelow
    · by_cases hne : loc = directory
      · exact absurd (hne ▸ List.prefix_refl _) hloc
      · have hnode := hsound.directory_above (by simp [hdirectory]) habove hne
        rw [h] at hnode
        cases hnode
    · exact absurd hbelow hloc
  | written hout _ _ => exact absurd (hin loc hout) hloc

lemma SameAt.step (h : SameAt logs t t' loc) : t'.step loc s = t.step loc s := by
  unfold FileTree.step
  rcases h with hsame | ⟨-, hfile, hfile'⟩
  · rw [hsame]
  · unfold content? at hfile hfile'
    split at hfile
    · next hnode =>
      split at hfile'
      · next hnode' => rw [hnode, hnode']
      · cases hfile'
    · cases hfile

/-- A walk ends alike if it only comes through what is the same. -/
lemma walk_congr
    (h : ∀ part loc', part <+: ss → t.walk loc part = .ok loc' → SameAt logs t t' loc') :
    t'.walk loc ss = t.walk loc ss := by
  induction ss generalizing loc with
  | nil => rfl
  | cons s ss ih =>
    have hstep : t'.step loc s = t.step loc s := (h [] loc (by simp) rfl).step
    rw [walk_cons, walk_cons, hstep]
    cases hmid : t.step loc s with
    | error code => rfl
    | ok mid =>
      apply ih
      intro part loc' hpart hwalk
      refine h (s :: part) loc' ((List.prefix_cons_inj s).mpr hpart) ?_
      rw [walk_cons, hmid]
      exact hwalk

/-- From a directory of a sound tree every `..` leads to a directory. -/
lemma IsSound.walk_up (h : t.IsSound) (hnode : t.node? loc = some .directory) (up : Nat) :
    t.walk loc (List.replicate up "..") = .ok (loc.take (loc.length - up)) ∧
      t.node? (loc.take (loc.length - up)) = some .directory := by
  have htake : ∀ n, t.node? (loc.take n) = some .directory := by
    intro n
    by_cases heq : loc.take n = loc
    · rwa [heq]
    · exact h.directory_above (by simp [hnode]) (List.take_prefix n loc) heq
  exact ⟨FileTree.walk_up htake up, htake _⟩

end FileTree

/-! ### Names -/

namespace Load.Source

open FileTree

variable {w w' : Workspace} {base : Path} {name : String} {directory : Location}
  {outs logs : List Location}

/-- After the `..` in front the way to the file of a name does not come into a directory. -/
def IsClear (directory : Location) (base : Path) (name : String) : Prop :=
  ∀ part, part <+: (Path.ofString name).segments → (∃ s ∈ part, s ≠ "..") →
    ¬ directory <+: (base.append ⟨(Path.ofString name).anchor, part⟩).place

/-- The way to a file in normal form is clear of a directory in which it does not end. -/
lemma isClear_of_isNormal
    (hnormal : Path.IsNormal (Path.ofString name).isAbsolute (Path.ofString name).segments)
    (h : ¬ directory <+: (locate base name).place) : IsClear directory base name := by
  obtain ⟨up, down, hsegments, hdown, -⟩ := hnormal
  rintro part ⟨rest, hrest⟩ ⟨s, hs, hne⟩ hin
  have hplain : ".." ∉ rest := by
    rw [hsegments] at hrest
    rcases List.append_eq_append_iff.mp hrest with ⟨_, hups, -⟩ | ⟨_, -, hrest'⟩
    · have hmem : s ∈ List.replicate up ".." := by simp [hups, hs]
      exact absurd (List.eq_of_mem_replicate hmem) hne
    · simp_all
  have hplace : (locate base name).place
      = (base.append ⟨(Path.ofString name).anchor, part⟩).place ++ rest := by
    have hpath := Path.append_segments base ⟨(Path.ofString name).anchor, part⟩ rest
    rw [hrest] at hpath
    rw [locate, ← Path.place_concat _ hplain, ← hpath]
  exact h (hplace ▸ hin.trans (List.prefix_append _ _))

/-- A name is looked for from the root or from the base directory. -/
lemma exists_start (hbase : base.isAbsolute = true) (hleads : w.isDirectory base = true)
    (name : String) : ∃ above start, w.files.walk [] above = .ok start ∧
      w.files.node? start = some .directory ∧
      ∀ part, (base.append ⟨(Path.ofString name).anchor, part⟩).segments = above ++ part := by
  by_cases habsolute : (Path.ofString name).isAbsolute = true
  · refine ⟨[], [], rfl, node?_nil _, fun part => ?_⟩
    rw [Path.append_absolute base (q := ⟨(Path.ofString name).anchor, part⟩) habsolute]
    rfl
  · rw [Bool.not_eq_true] at habsolute
    unfold Workspace.isDirectory at hleads
    split at hleads
    · next hlook =>
      refine ⟨base.segments, base.place, Workspace.walk_of_look hbase hlook,
        (Workspace.look_ok hbase hlook).2, fun part => ?_⟩
      rw [Path.append_relative base (q := ⟨(Path.ofString name).anchor, part⟩) habsolute]
    · cases hleads

/-- A name whose way is clear leads to the same place in a tree that grows in the directory only. -/
lemma look_of_isClear (hbase : base.isAbsolute = true) (hleads : w.isDirectory base = true)
    (hsound : w.files.IsSound) (hdirectory : w.files.node? directory = some .directory)
    (hin : ∀ out ∈ outs, directory <+: out) (hgrows : w.files.Grows outs logs w'.files)
    (hclear : IsClear directory base name) (hlog : (locate base name).place ∉ logs) :
    w'.look (locate base name) = w.look (locate base name) := by
  obtain ⟨above, start, hstart, hnode, hsegments⟩ := exists_start hbase hleads name
  have hlocated : (locate base name).isAbsolute = true := Path.isAbsolute_append _ hbase
  have hsame : ∀ part loc', part <+: (Path.ofString name).segments →
      w.files.walk start part = .ok loc' → SameAt logs w.files w'.files loc' := by
    intro part loc' hpart hwalk
    by_cases hon : ∃ s ∈ part, s ≠ ".."
    · have hplace : loc' = (base.append ⟨(Path.ofString name).anchor, part⟩).place := by
        refine eq_place_of_walk (t := w.files) (Path.isAbsolute_append _ hbase) ?_
        rw [hsegments, walk_append, hstart]
        exact hwalk
      rw [hplace]
      exact hgrows.sameAt hsound hdirectory hin (hclear part hpart hon)
    · -- so far the way only went up, from one directory to another
      have hups : part = List.replicate part.length ".." := by
        refine List.eq_replicate_of_mem fun s hs => ?_
        by_contra hne
        exact hon ⟨s, hs, hne⟩
      obtain ⟨hup, hdir⟩ := hsound.walk_up hnode part.length
      rw [hups, hup] at hwalk
      cases hwalk
      exact Or.inl ((hgrows.directory hdir).trans hdir.symm)
  have hpath : (locate base name).segments = above ++ (Path.ofString name).segments :=
    hsegments (Path.ofString name).segments
  have hwalk : w'.files.walk [] (locate base name).segments
      = w.files.walk [] (locate base name).segments := by
    rw [hpath, walk_append, walk_append, hstart, hgrows.keeps.walk_ok hstart]
    exact walk_congr hsame
  have hend : ∀ loc', w.files.walk [] (locate base name).segments = .ok loc' →
      w'.files.node? loc' = w.files.node? loc' := by
    intro loc' hwalk
    have hplace := eq_place_of_walk hlocated hwalk
    rw [hpath, walk_append, hstart] at hwalk
    rcases hsame _ loc' (List.prefix_refl _) hwalk with hnode | ⟨hmem, -⟩
    · exact hnode
    · exact absurd (hplace ▸ hmem) hlog
  have hfound : w'.files.look [] (locate base name).segments
      = w.files.look [] (locate base name).segments := by
    rw [FileTree.look, FileTree.look, hwalk]
    cases hwalk : w.files.walk [] (locate base name).segments with
    | error code => rfl
    | ok loc' =>
      simp only [bind, Except.bind]
      rw [hend loc' hwalk]
  rw [Workspace.look, Workspace.look, Workspace.origin?, Workspace.origin?, if_pos hlocated,
    if_pos hlocated]
  dsimp only
  rw [hfound]

/-- A name whose way is clear is read alike in a tree that grows in the directory only. -/
theorem read_of_isClear (hbase : base.isAbsolute = true) (hleads : w.isDirectory base = true)
    (hsound : w.files.IsSound) (hdirectory : w.files.node? directory = some .directory)
    (hin : ∀ out ∈ outs, directory <+: out) (hgrows : w.files.Grows outs logs w'.files)
    (hclear : IsClear directory base name) (hlog : (locate base name).place ∉ logs) :
    w'.read (locate base name) = w.read (locate base name) := by
  rw [Workspace.read, Workspace.read,
    look_of_isClear hbase hleads hsound hdirectory hin hgrows hclear hlog]

end Load.Source

end Bundler
