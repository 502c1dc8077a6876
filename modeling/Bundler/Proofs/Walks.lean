import Bundler.Proofs.Locations
import Bundler.Proofs.Places

/-!
# Walks up and down

From a directory that is there every `..` leads to a directory, in the end to the root. How long the
text of a path is can be told from its segments.
-/

namespace Bundler

/-! ### The length of a path -/

namespace Path

variable {ss ts : List String}

/-- The number of bytes that some segments take below the root. -/
def sizeOf : List String → Nat
  | [] => 0
  | s :: ss => s.utf8ByteSize + 1 + sizeOf ss

@[simp] lemma sizeOf_nil : sizeOf [] = 0 := rfl

@[simp] lemma sizeOf_cons (s : String) (ss : List String) :
    sizeOf (s :: ss) = s.utf8ByteSize + 1 + sizeOf ss := rfl

@[simp] lemma sizeOf_append (ss ts : List String) :
    sizeOf (ss ++ ts) = sizeOf ss + sizeOf ts := by
  induction ss with
  | nil => simp
  | cons s ss ih => simp [ih, Nat.add_assoc]

@[simp] lemma sizeOf_replicate (n : Nat) (s : String) :
    sizeOf (List.replicate n s) = n * (s.utf8ByteSize + 1) := by
  induction n with
  | zero => simp
  | succ n ih => rw [List.replicate_succ, sizeOf_cons, ih, Nat.succ_mul, Nat.add_comm]

lemma sizeOf_le_of_sublist (h : ss.Sublist ts) : sizeOf ss ≤ sizeOf ts := by
  induction h with
  | slnil => exact Nat.le_refl _
  | cons s _ ih => exact Nat.le_add_left_of_le ih
  | cons_cons s _ ih => exact Nat.add_le_add_left ih _

/-- There is a slash between any two segments. -/
lemma utf8ByteSize_intercalate (hne : ss ≠ []) :
    1 + (String.intercalate "/" ss).utf8ByteSize = sizeOf ss := by
  induction ss with
  | nil => exact absurd rfl hne
  | cons s ss ih =>
    cases ss with
    | nil => simp [Nat.add_comm]
    | cons next ss =>
      have hrest := ih (List.cons_ne_nil _ _)
      have hslash : ("/" : String).utf8ByteSize = 1 := rfl
      rw [String.intercalate_cons_cons, String.utf8ByteSize_append, String.utf8ByteSize_append,
        sizeOf_cons, hslash]
      omega

/-- The text of a path below the root has a slash before every segment. -/
lemma utf8ByteSize_text_root (hne : ss ≠ []) :
    (text ⟨.root, ss⟩).utf8ByteSize = sizeOf ss := by
  have hslash : (anchorText .root).utf8ByteSize = 1 := rfl
  rw [text, if_neg (by simp), String.utf8ByteSize_append, hslash, utf8ByteSize_intercalate hne]

end Path

/-! ### Walking in parts -/

namespace FileTree

variable {t : FileTree} {loc loc' directory : Location} {ss ts : List String}

lemma walk_cons (t : FileTree) (loc : Location) (s : String) (ss : List String) :
    t.walk loc (s :: ss) = (t.step loc s).bind fun mid => t.walk mid ss := by
  simp [walk, List.foldlM_cons, bind]

lemma walk_append (t : FileTree) (loc : Location) (ss ts : List String) :
    t.walk loc (ss ++ ts) = (t.walk loc ss).bind fun mid => t.walk mid ts := by
  simp [walk, List.foldlM_append, bind]

lemma mem_of_node? {node : Node} (h : t.node? loc = some node) :
    loc = [] ∨ loc ∈ t.nodes.map (·.1) := by
  unfold node? at h
  split at h
  · exact Or.inl (by assumption)
  · obtain ⟨e, he, -⟩ := Option.map_eq_some_iff.mp h
    have hloc : e.1 = loc := by simpa using List.find?_some he
    exact Or.inr (List.mem_map.mpr ⟨e, List.mem_of_find?_eq_some he, hloc⟩)

/-- A walk goes on from directories only. -/
lemma node?_of_walk_cons {s : String} (h : t.walk loc (s :: ss) = .ok loc') :
    t.node? loc = some .directory := by
  rw [walk, List.foldlM_cons] at h
  cases hstep : t.step loc s with
  | error code =>
    rw [hstep] at h
    cases h
  | ok mid =>
    unfold step at hstep
    split at hstep
    · cases hstep
    · cases hstep
    · assumption

/-- A walk along an absolute path leads to its place. -/
lemma eq_place_of_walk {p : Path} (hp : p.isAbsolute = true) (h : t.walk [] p.segments = .ok loc) :
    loc = p.place := by
  rw [walk_ok (by simp) h, Path.place, Path.normalize, hp]
  rfl

/-- All above a directory that a walk without `..` leads to are directories on the way. -/
lemma walk_take (hup : ".." ∉ directory) (hwalk : t.walk [] directory = .ok directory)
    (hnode : t.node? directory = some .directory) (n : Nat) :
    t.walk [] (directory.take n) = .ok (directory.take n) ∧
      t.node? (directory.take n) = some .directory := by
  have hsplit := t.walk_append [] (directory.take n) (directory.drop n)
  rw [List.take_append_drop, hwalk] at hsplit
  cases hmid : t.walk [] (directory.take n) with
  | error code =>
    rw [hmid] at hsplit
    cases hsplit
  | ok mid =>
    have hplace : mid = directory.take n := by
      have hreached := walk_ok (by simp) hmid
      rw [Path.foldl_push_of_not_mem fun hmem => hup (List.mem_of_mem_take hmem)] at hreached
      simpa using hreached
    rw [hmid, hplace] at hsplit
    refine ⟨congrArg _ hplace, ?_⟩
    cases hdrop : directory.drop n with
    | nil => rwa [List.take_of_length_le (List.drop_eq_nil_iff.mp hdrop)]
    | cons s rest =>
      rw [hdrop] at hsplit
      exact node?_of_walk_cons hsplit.symm

/-- Where all is directories, every `..` leads one up, and none beyond the root. -/
lemma walk_up (h : ∀ n, t.node? (directory.take n) = some .directory) (up : Nat) :
    t.walk directory (List.replicate up "..") = .ok (directory.take (directory.length - up)) := by
  induction up with
  | zero => simp [walk, pure, Except.pure]
  | succ up ih =>
    have hstep : t.step (directory.take (directory.length - up)) ".."
        = .ok (directory.take (directory.length - (up + 1))) := by
      simp only [step, h, if_true]
      rw [List.dropLast_eq_take, List.length_take, List.take_take]
      congr 2
      omega
    rw [List.replicate_succ', walk_append, ih]
    simp [Except.bind, walk, hstep]

/-- From a directory up and on is the same as on from above. -/
lemma walk_detour (hup : ".." ∉ directory) (hwalk : t.walk [] directory = .ok directory)
    (hnode : t.node? directory = some .directory) (up : Nat) (rest : List String) :
    t.walk [] (directory ++ (List.replicate up ".." ++ rest))
      = t.walk [] (directory.take (directory.length - up) ++ rest) := by
  have habove := walk_take hup hwalk hnode
  rw [walk_append, hwalk, walk_append _ _ (directory.take _), (habove _).1]
  dsimp only [Except.bind]
  rw [walk_append, walk_up fun n => (habove n).2]
  rfl

end FileTree

/-! ### Directories that are there -/

namespace Workspace

variable {w : Workspace} {p p' : Path}

/-- What is found at an absolute path is found by a walk to its place. -/
lemma walk_of_look {loc : Option Location} {node : Node} (hp : p.isAbsolute = true)
    (h : w.look p = .ok (loc, node)) : w.files.walk [] p.segments = .ok p.place := by
  unfold look at h
  split at h
  · cases h
  · rw [origin?, if_pos hp] at h
    dsimp only [FileTree.look] at h
    cases hwalk : w.files.walk [] p.segments with
    | error code =>
      rw [hwalk] at h
      cases h
    | ok reached => rw [FileTree.eq_place_of_walk hp hwalk]

/-- On the way to what is found at a path there is something at every place. -/
lemma exists_node_of_look {rest : List String} {loc : Option Location} {node : Node}
    (hp : p.isAbsolute = true) (h : w.look ⟨p.anchor, p.segments ++ rest⟩ = .ok (loc, node)) :
    ∃ node, w.files.node? p.place = some node := by
  have hp' : (⟨p.anchor, p.segments ++ rest⟩ : Path).isAbsolute = true := hp
  have hwalk := walk_of_look hp' h
  rw [FileTree.walk_append] at hwalk
  cases hmid : w.files.walk [] p.segments with
  | error code =>
    rw [hmid] at hwalk
    cases hwalk
  | ok mid =>
    rw [hmid, FileTree.eq_place_of_walk hp hmid] at hwalk
    cases rest with
    | nil =>
      rw [List.append_nil] at h
      exact ⟨node, (look_ok hp h).2⟩
    | cons s rest => exact ⟨.directory, FileTree.node?_of_walk_cons hwalk⟩

/-- A path from the root, in normal form, leads to a directory. -/
structure HasDirectory (w : Workspace) (p : Path) : Prop where
  root : p.anchor = .root
  normal : ".." ∉ p.segments
  plain : holdsNull p = false
  leads : w.isDirectory p = true

lemma HasDirectory.isAbsolute (h : w.HasDirectory p) : p.isAbsolute = true := by
  simp [Path.isAbsolute, h.root]

lemma HasDirectory.walk_ok (h : w.HasDirectory p) :
    w.files.walk [] p.segments = .ok p.segments ∧
      w.files.node? p.segments = some .directory := by
  have hplace : p.place = p.segments := by
    rw [Path.place, Path.normalize_of_isNormal (.of_not_mem h.normal)]
  have hleads := h.leads
  unfold isDirectory at hleads
  split at hleads
  · next hlook =>
    rw [← hplace]
    exact ⟨hplace ▸ walk_of_look h.isAbsolute hlook, (look_ok h.isAbsolute hlook).2⟩
  · cases hleads

/-- What is found at an absolute path depends on the walk along it, if the path is short enough. -/
lemma look_congr (hp : p.isAbsolute = true) (hp' : p'.isAbsolute = true)
    (hshort : isTooLong p = false) (hshort' : isTooLong p' = false)
    (hwalk : w.files.walk [] p.segments = w.files.walk [] p'.segments) :
    w.look p = w.look p' := by
  have hfound : w.files.look [] p.segments = w.files.look [] p'.segments := by
    rw [FileTree.look, hwalk, FileTree.look]
  rw [look, look, hshort, hshort', origin?, origin?, if_pos hp, if_pos hp']
  dsimp only
  rw [hfound]

lemma read_congr (hnull : holdsNull p = holdsNull p') (hlook : w.look p = w.look p') :
    (w.read p).toOption = (w.read p').toOption := by
  unfold read
  rw [hnull, hlook]
  split
  · rfl
  · split <;> rfl

/-- A path below the root is short enough if it has no more bytes than one that is. -/
lemma isTooLong_of_le {ss ss' : List String} (hle : Path.sizeOf ss' ≤ Path.sizeOf ss)
    (h : isTooLong ⟨.root, ss⟩ = false) : isTooLong ⟨.root, ss'⟩ = false := by
  have hsize : ∀ ss, ss ≠ [] → (isTooLong ⟨.root, ss⟩ = false ↔ Path.sizeOf ss ≤ pathLimit) := by
    intro ss hne
    rw [isTooLong, Path.utf8ByteSize_text_root hne, decide_eq_false_iff_not, Nat.not_lt]
  by_cases hne' : ss' = []
  · subst hne'
    rfl
  · have hne : ss ≠ [] := by
      rintro rfl
      cases ss' with
      | nil => exact hne' rfl
      | cons s rest => simp at hle
    exact (hsize _ hne').mpr (Nat.le_trans hle ((hsize _ hne).mp h))

end Workspace

end Bundler
