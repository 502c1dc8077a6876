import Mathlib.Data.List.Induction
import Bundler.Proofs.Changes
import Bundler.Proofs.Walks

/-!
# How a file tree grows

`Grows outs logs` says of an earlier and a later tree that files at the locations `outs` may have
been written and directories made on the way to them, and that files at the locations `logs` may
have been rewritten. All else is as it was. A tree in which every node lies in a directory remains
one.
-/

namespace Bundler.FileTree

variable {t t' t'' : FileTree} {loc above : Location} {name : String}
  {outs outs' logs : List Location}

/-! ### Sound trees -/

/-- Every node lies in a directory. -/
def IsSound (t : FileTree) : Prop :=
  ∀ loc name, t.node? (loc ++ [name]) ≠ none → t.node? loc = some .directory

lemma IsSound.directory_above (h : t.IsSound) (hnode : t.node? loc ≠ none)
    (hbelow : above <+: loc) (hne : above ≠ loc) : t.node? above = some .directory := by
  obtain ⟨rest, rfl⟩ := hbelow
  induction rest using List.reverseRecOn with
  | nil => simp at hne
  | append_singleton rest last ih =>
    have hdir : t.node? (above ++ rest) = some .directory :=
      h (above ++ rest) last (by rwa [List.append_assoc])
    cases rest with
    | nil => simpa using hdir
    | cons first rest => exact ih (by simp [hdir]) (by simp)

/-- Nothing lies below what is missing. -/
lemma IsSound.none_of_prefix (h : t.IsSound) (hnode : t.node? above = none)
    (hbelow : above <+: loc) : t.node? loc = none := by
  by_contra hloc
  by_cases hne : above = loc
  · exact hloc (hne ▸ hnode)
  · have hdir := h.directory_above hloc hbelow hne
    rw [hnode] at hdir
    cases hdir

lemma isSound_of_nodes (h : ∀ e ∈ t.nodes, t.node? e.1.dropLast = some .directory) :
    t.IsSound := by
  intro loc name hnode
  obtain ⟨node, hnode⟩ := Option.ne_none_iff_exists'.mp hnode
  rcases mem_of_node? hnode with hnil | hmem
  · simp at hnil
  · obtain ⟨e, he, hloc⟩ := List.mem_map.mp hmem
    have hdir := h e he
    rwa [hloc, List.dropLast_concat] at hdir

/-- A node put into a directory leaves the tree sound, unless a file takes the place of a
directory. -/
lemma IsSound.put {node : Node} (h : t.IsSound) (habove : t.node? above = some .directory)
    (hkind : node = .directory ∨ t.node? (above ++ [name]) ≠ some .directory) :
    (t.put (above ++ [name]) node).IsSound := by
  have hput := fun other => node?_put t (above ++ [name]) node other (by simp)
  intro loc last hlast
  rw [hput] at hlast ⊢
  have hdir : t.node? loc = some .directory := by
    by_cases heq : loc ++ [last] = above ++ [name]
    · rw [(List.append_inj' heq rfl).1]
      exact habove
    · rw [if_neg heq] at hlast
      exact h loc last hlast
  split
  · next heq =>
    rcases hkind with rfl | hfile
    · rfl
    · exact absurd (heq ▸ hdir) hfile
  · exact hdir

/-! ### What may be different -/

/-- What may be different at a location: a file of the log has been rewritten, a directory made on
the way to one of the locations `outs`, or a file written there. -/
inductive Grown (outs logs : List Location) (t t' : FileTree) (loc : Location) : Prop where
  | same (h : t'.node? loc = t.node? loc)
  | logged {content content' : ByteArray} (hlog : loc ∈ logs)
      (h : t.node? loc = some (.file content)) (h' : t'.node? loc = some (.file content'))
  | made (h : t.node? loc = none) (h' : t'.node? loc = some .directory)
      (hway : ∃ out ∈ outs, loc <+: out ∧ loc ≠ out)
  | written {content : ByteArray} (hout : loc ∈ outs) (h : t.node? loc ≠ some .directory)
      (h' : t'.node? loc = some (.file content))

lemma Grown.mono (hsub : outs ⊆ outs') (h : Grown outs logs t t' loc) :
    Grown outs' logs t t' loc := by
  cases h with
  | same h => exact .same h
  | logged hlog h h' => exact .logged hlog h h'
  | made h h' hway =>
    obtain ⟨out, hout, hbelow⟩ := hway
    exact .made h h' ⟨out, hsub hout, hbelow⟩
  | written hout h h' => exact .written (hsub hout) h h'

lemma Grown.trans (h : Grown outs logs t t' loc) (h' : Grown outs logs t' t'' loc) :
    Grown outs logs t t'' loc := by
  cases h' with
  | same hsame =>
    cases h with
    | same h => exact .same (hsame.trans h)
    | logged hlog h h' => exact .logged hlog h (hsame.trans h')
    | made h h' hway => exact .made h (hsame.trans h') hway
    | written hout h h' => exact .written hout h (hsame.trans h')
  | logged hlog hfile hfile' =>
    cases h with
    | same h => exact .logged hlog (h.symm.trans hfile) hfile'
    | logged hlog h _ => exact .logged hlog h hfile'
    | made h h' _ => cases h'.symm.trans hfile
    | written hout h _ => exact .written hout h hfile'
  | made hnone hdir hway =>
    cases h with
    | same h => exact .made (h.symm.trans hnone) hdir hway
    | logged _ _ h' | made _ h' _ | written _ _ h' => cases hnone.symm.trans h'
  | written hout hfile hfile' =>
    cases h with
    | same h => exact .written hout (h ▸ hfile) hfile'
    | logged _ h _ => exact .written hout (by simp [h]) hfile'
    | made h h' _ => exact absurd h' hfile
    | written _ h _ => exact .written hout h hfile'

/-- The tree has grown by files at the locations `outs`. -/
structure Grows (outs logs : List Location) (t t' : FileTree) : Prop where
  grown : ∀ loc, Grown outs logs t t' loc
  sound : t.IsSound → t'.IsSound

namespace Grows

lemma refl (outs logs : List Location) (t : FileTree) : Grows outs logs t t :=
  ⟨fun _ => .same rfl, id⟩

lemma trans (h : Grows outs logs t t') (h' : Grows outs logs t' t'') : Grows outs logs t t'' :=
  ⟨fun loc => (h.grown loc).trans (h'.grown loc), fun hsound => h'.sound (h.sound hsound)⟩

lemma mono (hsub : outs ⊆ outs') (h : Grows outs logs t t') : Grows outs' logs t t' :=
  ⟨fun loc => (h.grown loc).mono hsub, h.sound⟩

lemma directory (h : Grows outs logs t t') (hnode : t.node? loc = some .directory) :
    t'.node? loc = some .directory := by
  cases h.grown loc with
  | same h => exact h.trans hnode
  | logged _ h _ => cases h.symm.trans hnode
  | made h _ _ => cases h.symm.trans hnode
  | written _ h _ => exact absurd hnode h

lemma content (h : Grows outs logs t t') (hout : loc ∉ outs) (hlog : loc ∉ logs) :
    t'.content? loc = t.content? loc := by
  cases h.grown loc with
  | same h => rw [content?, content?, h]
  | logged hmem _ _ => exact absurd hmem hlog
  | made h h' _ => rw [content?, content?, h, h']
  | written hmem _ _ => exact absurd hmem hout

lemma keeps (h : Grows outs logs t t') : t.Keeps (outs ++ logs) t' := by
  refine ⟨fun loc hloc => ?_, fun _ hnode => h.directory hnode⟩
  rw [List.mem_append, not_or] at hloc
  exact h.content hloc.1 hloc.2

/-- Notes make the tree grow by no file. -/
lemma of_rewrites (h : Rewrites logs t t') : Grows outs logs t t' := by
  induction h with
  | refl => exact refl outs logs t
  | @write t' loc content content' _ hmem hfile ih =>
    have hnode : t'.node? loc = some (.file content) := by
      unfold content? at hfile
      split at hfile <;> cases hfile
      assumption
    have hloc : loc ≠ [] := by
      rintro rfl
      simp at hnode
    have hput := fun other => node?_put t' loc (.file content') other hloc
    refine ih.trans ⟨fun other => ?_, fun hsound => ?_⟩
    · by_cases heq : other = loc
      · subst heq
        exact .logged hmem hnode (by rw [hput, if_pos rfl])
      · exact .same (by rw [hput, if_neg heq])
    · obtain ⟨above, last, rfl⟩ := (List.eq_nil_or_concat' loc).resolve_left hloc
      have habove : t'.node? above = some .directory := hsound above last (by simp [hnode])
      exact hsound.put habove (Or.inr (by simp [hnode]))

lemma put_directory (hnode : t.node? (above ++ [name]) = none)
    (habove : t.node? above = some .directory)
    (hway : ∃ out ∈ outs, above ++ [name] <+: out ∧ above ++ [name] ≠ out) :
    Grows outs logs t (t.put (above ++ [name]) .directory) := by
  refine ⟨fun other => ?_, fun hsound => hsound.put habove (Or.inl rfl)⟩
  have hput := node?_put t (above ++ [name]) .directory other (by simp)
  by_cases heq : other = above ++ [name]
  · subst heq
    exact .made hnode (by rw [hput, if_pos rfl]) hway
  · exact .same (by rw [hput, if_neg heq])

lemma put_file (content : ByteArray) (hnode : t.node? (above ++ [name]) ≠ some .directory)
    (habove : t.node? above = some .directory) (hout : above ++ [name] ∈ outs) :
    Grows outs logs t (t.put (above ++ [name]) (.file content)) := by
  refine ⟨fun other => ?_, fun hsound => hsound.put habove (Or.inr hnode)⟩
  have hput := node?_put t (above ++ [name]) (.file content) other (by simp)
  by_cases heq : other = above ++ [name]
  · subst heq
    exact .written hout hnode (by rw [hput, if_pos rfl])
  · exact .same (by rw [hput, if_neg heq])

end Grows

/-! ### Ways that are paved -/

/-- The later tree comes from the earlier one by making directories that are missing on the way to a
location, that location included. -/
inductive Paves (way : Location) (t : FileTree) : FileTree → Prop where
  | refl : Paves way t t
  | make {t' : FileTree} {above : Location} {name : String} (h : Paves way t t')
      (hway : above ++ [name] <+: way) (habove : t'.node? above = some .directory)
      (hnode : t'.node? (above ++ [name]) = none) :
      Paves way t (t'.put (above ++ [name]) .directory)

namespace Paves

variable {way : Location}

lemma trans (h : Paves way t t') (h' : Paves way t' t'') : Paves way t t'' := by
  induction h' with
  | refl => exact h
  | make _ hway habove hnode ih => exact .make ih hway habove hnode

lemma mono {way' : Location} (hbelow : way <+: way') (h : Paves way t t') :
    Paves way' t t' := by
  induction h with
  | refl => exact .refl
  | make _ hway habove hnode ih => exact .make ih (hway.trans hbelow) habove hnode

/-- Making directories keeps all files. -/
lemma content (h : Paves way t t') : t'.content? loc = t.content? loc := by
  have hkeeps : t.Keeps [] t' := by
    induction h with
    | refl => exact .refl _ _
    | make _ _ _ hnode ih => exact ih.trans (.put_directory hnode)
  exact hkeeps.content loc (by simp)

lemma sound (h : Paves way t t') (hsound : t.IsSound) : t'.IsSound := by
  induction h with
  | refl => exact hsound
  | make _ _ habove _ ih => exact ih.put habove (Or.inl rfl)

/-- The way to the directory of a file may be paved where the file may be written. -/
lemma grows {out : Location} (hout : out ∈ outs) (h : Paves out.dropLast t t') :
    Grows outs logs t t' := by
  induction h with
  | refl => exact .refl _ _ _
  | make _ hbelow habove hnode ih =>
    refine ih.trans (.put_directory hnode habove ⟨out, hout, ?_, ?_⟩)
    · exact hbelow.trans (List.dropLast_prefix out)
    · rintro rfl
      have hle := hbelow.length_le
      rw [List.length_dropLast, List.length_append, List.length_singleton] at hle
      omega

end Paves

end Bundler.FileTree
