import Bundler.Proofs.Growth

/-!
# What stands in the way

Directories on the way to a place can be made unless a name is too long or a file stands in the way.
What is missing is made, so it makes no difference whether some of the directories are there.
-/

namespace Bundler

/-! ### The first obstacle -/

namespace FileTree

variable {t t' : FileTree} {loc loc' : Location} {s last : String} {ss : List String}
  {code : Errno}

/-- What keeps the directories at some segments below `loc` from being made. -/
def obstacle (t : FileTree) (loc : Location) : List String → Option Errno
  | [] => none
  | s :: rest =>
    if nameLimit < s.utf8ByteSize then some .nameTooLong
    else if (t.content? (loc ++ [s])).isSome then
      some (if rest = [] then .exists else .notDirectory)
    else t.obstacle (loc ++ [s]) rest

lemma obstacle_cons (t : FileTree) (loc : Location) (s : String) (rest : List String) :
    t.obstacle loc (s :: rest) =
      if nameLimit < s.utf8ByteSize then some .nameTooLong
      else if (t.content? (loc ++ [s])).isSome then
        some (if rest = [] then .exists else .notDirectory)
      else t.obstacle (loc ++ [s]) rest := rfl

/-- Directories that are there are no obstacles, nor is what is missing. -/
lemma obstacle_congr (h : ∀ above, above <+: ss →
      (t'.content? (loc ++ above)).isSome = (t.content? (loc ++ above)).isSome) :
    t'.obstacle loc ss = t.obstacle loc ss := by
  induction ss generalizing loc with
  | nil => rfl
  | cons s ss ih =>
    have hfirst := h [s] (by simp)
    have hrest : t'.obstacle (loc ++ [s]) ss = t.obstacle (loc ++ [s]) ss := by
      apply ih
      intro above habove
      simpa using h (s :: above) ((List.prefix_cons_inj s).mpr habove)
    rw [obstacle_cons, obstacle_cons, hfirst, hrest]

/-- A longer way has the obstacles of the way before, if that does not end at a file. -/
lemma obstacle_concat (last : String) (h : t.content? (loc ++ ss) = none) :
    t.obstacle loc (ss ++ [last]) = match t.obstacle loc ss with
      | some code => some code
      | none => t.obstacle (loc ++ ss) [last] := by
  induction ss generalizing loc with
  | nil => simp [obstacle]
  | cons s ss ih =>
    have hrest : t.obstacle (loc ++ [s]) (ss ++ [last]) = match t.obstacle (loc ++ [s]) ss with
        | some code => some code
        | none => t.obstacle (loc ++ [s] ++ ss) [last] := ih (by simpa using h)
    rw [List.append_assoc, List.singleton_append] at hrest
    rw [List.cons_append, obstacle_cons t loc s ss, obstacle_cons t loc s (ss ++ [last])]
    split
    · rfl
    · split
      · next hfile =>
        have hne : ss ≠ [] := by
          rintro rfl
          rw [h] at hfile
          cases hfile
        simp [hne]
      · exact hrest

/-! ### Walks and obstacles -/

lemma step_down (hdir : t.node? loc = some .directory) (hs : s ≠ "..") :
    t.step loc s
      = if nameLimit < s.utf8ByteSize then .error .nameTooLong else .ok (loc ++ [s]) := by
  simp [step, hdir, hs]

/-- A walk without `..` that succeeds goes down all the way. -/
lemma eq_append_of_walk (hplain : ".." ∉ ss) (h : t.walk loc ss = .ok loc') : loc' = loc ++ ss := by
  induction ss generalizing loc with
  | nil =>
    cases h
    simp
  | cons s ss ih =>
    rw [List.mem_cons, not_or] at hplain
    have hdir := node?_of_walk_cons h
    rw [walk_cons, step_down hdir (Ne.symm hplain.1)] at h
    split at h
    · cases h
    · simpa using ih hplain.2 h

/-- All but the last step of a walk without `..` leads to a directory. -/
lemma directory_of_walk (hplain : ".." ∉ ss) (h : t.walk [] (ss ++ [last]) = .ok loc) :
    t.node? ss = some .directory := by
  rw [walk_append] at h
  cases hmid : t.walk [] ss with
  | error code =>
    rw [hmid] at h
    cases h
  | ok mid =>
    rw [hmid] at h
    obtain rfl : mid = [] ++ ss := eq_append_of_walk hplain hmid
    exact node?_of_walk_cons h

/-- A walk that ends before what is missing ends at an obstacle. -/
lemma obstacle_of_walk_error (hdir : t.node? loc = some .directory) (hplain : ".." ∉ ss)
    (h : t.walk loc ss = .error code) (hcode : code ≠ .noEntry) :
    t.obstacle loc ss = some code := by
  induction ss generalizing loc with
  | nil => cases h
  | cons s ss ih =>
    rw [List.mem_cons, not_or] at hplain
    rw [walk_cons, step_down hdir (Ne.symm hplain.1)] at h
    unfold obstacle
    split at h
    · next hlong =>
      cases h
      rw [if_pos hlong]
    · next hshort =>
      rw [if_neg hshort]
      have hwalk : t.walk (loc ++ [s]) ss = .error code := h
      cases hnode : t.node? (loc ++ [s]) with
      | none =>
        cases ss with
        | nil => cases hwalk
        | cons s' ss =>
          simp only [walk_cons, step, hnode] at hwalk
          cases hwalk
          exact absurd rfl hcode
      | some node =>
        cases node with
        | file content =>
          cases ss with
          | nil => cases hwalk
          | cons s' ss =>
            simp only [walk_cons, step, hnode] at hwalk
            cases hwalk
            simp [content?, hnode]
        | directory => simpa [content?, hnode] using ih hnode hplain.2 hwalk

/-- A walk that finds no entry ends at a place at which there is nothing. -/
lemma exists_missing_of_walk (hdir : t.node? loc = some .directory) (hplain : ".." ∉ ss)
    (h : t.walk loc ss = .error .noEntry) :
    ∃ above, above <+: ss.dropLast ∧ t.node? (loc ++ above) = none := by
  induction ss generalizing loc with
  | nil => cases h
  | cons s ss ih =>
    rw [List.mem_cons, not_or] at hplain
    rw [walk_cons, step_down hdir (Ne.symm hplain.1)] at h
    split at h
    · cases h
    · have hwalk : t.walk (loc ++ [s]) ss = .error .noEntry := h
      cases ss with
      | nil => cases hwalk
      | cons s' ss =>
        cases hnode : t.node? (loc ++ [s]) with
        | none => exact ⟨[s], by simp, hnode⟩
        | some node =>
          cases node with
          | file content =>
            simp only [walk_cons, step, hnode] at hwalk
            cases hwalk
          | directory =>
            obtain ⟨above, habove, hmissing⟩ := ih hnode hplain.2 hwalk
            exact ⟨s :: above, by simpa using habove, by simpa using hmissing⟩

/-- A walk that succeeds has no obstacle before its end. -/
lemma obstacle_of_walk_ok (hdir : t.node? loc = some .directory) (hplain : ".." ∉ ss)
    (h : t.walk loc ss = .ok loc') :
    t.obstacle loc ss = if (t.content? loc').isSome then some .exists else none := by
  induction ss generalizing loc with
  | nil =>
    cases h
    simp [obstacle, content?, hdir]
  | cons s ss ih =>
    rw [List.mem_cons, not_or] at hplain
    rw [walk_cons, step_down hdir (Ne.symm hplain.1)] at h
    unfold obstacle
    split at h
    · cases h
    · next hshort =>
      rw [if_neg hshort]
      have hwalk : t.walk (loc ++ [s]) ss = .ok loc' := h
      cases ss with
      | nil =>
        cases hwalk
        simp [obstacle]
      | cons s' ss =>
        have hnode := node?_of_walk_cons hwalk
        simpa [content?, hnode] using ih hnode hplain.2 hwalk

/-! ### Obstacles beside other files -/

/-- A file is written at the location, and none of the others that are written lies above or below
it. -/
structure IsOwn (outs : List Location) (loc : Location) : Prop where
  mem : loc ∈ outs
  above : ∀ out ∈ outs, out <+: loc → out = loc
  below : ∀ out ∈ outs, loc <+: out → out = loc

/-- Files that are written stand in nobody's way to the directory of a file of its own. -/
lemma obstacle_of_grows {outs logs : List Location} (hgrows : t.Grows outs logs t')
    (hown : IsOwn outs loc) (hway : ss <+: loc.dropLast) : t'.obstacle [] ss = t.obstacle [] ss := by
  refine obstacle_congr fun above habove => ?_
  rw [List.nil_append]
  cases hgrows.grown above with
  | same h => rw [content?, content?, h]
  | logged _ h h' => simp [content?, h, h']
  | made h h' _ => simp [content?, h, h']
  | written hout h _ =>
    -- the file would be that of the root directory
    have hdir := habove.trans hway
    obtain rfl := hown.above above hout (hdir.trans (List.dropLast_prefix _))
    have hle := hdir.length_le
    rw [List.length_dropLast] at hle
    obtain rfl : above = [] := List.length_eq_zero_iff.mp (by omega)
    exact absurd (node?_nil t) h

/-- A file of its own has its place taken by a directory later if it has so before. -/
lemma directory_iff_of_grows {outs logs : List Location} (hgrows : t.Grows outs logs t')
    (hown : IsOwn outs loc) :
    t'.node? loc = some .directory ↔ t.node? loc = some .directory := by
  cases hgrows.grown loc with
  | same h => rw [h]
  | logged _ h h' => simp [h, h']
  | made h h' hway =>
    obtain ⟨out, hout, hbelow, hne⟩ := hway
    exact absurd (hown.below out hout hbelow).symm hne
  | written _ h h' => simp [h, h']

end FileTree

/-! ### Making directories -/

namespace Workspace

open FileTree

variable {w : Workspace} {p : Path} {anchor : Anchor} {segments : List String}

/-- The path of the directory above a path is no longer. -/
lemma isTooLong_parent (hp : p.isAbsolute = true) (h : isTooLong p = false) :
    isTooLong p.parent = false := by
  have htext : ∀ ss, (Path.text ⟨p.anchor, ss⟩).utf8ByteSize
      = (Path.anchorText p.anchor).utf8ByteSize + (String.intercalate "/" ss).utf8ByteSize := by
    intro ss
    have hanchor : p.anchor ≠ .relative := by simpa [Path.isAbsolute] using hp
    rw [Path.text, if_neg fun hempty => hanchor hempty.1, String.utf8ByteSize_append]
  have hshorter : (String.intercalate "/" p.segments.dropLast).utf8ByteSize
      ≤ (String.intercalate "/" p.segments).utf8ByteSize := by
    by_cases hne : p.segments.dropLast = []
    · simp [hne]
    · have hne' : p.segments ≠ [] := by
        intro hnil
        simp [hnil] at hne
      have hsize := Path.utf8ByteSize_intercalate hne
      have hsize' := Path.utf8ByteSize_intercalate hne'
      have hle := Path.sizeOf_le_of_sublist (List.dropLast_sublist p.segments)
      omega
  have hfull := htext p.segments
  have habove := htext p.segments.dropLast
  rw [isTooLong, decide_eq_false_iff_not, Nat.not_lt] at h ⊢
  rw [Path.parent, habove]
  exact Nat.le_trans (Nat.add_le_add_left hshorter _) (hfull ▸ h)

/-- All but the last step of the way to the slot of a path are the way to its directory. -/
lemma slot_eq (hp : p.isAbsolute = true) (hplain : ".." ∉ p.segments)
    (hshort : isTooLong p = false) (whenTaken : Errno) :
    w.slot p whenTaken
      = if p.segments = [] then .error whenTaken else w.files.walk [] p.segments := by
  rcases List.eq_nil_or_concat' p.segments with hnil | ⟨above, last, hsplit⟩
  · simp [slot, hshort, hnil]
  · have hlast : last ≠ ".." := by
      rintro rfl
      simp [hsplit] at hplain
    have hwalk : w.files.walk [] (above ++ [last])
        = (w.files.walk [] above).bind fun dir => w.files.step dir last := by
      rw [walk_append]
      congr 1
      funext dir
      rw [walk_cons]
      cases w.files.step dir last <;> rfl
    simp only [slot, hshort, hsplit, origin?, hp, List.getLast?_concat, List.dropLast_concat, hwalk]
    cases habove : w.files.walk [] above with
    | error code => simp [bind, Except.bind, habove]
    | ok dir =>
      cases hstep : w.files.step dir last <;> simp [bind, Except.bind, habove, hstep, hlast]

/-- A directory can be made where nothing is missing above it and no file has its place. -/
lemma ensureDirectory_eq (hp : p.isAbsolute = true) (hplain : ".." ∉ p.segments)
    (hshort : isTooLong p = false) :
    w.ensureDirectory p = match w.files.walk [] p.segments with
      | .error code => .error code
      | .ok loc => match w.files.node? loc with
        | none => .ok { w with files := w.files.put loc .directory }
        | some .directory => .ok w
        | some (.file _) => .error .exists := by
  have horigin : w.origin? p = some [] := by rw [origin?, if_pos hp]
  simp only [ensureDirectory, makeDirectory, slot_eq hp hplain hshort, isDirectory, look, hshort,
    horigin, FileTree.look]
  by_cases hnil : p.segments = []
  · simp [hnil, FileTree.walk, bind, Except.bind, Except.map, pure, Except.pure]
  · cases w.files.walk [] p.segments with
    | error code => simp [hnil, bind, Except.bind, Except.map]
    | ok loc =>
      cases hnode : w.files.node? loc with
      | none => simp [hnil, hnode, bind, Except.bind]
      | some node => cases node <;> simp [hnil, hnode, bind, Except.bind, Except.map]

lemma ensureDirectory_paves {w' : Workspace} (hp : p.isAbsolute = true)
    (hplain : ".." ∉ p.segments) (hshort : isTooLong p = false)
    (h : w.ensureDirectory p = .ok w') : w.files.Paves p.segments w'.files ∧
      w'.files.walk [] p.segments = .ok p.segments ∧
      w'.files.node? p.segments = some .directory := by
  rw [ensureDirectory_eq hp hplain hshort] at h
  cases hwalk : w.files.walk [] p.segments with
  | error code =>
    rw [hwalk] at h
    cases h
  | ok loc =>
    obtain rfl : loc = p.segments := eq_append_of_walk hplain hwalk
    rw [hwalk] at h
    cases hnode : w.files.node? p.segments with
    | none =>
      simp only [hnode] at h
      cases h
      have hne : p.segments ≠ [] := ne_nil_of_node? (t := w.files) (by simp [hnode])
      have hkeeps : w.files.Keeps [] (w.files.put p.segments .directory) := .put_directory hnode
      refine ⟨?_, hkeeps.walk_ok hwalk, by rw [node?_put _ _ _ _ hne, if_pos rfl]⟩
      obtain ⟨above, last, hsplit⟩ := (List.eq_nil_or_concat' p.segments).resolve_left hne
      have habove : w.files.node? above = some .directory :=
        directory_of_walk (fun hmem => hplain (by simp [hsplit, hmem])) (hsplit ▸ hwalk)
      rw [hsplit] at hnode ⊢
      exact .make .refl (List.prefix_refl _) habove hnode
    | some node =>
      cases node with
      | file content =>
        simp only [hnode] at h
        cases h
      | directory =>
        simp only [hnode] at h
        cases h
        exact ⟨.refl, hwalk, hnode⟩

lemma ensureDirectory_of_isTooLong (hlong : isTooLong p = true) :
    w.ensureDirectory p = .error .nameTooLong := by
  simp [ensureDirectory, makeDirectory, slot, isDirectory, look, hlong, bind, Except.bind]

/-- A directory can be made where there is no obstacle, unless one above it is missing. -/
lemma ensureDirectory_cases (hp : p.isAbsolute = true) (hplain : ".." ∉ p.segments)
    (hshort : isTooLong p = false) (hsound : w.files.IsSound) :
    w.ensureDirectory p = .error .noEntry ∧ w.files.node? p.segments.dropLast = none ∨
    match w.files.obstacle [] p.segments with
    | none => ∃ w', w.ensureDirectory p = .ok w'
    | some code => code ≠ .noEntry ∧ w.ensureDirectory p = .error code := by
  rw [ensureDirectory_eq hp hplain hshort]
  cases hwalk : w.files.walk [] p.segments with
  | error code =>
    by_cases hcode : code = .noEntry
    · subst hcode
      obtain ⟨above, habove, hmissing⟩ := exists_missing_of_walk (node?_nil _) hplain hwalk
      exact Or.inl ⟨rfl, hsound.none_of_prefix hmissing habove⟩
    · rw [obstacle_of_walk_error (node?_nil _) hplain hwalk hcode]
      exact Or.inr ⟨hcode, rfl⟩
  | ok loc =>
    right
    rw [obstacle_of_walk_ok (node?_nil _) hplain hwalk]
    cases hnode : w.files.node? loc with
    | none => simp [content?, hnode]
    | some node => cases node <;> simp [content?, hnode]

end Workspace

end Bundler
