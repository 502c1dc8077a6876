import Bundler.Element.Emit
import Bundler.InOrder
import Bundler.Proofs.Obstacles
import Bundler.Proofs.Overwriting

/-!
# What comes of writing

Whether a tree can be written to a file is settled by its text, by the obstacles on the way to the
file and by whether a directory has its place. Others may write files at the same time: if theirs
lie neither above nor below the file, then the same comes of writing it.
-/

namespace Bundler

namespace Workspace

open FileTree

variable {w w' w'' : Workspace} {p : Path} {outs outs' logs : List Location} {out loc : Location}

/-! ### Workspaces that grow -/

/-- The tree has grown by files at the locations `outs`, files of the log may have been rewritten,
and nothing else is different. -/
structure Grows (outs logs : List Location) (w w' : Workspace) : Prop where
  same : w' = { w with files := w'.files }
  files : w.files.Grows outs logs w'.files

namespace Grows

lemma refl (outs logs : List Location) (w : Workspace) : Grows outs logs w w :=
  ⟨rfl, .refl _ _ _⟩

lemma trans (h : Grows outs logs w w') (h' : Grows outs logs w' w'') : Grows outs logs w w'' :=
  ⟨by rw [h'.same, h.same], h.files.trans h'.files⟩

instance : IsPreorder Workspace (Grows outs logs) where
  refl := refl outs logs
  trans _ _ _ := trans

lemma mono (hsub : outs ⊆ outs') (h : Grows outs logs w w') : Grows outs' logs w w' :=
  ⟨h.same, h.files.mono hsub⟩

lemma cwd (h : Grows outs logs w w') : w'.cwd = w.cwd := by rw [h.same]

lemma standIns (h : Grows outs logs w w') : w'.standIns = w.standIns := by rw [h.same]

/-- What is missing later was missing before. -/
lemma none_before (h : Grows outs logs w w') (hnone : w'.files.node? loc = none) :
    w.files.node? loc = none := by
  cases h.files.grown loc with
  | same hsame => rw [← hsame, hnone]
  | made hbefore _ _ => exact hbefore
  | logged _ _ hafter => simp [hafter] at hnone
  | written _ _ hafter => simp [hafter] at hnone

/-- A file that is written into a directory lets the workspace grow. -/
lemma put_file (content : ByteArray) (hnode : w.files.node? loc ≠ some .directory)
    (habove : w.files.node? loc.dropLast = some .directory) (hout : loc ∈ outs) :
    Grows outs logs w { w with files := w.files.put loc (.file content) } := by
  obtain ⟨above, last, rfl⟩ :=
    (List.eq_nil_or_concat' loc).resolve_left (ne_nil_of_node? hnode)
  rw [List.dropLast_concat] at habove
  exact ⟨rfl, .put_file content hnode habove hout⟩

end Grows

/-! ### Directories above a file -/

/-- What comes of making a directory beside files that others write: it is there unless there is an
obstacle on the way to it, or the directory above it is missing. -/
lemma ensuring_ensures (hp : p.isAbsolute = true) (hplain : ".." ∉ p.segments)
    (hshort : isTooLong p = false) (hsound : w.files.IsSound) (hown : IsOwn outs out)
    (hway : p.segments <+: out.dropLast) :
    (ensuring p).Ensures (Grows outs logs) (fun result w' =>
      result = .error .noEntry ∧ w.files.node? p.segments.dropLast = none ∨
      match w.files.obstacle [] p.segments with
      | none => result = .ok () ∧ w'.files.walk [] p.segments = .ok p.segments ∧
          w'.files.node? p.segments = some .directory
      | some code => code ≠ .noEntry ∧ result = .error code) w := by
  refine Steps.Ensures.once fun w₁ h₁ => ?_
  rcases ensureDirectory_cases hp hplain hshort (h₁.files.sound hsound) with
    ⟨hnone, hmissing⟩ | hcases
  · rw [hnone]
    exact ⟨.refl _ _ _, fun w₂ _ => Or.inl ⟨rfl, h₁.none_before hmissing⟩⟩
  · rw [obstacle_of_grows h₁.files hown hway] at hcases
    cases hobstacle : w.files.obstacle [] p.segments with
    | some code =>
      rw [hobstacle] at hcases
      rw [hcases.2]
      exact ⟨.refl _ _ _, fun w₂ _ => Or.inr ⟨hcases.1, rfl⟩⟩
    | none =>
      rw [hobstacle] at hcases
      obtain ⟨w₂, hmade⟩ := hcases
      obtain ⟨hpaves, hwalk, hdir⟩ := ensureDirectory_paves hp hplain hshort hmade
      have hsame : w₂ = { w₁ with files := w₂.files } := by
        rw [ensureDirectory_eq hp hplain hshort] at hmade
        split at hmade
        · cases hmade
        · split at hmade <;> cases hmade <;> rfl
      rw [hmade]
      exact ⟨⟨hsame, (hpaves.mono hway).grows hown.mem⟩, fun w₃ h₃ =>
        Or.inr ⟨rfl, h₃.files.keeps.walk_ok hwalk, h₃.files.directory hdir⟩⟩

/-- A directory that is there stays there, and an obstacle is told with the path. -/
lemma told_ensures (logs : List Location) (p : Path) {result : Except Errno Unit} {w₁ : Workspace}
    (h : match w.files.obstacle [] p.segments with
      | none => result = .ok () ∧ w₁.files.walk [] p.segments = .ok p.segments ∧
          w₁.files.node? p.segments = some .directory
      | some code => code ≠ .noEntry ∧ result = .error code) :
    (Pure.pure (result.mapError (fault p)) : Steps Workspace (Except PathFault Unit)).Ensures
      (Grows outs logs) (fun result w' =>
        match w.files.obstacle [] p.segments with
        | none => result = .ok () ∧ w'.files.walk [] p.segments = .ok p.segments ∧
            w'.files.node? p.segments = some .directory
        | some code => ∃ path, result = .error (.file ⟨code, path⟩)) w₁ := by
  refine Steps.Ensures.pure fun w₂ h₂ => ?_
  cases hobstacle : w.files.obstacle [] p.segments with
  | some code =>
    rw [hobstacle] at h
    obtain ⟨-, rfl⟩ := h
    exact ⟨_, rfl⟩
  | none =>
    rw [hobstacle] at h
    obtain ⟨rfl, hwalk, hdir⟩ := h
    exact ⟨rfl, h₂.files.keeps.walk_ok hwalk, h₂.files.directory hdir⟩

/-- What comes of making the directories on the way to a file: the last one is there, unless there is
an obstacle on the way to it. -/
lemma makingDirectoriesAt_ensures (logs : List Location) {anchor : Anchor} {segments : List String}
    (hanchor : anchor ≠ .relative) (hplain : ".." ∉ segments)
    (hshort : isTooLong ⟨anchor, segments.reverse⟩ = false) (hsound : w.files.IsSound)
    (hown : IsOwn outs out) (hway : segments.reverse <+: out.dropLast) :
    (makingDirectoriesAt anchor segments).Ensures (Grows outs logs) (fun result w' =>
      match w.files.obstacle [] segments.reverse with
      | none => result = .ok () ∧
          w'.files.walk [] segments.reverse = .ok segments.reverse ∧
          w'.files.node? segments.reverse = some .directory
      | some code => ∃ path, result = .error (.file ⟨code, path⟩)) w := by
  have habsolute : ∀ ss, (Path.mk anchor ss).isAbsolute = true := by
    intro ss
    simpa [Path.isAbsolute] using hanchor
  induction segments with
  | nil =>
    unfold makingDirectoriesAt
    refine Steps.Ensures.bind
      (ensuring_ensures (habsolute []) (by simp) hshort hsound hown hway) ?_
    rintro result w₁ h₁ (⟨-, hmissing⟩ | hcases)
    · simp at hmissing
    · exact told_ensures (w := w) logs ⟨anchor, []⟩ hcases
  | cons last above ih =>
    rw [List.mem_cons, not_or] at hplain
    unfold makingDirectoriesAt
    rw [List.reverse_cons] at hshort hway ⊢
    have hplain' : ".." ∉ above.reverse ++ [last] := by simp [hplain.1, hplain.2]
    have hshort' : isTooLong ⟨anchor, above.reverse⟩ = false := by
      simpa [Path.parent] using isTooLong_parent (habsolute _) hshort
    have hway' : above.reverse <+: out.dropLast := (List.prefix_append _ _).trans hway
    refine Steps.Ensures.bind
      (ensuring_ensures (habsolute _) hplain' hshort hsound hown hway) ?_
    rintro result w₁ h₁ (⟨rfl, hmissing⟩ | hcases)
    · -- the directory above is made first, and then nothing is missing
      rw [List.dropLast_concat] at hmissing
      have hconcat : w.files.content? ([] ++ above.reverse) = none := by simp [content?, hmissing]
      have hobstacle := obstacle_concat last hconcat
      refine Steps.Ensures.bind ((ih hplain.2 hshort' hway').of_rel h₁) ?_
      intro result w₂ h₂ hresult
      have h₁₂ := h₁.trans h₂
      cases habove : w.files.obstacle [] above.reverse with
      | some code =>
        rw [habove] at hresult hobstacle
        obtain ⟨path, rfl⟩ := hresult
        rw [hobstacle]
        exact Steps.Ensures.pure fun _ _ => ⟨path, rfl⟩
      | none =>
        rw [habove] at hresult
        obtain ⟨rfl, -, hdir⟩ := hresult
        refine Steps.Ensures.bind (ensuring_ensures (habsolute _) hplain' hshort
          (h₁₂.files.sound hsound) hown hway) ?_
        rintro result w₃ h₃ (⟨-, hmissing'⟩ | hcases)
        · rw [List.dropLast_concat, hdir] at hmissing'
          cases hmissing'
        · rw [obstacle_of_grows h₁₂.files hown hway] at hcases
          exact told_ensures logs ⟨anchor, above.reverse ++ [last]⟩ hcases
    · have hfound : result ≠ .error .noEntry := by
        rintro rfl
        split at hcases
        · cases hcases.1
        · exact hcases.1 (Except.error.inj hcases.2).symm
      cases result with
      | ok => exact told_ensures logs ⟨anchor, above.reverse ++ [last]⟩ hcases
      | error code =>
        cases code with
        | noEntry => exact absurd rfl hfound
        | _ => exact told_ensures logs ⟨anchor, above.reverse ++ [last]⟩ hcases

lemma makingDirectoriesAt_of_isTooLong {anchor : Anchor} {segments : List String}
    (hlong : isTooLong ⟨anchor, segments.reverse⟩ = true) :
    (makingDirectoriesAt anchor segments).Ensures (Grows outs logs) (fun result _ =>
      result = .error (fault ⟨anchor, segments.reverse⟩ .nameTooLong)) w := by
  have hensuring : (ensuring ⟨anchor, segments.reverse⟩).Ensures (Grows outs logs)
      (fun result _ => result = .error .nameTooLong) w := by
    refine Steps.Ensures.once fun w₁ _ => ?_
    rw [ensureDirectory_of_isTooLong hlong]
    exact ⟨.refl _ _ _, fun _ _ => rfl⟩
  cases segments with
  | nil =>
    refine Steps.Ensures.bind hensuring ?_
    rintro result w₁ - rfl
    exact Steps.Ensures.pure fun _ _ => rfl
  | cons last above =>
    refine Steps.Ensures.bind hensuring ?_
    rintro result w₁ - rfl
    exact Steps.Ensures.pure fun _ _ => rfl

/-- What keeps the directory at a path, or one above it, from being made. -/
def directoryFault? (w : Workspace) (p : Path) : Option PathFault :=
  if holdsNull p then some .nullByte
  else if isTooLong p then some (fault p .nameTooLong)
  else (w.files.obstacle [] p.segments).map (fault p)

/-- The fault names the directory at which it comes up, which may be one above. -/
lemma makingDirectories_ensures (hp : p.isAbsolute = true) (hplain : ".." ∉ p.segments)
    (hsound : w.files.IsSound) (hown : IsOwn outs out) (hway : p.segments <+: out.dropLast) :
    (makingDirectories p).Ensures (Grows outs logs) (fun result w' =>
      match w.directoryFault? p with
      | none => result = .ok () ∧ w'.files.walk [] p.segments = .ok p.segments ∧
          w'.files.node? p.segments = some .directory
      | some .nullByte => result = .error .nullByte
      | some (.file error) => ∃ path, result = .error (.file ⟨error.code, path⟩)) w := by
  have hanchor : p.anchor ≠ .relative := by simpa [Path.isAbsolute] using hp
  unfold directoryFault? makingDirectories
  cases hnull : holdsNull p with
  | true => exact Steps.Ensures.pure fun _ _ => rfl
  | false =>
    have hpath : Path.mk p.anchor p.segments.reverse.reverse = p := by rw [List.reverse_reverse]
    cases hlong : isTooLong p with
    | true =>
      refine (makingDirectoriesAt_of_isTooLong (hpath.symm ▸ hlong)).mono ?_
      rintro result w' - rfl
      exact ⟨_, rfl⟩
    | false =>
      have hmade := makingDirectoriesAt_ensures logs hanchor (by rwa [List.mem_reverse]) (hpath ▸ hlong) hsound hown
        (by rwa [List.reverse_reverse])
      refine hmade.mono fun result w' _ hresult => ?_
      rw [List.reverse_reverse] at hresult
      cases hobstacle : w.files.obstacle [] p.segments with
      | none => rwa [hobstacle] at hresult
      | some code => rwa [hobstacle] at hresult

/-! ### The file itself -/

/-- What keeps a file from being opened at a path whose directory is there. -/
def fileFault? (w : Workspace) (p : Path) : Option PathFault :=
  if holdsNull p then some .nullByte
  else if isTooLong p then some (fault p .nameTooLong)
  else match p.segments.getLast? with
    | none => some (fault p .isDirectory)
    | some last =>
      if nameLimit < last.utf8ByteSize then some (fault p .nameTooLong)
      else if w.files.node? p.segments = some .directory then some (fault p .isDirectory)
      else none

lemma openFile_eq (hp : p.isAbsolute = true) (hplain : ".." ∉ p.segments)
    (hwalk : w.files.walk [] p.segments.dropLast = .ok p.segments.dropLast)
    (hdir : w.files.node? p.segments.dropLast = some .directory) :
    w.openFile p = match w.fileFault? p with
      | none => .ok (p.segments, { w with files := w.files.put p.segments (.file .empty) })
      | some fault => .error fault := by
  unfold fileFault? openFile
  cases holdsNull p with
  | true => rfl
  | false =>
    cases hlong : isTooLong p with
    | true => simp [slot, hlong]
    | false =>
      rw [slot_eq hp hplain hlong]
      rcases List.eq_nil_or_concat' p.segments with hnil | ⟨above, last, hsplit⟩
      · simp [hnil]
      · have hlast : last ≠ ".." := by
          rintro rfl
          simp [hsplit] at hplain
        rw [hsplit, List.dropLast_concat] at hwalk hdir
        have hstep : w.files.walk [] (above ++ [last])
            = if nameLimit < last.utf8ByteSize then .error .nameTooLong
              else .ok (above ++ [last]) := by
          rw [walk_append, hwalk]
          dsimp only [Except.bind]
          rw [walk_cons, step_down hdir hlast]
          split <;> rfl
        by_cases hname : nameLimit < last.utf8ByteSize
        · simp [hsplit, hstep, hname]
        · simp only [hsplit, hstep, hname, List.getLast?_concat]
          cases hnode : w.files.node? (above ++ [last]) with
          | none => simp [hnode]
          | some node => cases node <;> simp [hnode]

/-- What comes of opening a file beside files that others write, if its directory is there. -/
lemma opening_ensures (hp : p.isAbsolute = true) (hplain : ".." ∉ p.segments)
    (hown : IsOwn outs p.segments)
    (hwalk : w.files.walk [] p.segments.dropLast = .ok p.segments.dropLast)
    (hdir : w.files.node? p.segments.dropLast = some .directory) :
    (opening p).Ensures (Grows outs logs) (fun result _ =>
      result = match w.fileFault? p with
        | none => .ok p.segments
        | some fault => .error fault) w := by
  refine Steps.Ensures.once fun w₁ h₁ => ?_
  have hdir₁ := h₁.files.directory hdir
  have hsame : w₁.fileFault? p = w.fileFault? p := by
    simp only [fileFault?, directory_iff_of_grows h₁.files hown]
  have hopened := openFile_eq hp hplain (h₁.files.keeps.walk_ok hwalk) hdir₁
  rw [hsame] at hopened
  cases hfault : w.fileFault? p with
  | some fault =>
    rw [hfault] at hopened
    rw [hopened]
    exact ⟨.refl _ _ _, fun _ _ => rfl⟩
  | none =>
    rw [hfault] at hopened
    rw [hopened]
    exact ⟨.put_file _ (openFile_ok hopened).1 hdir₁ hown.mem, fun _ _ => rfl⟩

lemma fill_cases (w : Workspace) (loc : Location) (bytes : ByteArray) :
    w.files.content? loc = none ∧ w.fill loc bytes = w ∨
    ∃ old, w.files.content? loc = some old ∧ w.files.node? loc ≠ some .directory ∧
      w.fill loc bytes = { w with files := w.files.put loc (.file (overlay bytes old)) } := by
  unfold fill
  cases hcontent : w.files.content? loc with
  | none => exact Or.inl ⟨rfl, rfl⟩
  | some old =>
    exact Or.inr ⟨old, rfl, node?_ne_directory_of_content? hcontent, rfl⟩

/-- Whether a text can be written depends on its encoding only. -/
lemma filling_ensures (hsound : w.files.IsSound) (hout : loc ∈ outs) (text : String) :
    (filling loc text).Ensures (Grows outs logs) (fun result _ =>
      result = (Text.Utf8.encode w.standIns text).map fun _ => ()) w := by
  refine Steps.Ensures.once fun w₁ h₁ => ?_
  rw [h₁.standIns]
  cases Text.Utf8.encode w.standIns text with
  | error fault => exact ⟨.refl _ _ _, fun _ _ => rfl⟩
  | ok bytes =>
    refine ⟨?_, fun _ _ => rfl⟩
    dsimp only
    rcases w₁.fill_cases loc bytes with ⟨-, hfill⟩ | ⟨old, hcontent, hnode, hfill⟩
    · rw [hfill]
      exact .refl _ _ _
    · rw [hfill]
      have hne := ne_nil_of_node? hnode
      refine .put_file _ hnode ?_ hout
      have hthere : w₁.files.node? loc ≠ none := by
        intro hnone
        simp [content?, hnone] at hcontent
      refine (h₁.files.sound hsound).directory_above hthere (List.dropLast_prefix loc) ?_
      intro heq
      have hlength := congrArg List.length heq
      have hpos := List.length_pos_iff.mpr hne
      rw [List.length_dropLast] at hlength
      omega

/-! ### Each step -/

lemma ensuring_always (p : Path) : (ensuring p).Always (Keeps []) (fun _ => True) := by
  refine Steps.Always.once fun w => ⟨?_, trivial⟩
  cases hmade : w.ensureDirectory p with
  | ok made => exact ensureDirectory_keeps hmade
  | error code => exact .refl _ _

lemma makingDirectoriesAt_always (anchor : Anchor) (segments : List String) :
    (makingDirectoriesAt anchor segments).Always (Keeps []) (fun _ => True) := by
  induction segments with
  | nil => exact (ensuring_always _).bind fun _ _ => Steps.Always.pure trivial
  | cons last above ih =>
    refine (ensuring_always _).bind fun result _ => ?_
    split
    · refine ih.bind fun result _ => ?_
      cases result with
      | error fault => exact Steps.Always.pure trivial
      | ok _ => exact (ensuring_always _).bind fun _ _ => Steps.Always.pure trivial
    · exact Steps.Always.pure trivial

/-- Making directories changes no file. -/
lemma makingDirectories_always (p : Path) :
    (makingDirectories p).Always (Keeps []) (fun _ => True) := by
  unfold makingDirectories
  split
  · exact Steps.Always.pure trivial
  · exact makingDirectoriesAt_always _ _

/-- A file that is opened is empty, and others stay as they are. -/
lemma content?_openFile {opened : Workspace} (h : w.openFile p = .ok (loc, opened))
    (other : Location) : opened.files.content? other
      = if other = loc then some .empty else w.files.content? other := by
  obtain ⟨hnode, rfl⟩ := openFile_ok h
  have hloc := ne_nil_of_node? hnode
  split
  · next heq =>
    subst heq
    exact content?_put_file _ hloc
  · next hne => exact content?_put_of_ne _ hloc hne

/-- A file that is written to holds the bytes over what it held, and others stay as they are. -/
lemma content?_fill (w : Workspace) (loc : Location) (bytes : ByteArray) (other : Location) :
    (w.fill loc bytes).files.content? other
      = if other = loc then (w.files.content? loc).map (overlay bytes)
        else w.files.content? other := by
  rcases w.fill_cases loc bytes with ⟨hcontent, hfill⟩ | ⟨old, hcontent, hnode, hfill⟩
  · rw [hfill, hcontent]
    split
    · next heq => rw [heq, hcontent]; rfl
    · rfl
  · rw [hfill, hcontent]
    have hloc := ne_nil_of_node? hnode
    split
    · next heq =>
      subst heq
      exact content?_put_file _ hloc
    · next hne => exact content?_put_of_ne _ hloc hne

end Workspace

/-! ### Whole trees -/

namespace Tree

open FileTree Workspace

variable {tree : Tree} {w w' : Workspace} {p : Path} {outs logs : List Location} {loc : Location}

/-- What keeps a tree from being written to a file, if it is not its text. -/
def fault? (w : Workspace) (p : Path) : Option PathFault :=
  (w.directoryFault? p.parent).or (w.fileFault? p)

/-- What comes of writing a tree. -/
def verdict (tree : Tree) (w : Workspace) (p : Path) : Except Failure Unit := do
  let text ← tree.render
  match fault? w p with
  | some fault => .error (refused p fault)
  | none => ((Text.Utf8.encode w.standIns text).map fun _ => ()).mapError .unencodable

/-- Files that others write stand in nobody's way. -/
lemma verdict_of_grows (tree : Tree) (hgrows : w.Grows outs logs w')
    (hown : IsOwn outs p.segments) : tree.verdict w' p = tree.verdict w p := by
  have hobstacle : w'.files.obstacle [] p.parent.segments = w.files.obstacle [] p.parent.segments :=
    obstacle_of_grows hgrows.files hown (List.prefix_refl _)
  simp only [verdict, fault?, directoryFault?, fileFault?, hobstacle,
    directory_iff_of_grows hgrows.files hown, hgrows.standIns]

/-- A tree is written beside files that others write as its text and the obstacles found at first
say. -/
theorem writing_ensures (tree : Tree) (logs : List Location) (hp : p.isAbsolute = true) (hplain : ".." ∉ p.segments)
    (hsound : w.files.IsSound) (hown : IsOwn outs p.segments) :
    (tree.writing p).Ensures (Workspace.Grows outs logs)
      (fun result _ => result = tree.verdict w p) w := by
  have hplain' : ".." ∉ p.parent.segments := fun hmem => hplain (List.dropLast_subset _ hmem)
  unfold writing verdict
  cases tree.render with
  | error failure => exact Steps.Ensures.pure fun _ _ => rfl
  | ok text =>
    simp only [bind, Except.bind]
    refine Steps.Ensures.bind
      (makingDirectories_ensures (p := p.parent) hp hplain' hsound hown (List.prefix_refl _)) ?_
    intro result w₁ h₁ hresult
    unfold fault?
    cases hfault : w.directoryFault? p.parent with
    | some fault =>
      rw [hfault] at hresult
      cases fault with
      | nullByte =>
        obtain rfl : result = _ := hresult
        exact Steps.Ensures.pure fun _ _ => rfl
      | file error =>
        obtain ⟨path, rfl⟩ := hresult
        exact Steps.Ensures.pure fun _ _ => rfl
    | none =>
      rw [hfault] at hresult
      obtain ⟨rfl, hwalk, hdir⟩ := hresult
      refine Steps.Ensures.bind (opening_ensures hp hplain hown hwalk hdir) ?_
      have hsame : w₁.fileFault? p = w.fileFault? p := by
        simp only [fileFault?, directory_iff_of_grows h₁.files hown]
      rintro result w₂ h₂ rfl
      rw [hsame, Option.none_or]
      cases w.fileFault? p with
      | some fault => exact Steps.Ensures.pure fun _ _ => rfl
      | none =>
        have h₁₂ := h₁.trans h₂
        refine Steps.Ensures.bind (filling_ensures (h₁₂.files.sound hsound) hown.mem text) ?_
        rintro result w₃ - rfl
        rw [h₁₂.standIns]
        exact Steps.Ensures.pure fun _ _ => rfl

/-! ### Whatever others do -/

lemma refused_ne (p : Path) (fault : PathFault) : refused p fault ≠ .cancelled ∧
    ∀ f, refused p fault ≠ .unencodable f := by
  cases fault <;> exact ⟨nofun, nofun⟩

/-- Writing leaves the current directory as it is, and is never called off. -/
lemma writing_always (tree : Tree) (p : Path) :
    (tree.writing p).Always (fun w w' => w'.cwd = w.cwd)
      (fun result => result ≠ .error .cancelled) := by
  have hrefused : ∀ fault, (.error (refused p fault) : Except Failure Unit) ≠ .error .cancelled :=
    fun fault h => (refused_ne p fault).1 (Except.error.inj h)
  unfold writing
  cases hrender : tree.render with
  | error failure =>
    obtain ⟨name, rfl⟩ := exists_of_render_error hrender
    exact Steps.Always.pure nofun
  | ok text =>
    refine ((makingDirectories_always p.parent).mono fun _ _ h => h.cwd).bind ?_
    rintro (fault | _) -
    · exact Steps.Always.pure (hrefused fault)
    have hopening : (Workspace.opening p).Always (fun w w' => w'.cwd = w.cwd) (fun _ => True) := by
      refine Steps.Always.once fun w => ⟨?_, trivial⟩
      cases hopened : w.openFile p with
      | error fault => rfl
      | ok whole => rw [(openFile_ok hopened).2]
    refine hopening.bind ?_
    rintro (fault | loc) -
    · exact Steps.Always.pure (hrefused fault)
    have hfilling : (filling loc text).Always (fun w w' => w'.cwd = w.cwd) (fun _ => True) := by
      refine Steps.Always.once fun w => ⟨?_, trivial⟩
      cases Text.Utf8.encode w.standIns text with
      | error fault => rfl
      | ok bytes =>
        rcases w.fill_cases loc bytes with ⟨-, hfill⟩ | ⟨_, -, -, hfill⟩ <;>
          simp only [hfill]
    refine hfilling.bind ?_
    rintro (fault | _) -
    · exact Steps.Always.pure nofun
    · exact Steps.Always.pure nofun

/-- How writing a tree to a path ends, told by how far it has come with the file at a location. -/
def EndsAt (tree : Tree) (p : Path) (loc : Location) :
    Steps.Stage → Except Failure Unit → Prop
  | .idle, result => p.normalize.segments = loc →
      ∃ failure, result = .error failure ∧ ∀ fault, failure ≠ .unencodable fault
  | .opened, result => p.normalize.segments = loc ∧ ∃ fault, result = .error (.unencodable fault)
  | .wrote bytes, result => p.normalize.segments = loc ∧ result = .ok () ∧
      ∃ text, tree.render = .ok text ∧ bytes = text.toUTF8

/-- How opening the file at a path ends, told by how far it has come with a location. -/
def OpensAt (p : Path) (loc : Location) (stage : Steps.Stage) : Except PathFault Location → Prop
  | .error _ => stage = .idle
  | .ok place => place = p.normalize.segments ∧ stage = if loc = place then .opened else .idle

lemma opening_follows (hp : p.isAbsolute = true) (loc : Location) :
    (Workspace.opening p).Follows (fun _ => True) (fun w => w.files.content? loc) (OpensAt p loc)
      .idle := by
  refine .once fun w _ => ⟨trivial, ?_⟩
  cases hopened : w.openFile p with
  | error fault => exact ⟨.idle, .stay _ _, rfl⟩
  | ok whole =>
    obtain ⟨place, opened⟩ := whole
    refine ⟨_, ?_, openFile_location hp hopened, rfl⟩
    dsimp only
    rw [content?_openFile hopened]
    split
    · exact .opening _
    · exact .stay _ _

lemma filling_follows {tree : Tree} {text : String} (hrender : tree.render = .ok text)
    (loc : Location) :
    (filling p.normalize.segments text).Follows (fun _ => True) (fun w => w.files.content? loc)
      (fun stage result => tree.EndsAt p loc stage (result.mapError .unencodable))
      (if loc = p.normalize.segments then .opened else .idle) := by
  refine .once fun w _ => ⟨trivial, ?_⟩
  cases hencode : Text.Utf8.encode w.standIns text with
  | error fault =>
    refine ⟨_, .stay _ _, ?_⟩
    split
    · next heq => exact ⟨heq.symm, fault, rfl⟩
    · next hne => exact fun heq => absurd heq.symm hne
  | ok bytes =>
    obtain rfl := Text.Utf8.encode_ok hencode
    dsimp only
    rw [content?_fill]
    split
    · next heq =>
      subst heq
      exact ⟨.wrote text.toUTF8, .writing _ _, rfl, rfl, text, hrender, rfl⟩
    · next hne => exact ⟨.idle, .stay _ _, fun heq => absurd heq.symm hne⟩

/-- A tree is written to a file in the order of the stages. -/
theorem writing_follows (tree : Tree) (hp : p.isAbsolute = true) (loc : Location) :
    (tree.writing p).Follows (fun _ => True) (fun w => w.files.content? loc)
      (tree.EndsAt p loc) .idle := by
  have hrefused : ∀ fault, tree.EndsAt p loc .idle (.error (refused p fault)) :=
    fun fault _ => ⟨_, rfl, (refused_ne p fault).2⟩
  unfold writing
  cases hrender : tree.render with
  | error failure =>
    obtain ⟨name, rfl⟩ := exists_of_render_error hrender
    exact fun _ => ⟨_, rfl, nofun⟩
  | ok text =>
    have hmaking : (makingDirectories p.parent).Follows (fun _ => True)
        (fun w => w.files.content? loc) (fun stage _ => stage = .idle ∧ True) .idle :=
      .of_always (makingDirectories_always _) fun w w' _ hkeeps =>
        ⟨trivial, hkeeps.files.content loc (by simp)⟩
    refine hmaking.bind ?_
    rintro stage (fault | _) ⟨rfl, -⟩
    · exact hrefused fault
    refine (opening_follows hp loc).bind ?_
    rintro stage (fault | place) hstage
    · obtain rfl : stage = .idle := hstage
      exact hrefused fault
    · obtain ⟨rfl, rfl⟩ := hstage
      exact (filling_follows hrender loc).bind fun stage result hends => hends

end Tree

end Bundler
