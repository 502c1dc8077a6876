import Bundler.Element.Emit
import Bundler.InOrder
import Bundler.Log.Journal
import Bundler.Proofs.InOrder
import Bundler.Proofs.Locations
import Bundler.Proofs.Steps

/-!
# What operations change

`Keeps changing` says of an earlier and a later state that all directories stay and that only files
at the locations `changing` differ. Making directories keeps every file, writing a file keeps all
others, and the log only changes its own files.
-/

namespace Bundler

/-! ### File trees -/

namespace FileTree

variable {changing more : List Location} {t t' t'' : FileTree} {loc loc' : Location}

/-- All directories stay, and only files at the locations `changing` differ. -/
structure Keeps (changing : List Location) (t t' : FileTree) : Prop where
  content : ∀ loc ∉ changing, t'.content? loc = t.content? loc
  directory : ∀ loc, t.node? loc = some .directory → t'.node? loc = some .directory

lemma Keeps.refl (changing : List Location) (t : FileTree) : Keeps changing t t :=
  ⟨fun _ _ => rfl, fun _ => id⟩

lemma Keeps.trans (h : Keeps changing t t') (h' : Keeps changing t' t'') : Keeps changing t t'' where
  content loc hloc := (h'.content loc hloc).trans (h.content loc hloc)
  directory loc hloc := h'.directory loc (h.directory loc hloc)

lemma Keeps.mono (hsub : changing ⊆ more) (h : Keeps changing t t') : Keeps more t t' :=
  ⟨fun loc hloc => h.content loc fun hmem => hloc (hsub hmem), h.directory⟩

lemma content?_put_of_ne {other : Location} (node : Node) (hloc : loc ≠ []) (hne : other ≠ loc) :
    (t.put loc node).content? other = t.content? other := by
  rw [content?, node?_put t loc node other hloc, if_neg hne, content?]

lemma content?_put_file (content : ByteArray) (hloc : loc ≠ []) :
    (t.put loc (.file content)).content? loc = some content := by
  rw [content?, node?_put t loc _ loc hloc, if_pos rfl]

@[simp] lemma put_put (t : FileTree) (loc : Location) (node node' : Node) :
    (t.put loc node).put loc node' = t.put loc node' := by
  simp [put, List.filter_filter]

lemma ne_nil_of_node? (h : t.node? loc ≠ some .directory) : loc ≠ [] := by
  rintro rfl
  exact h (node?_nil t)

lemma Keeps.put_directory (h : t.node? loc = none) : Keeps changing t (t.put loc .directory) := by
  have hloc : loc ≠ [] := ne_nil_of_node? (t := t) (by simp [h])
  constructor
  · intro other _
    by_cases heq : other = loc
    · subst heq
      rw [content?, node?_put t other _ other hloc, if_pos rfl, content?, h]
    · exact content?_put_of_ne _ hloc heq
  · intro other hother
    rw [node?_put t loc .directory other hloc]
    split
    · rfl
    · exact hother

lemma Keeps.put_file (content : ByteArray) (hmem : loc ∈ changing)
    (h : t.node? loc ≠ some .directory) : Keeps changing t (t.put loc (.file content)) := by
  have hloc : loc ≠ [] := ne_nil_of_node? h
  constructor
  · intro other hother
    exact content?_put_of_ne _ hloc fun heq => hother (heq ▸ hmem)
  · intro other hother
    rw [node?_put t loc _ other hloc, if_neg]
    · exact hother
    · rintro rfl
      exact h hother

/-! ### Walks -/

lemma Keeps.step_ok {segment : String} (h : Keeps changing t t')
    (hstep : t.step loc segment = .ok loc') : t'.step loc segment = .ok loc' := by
  unfold step at hstep ⊢
  split at hstep
  · cases hstep
  · cases hstep
  · next hnode =>
    rw [h.directory loc hnode]
    exact hstep

lemma Keeps.walk_ok {segments : List String} (h : Keeps changing t t')
    (hwalk : t.walk loc segments = .ok loc') : t'.walk loc segments = .ok loc' := by
  unfold walk at hwalk ⊢
  induction segments generalizing loc with
  | nil => exact hwalk
  | cons segment segments ih =>
    rw [List.foldlM_cons] at hwalk ⊢
    cases hstep : t.step loc segment with
    | error code =>
      rw [hstep] at hwalk
      cases hwalk
    | ok next =>
      rw [hstep] at hwalk
      rw [h.step_ok hstep]
      exact ih hwalk

/-! ### Files rewritten -/

lemma node?_ne_directory_of_content? {content : ByteArray} (h : t.content? loc = some content) :
    t.node? loc ≠ some .directory := by
  intro hnode
  rw [content?, hnode] at h
  cases h

/-- The later tree comes from the earlier one by writing to files that are there, all of them at the
locations `changing`. -/
inductive Rewrites (changing : List Location) (t : FileTree) : FileTree → Prop where
  | refl : Rewrites changing t t
  | write {t' : FileTree} {loc : Location} {content : ByteArray} (content' : ByteArray)
      (h : Rewrites changing t t') (hmem : loc ∈ changing)
      (hfile : t'.content? loc = some content) : Rewrites changing t (t'.put loc (.file content'))

lemma Rewrites.eq_of_nil (h : Rewrites [] t t') : t' = t := by
  cases h with
  | refl => rfl
  | write _ _ hmem _ => cases hmem

lemma Rewrites.trans (h : Rewrites changing t t') (h' : Rewrites changing t' t'') :
    Rewrites changing t t'' := by
  induction h' with
  | refl => exact h
  | write content' _ hmem hfile ih => exact .write content' ih hmem hfile

lemma Rewrites.mono (hsub : changing ⊆ more) (h : Rewrites changing t t') :
    Rewrites more t t' := by
  induction h with
  | refl => exact .refl
  | write content' _ hmem hfile ih => exact .write content' ih (hsub hmem) hfile

lemma Rewrites.keeps (h : Rewrites changing t t') : Keeps changing t t' := by
  induction h with
  | refl => exact .refl _ _
  | write content' _ hmem hfile ih =>
    exact ih.trans (.put_file content' hmem (node?_ne_directory_of_content? hfile))

end FileTree

/-! ### Workspaces -/

namespace Workspace

open FileTree

variable {changing : List Location} {w w' w'' : Workspace} {p : Path} {loc : Location}

/-- The current directory is the same, all directories stay, and only files at the locations
`changing` differ. -/
structure Keeps (changing : List Location) (w w' : Workspace) : Prop where
  cwd : w'.cwd = w.cwd
  files : w.files.Keeps changing w'.files

lemma Keeps.refl (changing : List Location) (w : Workspace) : Keeps changing w w :=
  ⟨rfl, .refl _ _⟩

lemma Keeps.trans (h : Keeps changing w w') (h' : Keeps changing w' w'') : Keeps changing w w'' :=
  ⟨h'.cwd.trans h.cwd, h.files.trans h'.files⟩

lemma Keeps.mono {more : List Location} (hsub : changing ⊆ more) (h : Keeps changing w w') :
    Keeps more w w' := ⟨h.cwd, h.files.mono hsub⟩

lemma makeDirectory_ok (h : w.makeDirectory p = .ok w') :
    ∃ loc, w.files.node? loc = none ∧ w' = { w with files := w.files.put loc .directory } := by
  unfold makeDirectory at h
  cases hslot : w.slot p .exists with
  | error code =>
    rw [hslot] at h
    cases h
  | ok loc =>
    rw [hslot] at h
    cases hnode : w.files.node? loc with
    | some node => simp [hnode, bind, Except.bind] at h
    | none =>
      simp only [hnode, bind, Except.bind, Except.ok.injEq] at h
      exact ⟨loc, hnode, h.symm⟩

lemma ensureDirectory_keeps (h : w.ensureDirectory p = .ok w') : w.Keeps changing w' := by
  unfold ensureDirectory at h
  split at h
  · next made hmade =>
    cases h
    obtain ⟨loc, hnode, rfl⟩ := makeDirectory_ok hmade
    exact ⟨rfl, .put_directory hnode⟩
  · split at h
    · cases h
      exact .refl _ _
    · cases h

/-- Make the directory at `anchor` and the given segments, last first, with all above it that is
missing, in a row. -/
def makeDirectoriesAt (w : Workspace) (anchor : Anchor) (segments : List String) :
    Except PathFault Unit × Workspace :=
  (makingDirectoriesAt anchor segments).run w

lemma makeDirectories_eq (w : Workspace) (p : Path) :
    w.makeDirectories p = if holdsNull p then (.error .nullByte, w)
      else w.makeDirectoriesAt p.anchor p.segments.reverse := by
  unfold makeDirectories makingDirectories
  split <;> rfl

lemma makeDirectoriesAt_nil (w : Workspace) (anchor : Anchor) :
    w.makeDirectoriesAt anchor [] = match w.ensureDirectory ⟨anchor, []⟩ with
      | .ok w => (.ok (), w)
      | .error code => (.error (fault ⟨anchor, []⟩ code), w) := by
  unfold makeDirectoriesAt makingDirectoriesAt ensuring
  rw [Steps.run_bind, Steps.run_once]
  cases w.ensureDirectory ⟨anchor, []⟩ <;> rfl

lemma makeDirectoriesAt_cons (w : Workspace) (anchor : Anchor) (last : String)
    (above : List String) :
    w.makeDirectoriesAt anchor (last :: above) =
      match w.ensureDirectory ⟨anchor, (last :: above).reverse⟩ with
      | .ok w => (.ok (), w)
      | .error .noEntry =>
        match w.makeDirectoriesAt anchor above with
        | (.error f, w) => (.error f, w)
        | (.ok (), w) =>
          match w.ensureDirectory ⟨anchor, (last :: above).reverse⟩ with
          | .ok w => (.ok (), w)
          | .error code => (.error (fault ⟨anchor, (last :: above).reverse⟩ code), w)
      | .error code => (.error (fault ⟨anchor, (last :: above).reverse⟩ code), w) := by
  unfold makeDirectoriesAt
  rw [makingDirectoriesAt]
  simp only [ensuring, Steps.run_bind, Steps.run_once]
  cases w.ensureDirectory ⟨anchor, (last :: above).reverse⟩ with
  | ok w' => rfl
  | error code =>
    cases code with
    | noEntry =>
      dsimp only
      rw [Steps.run_bind]
      rcases (makingDirectoriesAt anchor above).run w with ⟨_ | _, w'⟩
      · rfl
      · dsimp only
        rw [Steps.run_bind, Steps.run_once]
        cases w'.ensureDirectory ⟨anchor, (last :: above).reverse⟩ <;> rfl
    | _ => rfl

/-- Directories that were made before one could not be made are kept, too. -/
lemma makeDirectoriesAt_keeps (w : Workspace) (anchor : Anchor) (segments : List String) :
    w.Keeps changing (w.makeDirectoriesAt anchor segments).2 := by
  induction segments generalizing w with
  | nil =>
    rw [makeDirectoriesAt_nil]
    split
    · next hmade => exact ensureDirectory_keeps hmade
    · exact .refl _ _
  | cons last above ih =>
    rw [makeDirectoriesAt_cons]
    split
    · next hmade => exact ensureDirectory_keeps hmade
    · have habove := ih w
      split
      · next heq => rwa [heq] at habove
      · next heq =>
        rw [heq] at habove
        split
        · next hmade => exact habove.trans (ensureDirectory_keeps hmade)
        · exact habove
    · exact .refl _ _

lemma makeDirectories_keeps (w : Workspace) (p : Path) :
    w.Keeps changing (w.makeDirectories p).2 := by
  rw [makeDirectories_eq]
  split
  · exact .refl _ _
  · exact makeDirectoriesAt_keeps w _ _

/-- The slot of an absolute path is the location that its normal form writes. -/
lemma slot_ok {whenTaken : Errno} (hp : p.isAbsolute = true) (h : w.slot p whenTaken = .ok loc) :
    loc = p.normalize.segments := by
  unfold slot at h
  split at h
  · cases h
  · split at h
    · cases h
    · next last hlast =>
      rw [origin?, if_pos hp] at h
      dsimp only at h
      cases hwalk : w.files.walk [] p.segments.dropLast with
      | error code =>
        rw [hwalk] at h
        cases h
      | ok dir =>
        rw [hwalk] at h
        have hdir := FileTree.walk_ok (by simp) hwalk
        have hup : ".." ∉ dir := by
          rw [hdir]
          exact (Path.isNormal_collapse true p.segments.dropLast).not_mem
        cases hstep : w.files.step dir last with
        | error code =>
          rw [bind, Except.instMonad] at h
          simp [Except.bind, hstep] at h
        | ok reached =>
          have hreached := (FileTree.step_ok hup hstep).1
          have hsplit : p.segments = p.segments.dropLast ++ [last] :=
            (List.dropLast_append_getLast? _ hlast).symm
          have hloc : loc = reached := by
            simp only [bind, Except.bind, hstep] at h
            split at h
            · cases h
            · cases h
              rfl
          rw [hloc, Path.normalize, hp, Path.collapse, hsplit, List.foldl_append, ← List.reverse_eq_iff,
            hreached, hdir]
          simp

/-- A file that is opened is empty afterwards. -/
lemma openFile_ok (h : w.openFile p = .ok (loc, w')) :
    w.files.node? loc ≠ some .directory ∧
      w' = { w with files := w.files.put loc (.file .empty) } := by
  unfold openFile at h
  split at h
  · cases h
  · split at h
    · cases h
    · split at h
      · cases h
      · next hnode =>
        cases h
        exact ⟨hnode, rfl⟩

/-- A file is opened at the location that the normal form of its path writes. -/
lemma openFile_location (hp : p.isAbsolute = true) (h : w.openFile p = .ok (loc, w')) :
    loc = p.normalize.segments := by
  unfold openFile at h
  split at h
  · cases h
  · split at h
    · cases h
    · next hslot =>
      obtain rfl := slot_ok hp hslot
      split at h <;> cases h
      rfl

@[simp] lemma overlay_empty (bytes : ByteArray) : overlay bytes .empty = bytes := by
  have hrest : ByteArray.empty.extract bytes.size ByteArray.empty.size = .empty := by
    simp [ByteArray.extract_eq_empty_iff]
  rw [overlay, hrest, ByteArray.append_empty]

/-- Bytes written into a file that has just been opened are all of it. -/
lemma fill_put_empty (hloc : loc ≠ []) (bytes : ByteArray) :
    fill { w with files := w.files.put loc (.file .empty) } loc bytes
      = { w with files := w.files.put loc (.file bytes) } := by
  rw [fill, content?_put_file _ hloc]
  dsimp only
  rw [put_put, overlay_empty]

/-- A file that is written has the whole content. -/
lemma write_ok {content : ByteArray} (h : w.write p content = .ok w') :
    ∃ loc, w.files.node? loc ≠ some .directory ∧
      w' = { w with files := w.files.put loc (.file content) } := by
  unfold write at h
  cases hopened : w.openFile p with
  | error f =>
    rw [hopened] at h
    cases h
  | ok whole =>
    obtain ⟨loc, opened⟩ := whole
    obtain ⟨hnode, rfl⟩ := openFile_ok hopened
    rw [hopened] at h
    cases h
    exact ⟨loc, hnode, fill_put_empty (ne_nil_of_node? hnode) content⟩

end Workspace

/-! ### Trees -/

/-- A text that has an encoding is encoded as it is anywhere. -/
lemma Text.Utf8.encode_ok {standIns : List Char} {text : String} {bytes : ByteArray}
    (h : encode standIns text = .ok bytes) : bytes = text.toUTF8 := by
  unfold encode at h
  split at h <;> cases h
  rfl

/-- A tree that has no text holds an element without one. -/
lemma Tree.exists_of_render_error {tree : Tree} {failure : Failure}
    (h : tree.render = .error failure) :
    ∃ name, failure = .compile name "cannot render element of type Element" := by
  unfold Tree.render at h
  cases hrendered : tree.mapM Element.render with
  | error failure =>
    rw [hrendered] at h
    cases h
    obtain ⟨element, -, hrender⟩ := exists_of_mapM_eq_error hrendered
    unfold Element.render at hrender
    split at hrender <;> cases hrender
    exact ⟨_, rfl⟩
  | ok texts =>
    rw [hrendered] at h
    cases h

lemma Tree.write_eq (w : Workspace) (tree : Tree) (p : Path) :
    tree.write w p = match tree.render with
      | .error failure => (.error failure, w)
      | .ok text => match w.makeDirectories p.parent with
        | (.error f, w) => (.error (refused p f), w)
        | (.ok (), w) => match w.openFile p with
          | .error f => (.error (refused p f), w)
          | .ok (loc, w) => match Text.Utf8.encode w.standIns text with
            | .error f => (.error (.unencodable f), w)
            | .ok bytes => (.ok (), w.fill loc bytes) := by
  unfold Tree.write Tree.writing
  cases tree.render with
  | error failure => rfl
  | ok text =>
    dsimp only
    rw [Steps.run_bind, ← Workspace.makeDirectories]
    rcases w.makeDirectories p.parent with ⟨_ | _, made⟩
    · rfl
    · dsimp only
      rw [Steps.run_bind, Workspace.opening, Steps.run_once]
      rcases made.openFile p with _ | ⟨loc, opened⟩
      · rfl
      · dsimp only
        rw [Steps.run_bind, Workspace.filling, Steps.run_once]
        cases Text.Utf8.encode opened.standIns text <;> rfl

/-! ### The log -/

namespace Log

variable {changing : List Location}

/-- The location of the file that a handler writes to. -/
def Handler.locations : Handler → List Location
  | .file sink => sink.location.toList
  | _ => []

/-- The locations of the files that the log writes to. -/
def locations (log : Log) : List Location := log.handlers.flatMap Handler.locations

/-- Only a file that is there is written to. -/
lemma Sink.write_rewrites (s : Sink) (files : FileTree) (bytes : ByteArray) :
    (s.write files bytes).1.location = s.location ∧
      files.Rewrites s.location.toList (s.write files bytes).2 := by
  unfold Sink.write
  split
  · exact ⟨rfl, .refl⟩
  · next loc hloc =>
    have hmem : loc ∈ s.location.toList := by simp [hloc]
    split
    · exact ⟨rfl, .refl⟩
    · next content hcontent =>
      split
      · exact ⟨rfl, .refl⟩
      · exact ⟨rfl, .write _ .refl hmem hcontent⟩
      · exact ⟨rfl, .write _ .refl hmem hcontent⟩

lemma Handler.handle_rewrites (h : Handler) (r : Record) (out : Outputs) :
    (h.handle r out).1.locations = h.locations ∧
      out.files.Rewrites h.locations (h.handle r out).2.files := by
  unfold Handler.handle
  split
  · exact ⟨rfl, .refl⟩
  · split
    · exact ⟨rfl, .refl⟩
    · split <;> exact ⟨rfl, .refl⟩
    · next sink _ =>
      split
      · next text _ =>
        obtain ⟨hlocation, hfiles⟩ := Sink.write_rewrites sink out.files (text ++ "\n").toUTF8
        exact ⟨congrArg Option.toList hlocation, hfiles⟩
      · exact ⟨rfl, .refl⟩

lemma handleAll_rewrites (r : Record) (hs : List Handler) (out : Outputs) :
    (handleAll r hs out).1.flatMap Handler.locations = hs.flatMap Handler.locations ∧
      out.files.Rewrites (hs.flatMap Handler.locations) (handleAll r hs out).2.files := by
  induction hs generalizing out with
  | nil => exact ⟨rfl, .refl⟩
  | cons h hs ih =>
    obtain ⟨hfirst, hfiles⟩ := h.handle_rewrites r out
    obtain ⟨hrest, hfiles'⟩ := ih (h.handle r out).2
    simp only [handleAll, List.flatMap_cons]
    constructor
    · rw [hfirst, hrest]
    · exact (hfiles.mono (List.subset_append_left _ _)).trans
        (hfiles'.mono (List.subset_append_right _ _))

lemma publish_rewrites (log : Log) (r : Record) (out : Outputs) :
    (log.publish r out).1.locations = log.locations ∧
      out.files.Rewrites log.locations (log.publish r out).2.files := by
  unfold publish
  split
  · exact ⟨rfl, .refl⟩
  · exact handleAll_rewrites r log.handlers out

end Log

namespace Journal

/-- Notes are written to the files of the log and nothing else, and the log keeps its files. -/
lemma noteAll_rewrites (j : Journal) (ns : List Note) (w : Workspace) :
    (j.noteAll ns w).1.log.locations = j.log.locations ∧
      (j.noteAll ns w).2 = { w with files := (j.noteAll ns w).2.files } ∧
      w.files.Rewrites j.log.locations (j.noteAll ns w).2.files := by
  induction ns generalizing j w with
  | nil => exact ⟨rfl, rfl, .refl⟩
  | cons n ns ih =>
    obtain ⟨hlog, hfiles⟩ := j.log.publish_rewrites (.ofNote j.time n) ⟨w.files, j.errors⟩
    obtain ⟨hlog', hother, hrest⟩ := ih (j.note n w).1 (j.note n w).2
    have hsame : (j.note n w).1.log.locations = j.log.locations := hlog
    rw [hsame] at hlog' hrest
    exact ⟨hlog', hother, FileTree.Rewrites.trans hfiles hrest⟩

/-- Notes change nothing in the workspace if the log has no files. -/
lemma noteAll_of_no_files {j : Journal} (h : j.log.locations = []) (ns : List Note)
    (w : Workspace) : (j.noteAll ns w).2 = w := by
  induction ns generalizing j with
  | nil => rfl
  | cons n ns ih =>
    obtain ⟨hlog, hfiles⟩ := j.log.publish_rewrites (.ofNote j.time n) ⟨w.files, j.errors⟩
    rw [h] at hfiles
    have hsame : (j.note n w).2 = w := congrArg (fun files => { w with files }) hfiles.eq_of_nil
    rw [noteAll]
    dsimp only
    rw [hsame]
    exact ih (hlog.trans h)

lemma noteAll_keeps (j : Journal) (ns : List Note) (w : Workspace) :
    (j.noteAll ns w).1.log.locations = j.log.locations ∧
      w.Keeps j.log.locations (j.noteAll ns w).2 := by
  obtain ⟨hlog, hother, hfiles⟩ := j.noteAll_rewrites ns w
  exact ⟨hlog, by rw [hother], hfiles.keeps⟩

end Journal

end Bundler
