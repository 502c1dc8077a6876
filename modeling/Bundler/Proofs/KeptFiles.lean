import Bundler.Load.Source
import Bundler.Proofs.Changes
import Bundler.Proofs.EntryLoading
import Bundler.Proofs.Merging
import Bundler.Proofs.Places

/-!
# What work keeps

Work that loads and writes keeps all directories and all files but the one that it writes. So the way
back to the directory that it began in is open, whatever was done in between.
-/

namespace Bundler

/-! ### The way back -/

namespace Workspace

variable {changing : List Location} {w w' : Workspace} {loc : Location}

/-- The directory at a location is the current one, and its path leads to it. -/
structure IsCurrent (w : Workspace) (loc : Location) : Prop where
  cwd : w.cwd = some loc
  plain : holdsNull (pathOf loc) = false
  leads : w.look (pathOf loc) = .ok (some loc, .directory)

/-- The way to a current directory is a walk along its location. -/
lemma IsCurrent.walk_ok (h : w.IsCurrent loc) : isTooLong (pathOf loc) = false ∧
    w.files.walk [] loc = .ok loc ∧ w.files.node? loc = some .directory := by
  have hleads := h.leads
  have hroot : w.origin? (pathOf loc) = some [] := rfl
  unfold look at hleads
  rw [hroot] at hleads
  split at hleads
  · cases hleads
  · next hshort =>
    dsimp only [FileTree.look, pathOf] at hleads
    cases hwalk : w.files.walk [] loc with
    | error code =>
      rw [hwalk] at hleads
      cases hleads
    | ok reached =>
      rw [hwalk] at hleads
      cases hnode : w.files.node? reached with
      | none => simp [hnode, bind, Except.bind, Except.map] at hleads
      | some node =>
        simp only [hnode, bind, Except.bind, Except.map, Except.ok.injEq, Prod.mk.injEq,
          Option.some.injEq] at hleads
        obtain ⟨rfl, rfl⟩ := hleads
        exact ⟨by simpa using hshort, rfl, hnode⟩

/-- The directory stays where it is as long as directories stay. -/
lemma IsCurrent.look_of_keeps (h : w.IsCurrent loc) (hkeeps : w.files.Keeps changing w'.files) :
    w'.look (pathOf loc) = .ok (some loc, .directory) := by
  obtain ⟨hshort, hwalk, hnode⟩ := h.walk_ok
  have hroot : w'.origin? (pathOf loc) = some [] := rfl
  have hfound : w'.files.look [] (pathOf loc).segments = .ok (loc, .directory) := by
    rw [FileTree.look, pathOf, hkeeps.walk_ok hwalk]
    simp [bind, Except.bind, hkeeps.directory loc hnode]
  rw [look, hshort, hroot]
  dsimp only
  rw [hfound]
  rfl

lemma IsCurrent.of_keeps (h : w.IsCurrent loc) (hcwd : w'.cwd = w.cwd)
    (hkeeps : w.files.Keeps changing w'.files) : w'.IsCurrent loc :=
  ⟨hcwd.trans h.cwd, h.plain, h.look_of_keeps hkeeps⟩

lemma IsCurrent.enter (h : w.IsCurrent loc) (hkeeps : w.files.Keeps changing w'.files) :
    w'.enter (pathOf loc) = .ok { w' with cwd := some loc } := by
  unfold Workspace.enter
  rw [h.plain, h.look_of_keeps hkeeps]
  rfl

end Workspace

/-! ### Writing a tree -/

namespace Tree

variable {w : Workspace} {tree : Tree} {path : Path}

/-- What comes of writing a tree: the file was not opened and all files are as they were, or it was
opened and left empty because the text has no encoding, or it holds the text. -/
lemma write_cases (tree : Tree) (w : Workspace) (hpath : path.isAbsolute = true) :
    (∃ failure, (tree.write w path).1 = .error failure ∧
      (∀ fault, failure ≠ .unencodable fault) ∧ w.Keeps [] (tree.write w path).2) ∨
    (∃ fault, (tree.write w path).1 = .error (.unencodable fault) ∧
      w.Keeps [path.normalize.segments] (tree.write w path).2) ∨
    ∃ text, (tree.write w path).1 = .ok () ∧ tree.render = .ok text ∧
      (tree.write w path).2.files.content? path.normalize.segments = some text.toUTF8 ∧
      w.Keeps [path.normalize.segments] (tree.write w path).2 := by
  have hrefused : ∀ f fault, refused path f ≠ .unencodable fault := by
    intro f
    cases f <;> nofun
  rw [write_eq]
  cases hrender : tree.render with
  | error failure =>
    obtain ⟨name, rfl⟩ := exists_of_render_error hrender
    exact Or.inl ⟨_, rfl, nofun, .refl _ _⟩
  | ok text =>
    have hmade : ∀ changing, w.Keeps changing (w.makeDirectories path.parent).2 :=
      fun _ => w.makeDirectories_keeps _
    dsimp only
    generalize w.makeDirectories path.parent = made at hmade
    obtain ⟨f | _, made⟩ := made
    · exact Or.inl ⟨_, rfl, hrefused f, hmade []⟩
    · dsimp only
      cases hopen : made.openFile path with
      | error f => exact Or.inl ⟨_, rfl, hrefused f, hmade []⟩
      | ok whole =>
        obtain ⟨loc, opened⟩ := whole
        obtain rfl := Workspace.openFile_location hpath hopen
        obtain ⟨hnode, rfl⟩ := Workspace.openFile_ok hopen
        have hloc := FileTree.ne_nil_of_node? hnode
        have hput : ∀ content, w.Keeps [path.normalize.segments]
            { made with files := made.files.put path.normalize.segments (.file content) } :=
          fun content => (hmade _).trans ⟨rfl, .put_file content (List.mem_singleton_self _) hnode⟩
        dsimp only
        cases hencode : Text.Utf8.encode made.standIns text with
        | error fault => exact Or.inr (Or.inl ⟨fault, rfl, hput _⟩)
        | ok bytes =>
          obtain rfl := Text.Utf8.encode_ok hencode
          dsimp only
          rw [Workspace.fill_put_empty hloc]
          exact Or.inr (Or.inr ⟨text, rfl, rfl, FileTree.content?_put_file _ hloc, hput _⟩)

end Tree

namespace Compile

open Load WorkM

variable {σ α β : Type} {loader : Loader σ} {request : Request}

/-! ### What work changes -/

/-- The log has the same files, all directories stay, and only files of the log and files at the
locations `changing` differ. -/
structure Work.Keeps (changing : List Location) (work work' : Work σ) : Prop where
  log : work'.journal.log.locations = work.journal.log.locations
  files : work.workspace.files.Keeps (changing ++ work.journal.log.locations) work'.workspace.files

namespace Work.Keeps

variable {changing more : List Location} {work work' work'' : Work σ}

lemma refl (changing : List Location) (work : Work σ) : Keeps changing work work :=
  ⟨rfl, .refl _ _⟩

lemma trans (h : Keeps changing work work') (h' : Keeps changing work' work'') :
    Keeps changing work work'' := by
  refine ⟨h'.log.trans h.log, h.files.trans ?_⟩
  rw [← h.log]
  exact h'.files

lemma mono (hsub : changing ⊆ more) (h : Keeps changing work work') : Keeps more work work' :=
  ⟨h.log, h.files.mono (List.append_subset.mpr
    ⟨List.Subset.trans hsub (List.subset_append_left _ _), List.subset_append_right _ _⟩)⟩

/-- A file that is written on the way is the only one that differs in the end. -/
lemma content_of_written {place loc : Location} {content : ByteArray} {work₀ : Work σ}
    (hto : Keeps [] work₀ work) (hthere : Keeps [place] work work') (hback : Keeps [] work' work'')
    (hcontent : place ∉ work.journal.log.locations →
      work'.workspace.files.content? place = some content)
    (hloc : loc ∉ work₀.journal.log.locations) :
    work''.workspace.files.content? loc
      = if loc = place then some content else work₀.workspace.files.content? loc := by
  split
  · next heq =>
    subst heq
    have hlogged : loc ∉ work.journal.log.locations := by rwa [hto.log]
    have hlogged' : loc ∉ [] ++ work'.journal.log.locations := by
      rwa [List.nil_append, hthere.log, hto.log]
    exact (hback.files.content _ hlogged').trans (hcontent hlogged)
  · next hne =>
    have hall : Keeps [place] work₀ work'' := (hto.mono (List.nil_subset _)).trans
      (hthere.trans (hback.mono (List.nil_subset _)))
    apply hall.files.content
    rw [List.mem_append, List.mem_singleton, not_or]
    exact ⟨hne, hloc⟩

end Work.Keeps

variable {work : Work σ}

lemma Work.noted_append (ns ms : List Note) (work : Work σ) :
    work.noted (ns ++ ms) = (work.noted ns).noted ms := by
  induction ns generalizing work with
  | nil => rfl
  | cons n ns ih => exact ih (work.noted [n])

@[simp] lemma carryOut_notes (ns : List Note) (work : Work σ) :
    carryOut (notes ns) work = (.ok (), work.noted ns) := rfl

lemma notes_keeps (ns : List Note) (work : Work σ) :
    (work.noted ns).workspace.cwd = work.workspace.cwd ∧ Work.Keeps [] work (work.noted ns) := by
  obtain ⟨hlog, hkeeps⟩ := work.journal.noteAll_keeps ns work.workspace
  exact ⟨hkeeps.cwd, hlog, hkeeps.files⟩

/-! ### There and back -/

variable {loc : Location} {target : Path}

lemma carryOut_departure (target : Path) (h : work.workspace.cwd = some loc) :
    carryOut (departure target) work = (.ok (Workspace.pathOf loc), work) := by
  simp [departure, carryOut_bind, Workspace.cwdPath, h]

lemma makeDirectories_keeps (directory : Path) (work : Work σ) :
    (carryOut (makeDirectories directory) work).2.workspace.cwd = work.workspace.cwd ∧
      Work.Keeps [] work (carryOut (makeDirectories directory) work).2 := by
  have hmade : ∀ changing,
      work.workspace.Keeps changing (work.workspace.makeDirectories directory).2 :=
    fun _ => work.workspace.makeDirectories_keeps directory
  rw [makeDirectories, carryOut_onWorkspace]
  exact ⟨(hmade []).cwd, rfl, (hmade _).files⟩

/-- Entering a directory changes no file, and nothing at all if it fails. -/
lemma enter_keeps (directory : Path) (work : Work σ) :
    Work.Keeps [] work (carryOut (Compile.enter directory) work).2 ∧
      ∀ failure, (carryOut (Compile.enter directory) work).1 = .error failure →
        (carryOut (Compile.enter directory) work).2 = work := by
  rw [Compile.enter, carryOut_onWorkspace]
  cases henter : work.workspace.enter directory with
  | error fault => exact ⟨.refl _ _, fun _ _ => rfl⟩
  | ok entered =>
    have hfiles : entered.files = work.workspace.files := by
      unfold Workspace.enter at henter
      split at henter
      · cases henter
      · split at henter <;> cases henter
        rfl
    refine ⟨⟨rfl, ?_⟩, nofun⟩
    dsimp only
    rw [hfiles]
    exact .refl _ _

/-- Whoever cannot arrive is still where the way began. -/
lemma arrive_keeps (target : Path) (h : work.workspace.cwd = some loc) :
    Work.Keeps [] work (carryOut (arrive target) work).2 ∧
      ((carryOut (arrive target) work).1 = .ok (Workspace.pathOf loc) ∨
        (∃ failure, (carryOut (arrive target) work).1 = .error failure) ∧
          (carryOut (arrive target) work).2.workspace.cwd = some loc) := by
  obtain ⟨hcwd, hmade⟩ := makeDirectories_keeps target work
  unfold arrive
  rw [carryOut_bind, carryOut_departure target h]
  dsimp only
  rw [carryOut_bind]
  cases hresult : carryOut (makeDirectories target) work with
  | mk result made =>
    rw [hresult] at hcwd hmade
    cases result with
    | error failure => exact ⟨hmade, Or.inr ⟨⟨failure, rfl⟩, hcwd.trans h⟩⟩
    | ok _ =>
      obtain ⟨hentered, hsame⟩ := enter_keeps target made
      dsimp only
      rw [carryOut_bind]
      cases hresult' : carryOut (Compile.enter target) made with
      | mk result' entered =>
        rw [hresult'] at hentered hsame
        cases result' with
        | error failure =>
          obtain rfl : entered = made := hsame failure rfl
          exact ⟨hmade, Or.inr ⟨⟨failure, rfl⟩, hcwd.trans h⟩⟩
        | ok _ =>
          obtain ⟨-, hnoted⟩ := notes_keeps
            [.debug directorySource ("Working directory switched to " ++ target.text)] entered
          dsimp only [note]
          rw [carryOut_bind, carryOut_notes]
          exact ⟨hmade.trans (hentered.trans hnoted), Or.inl rfl⟩

/-- The way back is open as long as directories stay. -/
lemma comeBack_keeps {changing : List Location} {work' : Work σ}
    (h : work.workspace.IsCurrent loc) (hkeeps : Work.Keeps changing work work') :
    (carryOut (comeBack (Workspace.pathOf loc)) work').1 = .ok () ∧
      (carryOut (comeBack (Workspace.pathOf loc)) work').2.workspace.cwd = some loc ∧
      Work.Keeps [] work' (carryOut (comeBack (Workspace.pathOf loc)) work').2 := by
  obtain ⟨hcwd, hnoted⟩ := notes_keeps
    [.debug directorySource ("Working directory restored to " ++ (Workspace.pathOf loc).text)]
    { work' with workspace := { work'.workspace with cwd := some loc } }
  have hentered : carryOut (Compile.enter (Workspace.pathOf loc)) work'
      = (.ok (), { work' with workspace := { work'.workspace with cwd := some loc } }) := by
    rw [Compile.enter, carryOut_onWorkspace, h.enter hkeeps.files]
  unfold comeBack
  rw [carryOut_bind, hentered]
  exact ⟨rfl, hcwd, hnoted.log, hnoted.files⟩

/-- Work in a directory fails before it begins, or it has the outcome of what is done there. In any
case it ends in the directory it began in. -/
lemma within_keeps (target : Path) (body : WorkM σ α) (h : work.workspace.IsCurrent loc) :
    (Work.Keeps [] work (carryOut (within target body) work).2 ∧
      (carryOut (within target body) work).2.workspace.cwd = some loc ∧
      ∃ failure, (carryOut (within target body) work).1 = .error failure) ∨
    ∃ arrived, Work.Keeps [] work arrived ∧ ∀ changing,
      Work.Keeps changing arrived (carryOut body arrived).2 →
        (carryOut (within target body) work).1 = (carryOut body arrived).1 ∧
          (carryOut (within target body) work).2.workspace.cwd = some loc ∧
          Work.Keeps [] (carryOut body arrived).2 (carryOut (within target body) work).2 := by
  obtain ⟨harrived, hway⟩ := arrive_keeps target h.cwd
  rw [within_eq, carryOut_bind]
  cases hresult : carryOut (arrive target) work with
  | mk result arrived =>
    rw [hresult] at harrived hway
    rcases hway with hok | ⟨⟨failure, hfailure⟩, hcwd⟩
    · refine Or.inr ⟨arrived, harrived, ?_⟩
      intro changing hbody
      obtain rfl : result = .ok (Workspace.pathOf loc) := hok
      obtain ⟨hback, hcwd, hkeeps⟩ := comeBack_keeps h
        ((harrived.mono (List.nil_subset changing)).trans hbody)
      dsimp only
      rw [carryOut_thenAlways]
      cases hcomeBack : carryOut (comeBack (Workspace.pathOf loc)) (carryOut body arrived).2 with
      | mk result' work' =>
        rw [hcomeBack] at hback hcwd hkeeps
        obtain rfl : result' = .ok () := hback
        exact ⟨rfl, hcwd, hkeeps⟩
    · obtain rfl : result = .error failure := hfailure
      exact Or.inl ⟨harrived, hcwd, failure, rfl⟩

/-! ### One session -/

/-- The work after a session whose run has ended. -/
def Work.ended (work : Work (Record σ)) (run : Run σ) : Work (Record σ) :=
  Work.noted run.notes { work with
    memory := { work.memory with
      memory := run.memory, sessions := work.memory.sessions ++ [run.session] } }

/-- The compilation of some entries, from some work on. -/
def Work.compile (work : Work (Record σ)) (loader : Loader σ) (entries : List Entry)
    (options : Options) (base : Path) : Except Failure (Option Tree) × Run σ :=
  compileEntries loader (work.journal.view work.workspace) entries options base work.memory.memory

lemma carryOut_session (loader : Loader σ) (entries : List Entry) (options : Options) (base : Path)
    (work : Work (Record σ)) : carryOut (session loader entries options base) work
      = ((work.compile loader entries options base).1,
        work.ended (work.compile loader entries options base).2) := by
  simp only [session, carryOut_bind, carryOut_get, carryOut_set, carryOut_notes, carryOut_ofExcept]
  rfl

lemma carryOut_writeTree (tree : Tree) (path : Path) (text : String) (work : Work (Record σ)) :
    carryOut (writeTree tree path text) work
      = match tree.write work.workspace path with
        | (.ok _, workspace) => (.ok (), Work.noted
            [.info writerSource ("Wrote " ++ text ++ " to " ++ path.text)] { work with workspace })
        | (.error failure, workspace) => (.error failure, { work with workspace }) := by
  simp only [writeTree, carryOut_bind, carryOut_onWorkspace, note, carryOut_notes]
  rcases tree.write work.workspace path with ⟨_ | _, workspace⟩ <;> rfl

variable {record : Work (Record σ)} {tree : Tree} {path : Path}

/-- Loading takes notes and changes nothing else. -/
lemma session_keeps (loader : Loader σ) (entries : List Entry) (options : Options) (base : Path)
    (record : Work (Record σ)) :
    Work.Keeps [] record (carryOut (session loader entries options base) record).2 := by
  rw [carryOut_session]
  obtain ⟨-, hnoted⟩ := notes_keeps (record.compile loader entries options base).2.notes record
  exact ⟨hnoted.log, hnoted.files⟩

/-- What comes of writing a tree with a note on it. -/
lemma writeTree_cases (tree : Tree) (what : String) (record : Work (Record σ))
    (hpath : path.isAbsolute = true) :
    (∃ failure, (carryOut (writeTree tree path what) record).1 = .error failure ∧
      (∀ fault, failure ≠ .unencodable fault) ∧
      Work.Keeps [] record (carryOut (writeTree tree path what) record).2) ∨
    (∃ fault, (carryOut (writeTree tree path what) record).1 = .error (.unencodable fault) ∧
      Work.Keeps [path.normalize.segments] record
        (carryOut (writeTree tree path what) record).2) ∨
    ∃ text, (carryOut (writeTree tree path what) record).1 = .ok () ∧ tree.render = .ok text ∧
      (path.normalize.segments ∉ record.journal.log.locations →
        (carryOut (writeTree tree path what) record).2.workspace.files.content?
          path.normalize.segments = some text.toUTF8) ∧
      Work.Keeps [path.normalize.segments] record
        (carryOut (writeTree tree path what) record).2 := by
  have hcases := tree.write_cases record.workspace hpath
  rw [carryOut_writeTree]
  generalize tree.write record.workspace path = written at hcases
  obtain ⟨result, workspace⟩ := written
  rcases hcases with ⟨failure, rfl, hfailure, hkeeps⟩ | ⟨fault, rfl, hkeeps⟩ |
    ⟨text, rfl, hrender, hcontent, hkeeps⟩
  · exact Or.inl ⟨failure, rfl, hfailure, rfl, hkeeps.files.mono (List.nil_subset _)⟩
  · exact Or.inr (Or.inl ⟨fault, rfl, rfl, hkeeps.files.mono (List.subset_append_left _ _)⟩)
  · obtain ⟨-, hnoted⟩ := notes_keeps [.info writerSource ("Wrote " ++ what ++ " to " ++ path.text)]
      { record with workspace }
    refine Or.inr (Or.inr ⟨text, rfl, hrender, ?_, hnoted.log, ?_⟩)
    · intro hlog
      exact (hnoted.files.content _ hlog).trans hcontent
    · exact (hkeeps.files.mono (List.subset_append_left _ _)).trans
        (hnoted.files.mono (List.subset_append_right _ _))

/-- Load entries into a new session and write their tree, if they give one, to a file. -/
def loadAndWrite (loader : Loader σ) (entries : List Entry) (options : Options) (base output : Path)
    (what : Tree → String) : WorkM (Record σ) (Option Tree) := do
  let tree ← session loader entries options base
  if let some tree := tree then
    writeTree tree output (what tree)
  pure tree

/-- All files are as they were, or a tree has been loaded and written, or has no encoding. -/
lemma loadAndWrite_keeps (loader : Loader σ) (entries : List Entry) (options : Options)
    (base : Path) {output : Path} (what : Tree → String) (houtput : output.isAbsolute = true)
    (record : Work (Record σ)) :
    (Work.Keeps [] record
        (carryOut (loadAndWrite loader entries options base output what) record).2 ∧
      ∀ tree, (carryOut (loadAndWrite loader entries options base output what) record).1
        ≠ .ok (some tree)) ∨
    (∃ fault, (carryOut (loadAndWrite loader entries options base output what) record).1
        = .error (.unencodable fault) ∧
      Work.Keeps [output.normalize.segments] record
        (carryOut (loadAndWrite loader entries options base output what) record).2) ∨
    ∃ tree text,
      (carryOut (loadAndWrite loader entries options base output what) record).1 = .ok (some tree) ∧
      tree.render = .ok text ∧
      (output.normalize.segments ∉ record.journal.log.locations →
        (carryOut (loadAndWrite loader entries options base output what)
          record).2.workspace.files.content? output.normalize.segments = some text.toUTF8) ∧
      Work.Keeps [output.normalize.segments] record
        (carryOut (loadAndWrite loader entries options base output what) record).2 := by
  have hsession := session_keeps loader entries options base record
  have hsession' := hsession.mono (List.nil_subset [output.normalize.segments])
  unfold loadAndWrite
  rw [carryOut_bind]
  generalize carryOut (session loader entries options base) record = loaded at hsession hsession'
  obtain ⟨failure | _ | tree, loaded⟩ := loaded
  · exact Or.inl ⟨hsession, nofun⟩
  · exact Or.inl ⟨hsession, nofun⟩
  · have hcases := writeTree_cases tree (what tree) loaded houtput
    dsimp only
    rw [carryOut_bind]
    generalize carryOut (writeTree tree output (what tree)) loaded = written at hcases
    obtain ⟨result, written⟩ := written
    rcases hcases with ⟨failure, rfl, -, hkeeps⟩ | ⟨fault, rfl, hkeeps⟩ |
      ⟨text, rfl, hrender, hcontent, hkeeps⟩
    · exact Or.inl ⟨hsession.trans hkeeps, nofun⟩
    · exact Or.inr (Or.inl ⟨fault, rfl, hsession'.trans hkeeps⟩)
    · rw [hsession.log] at hcontent
      exact Or.inr (Or.inr ⟨tree, text, rfl, hrender, hcontent, hsession'.trans hkeeps⟩)

lemma loadAndWrite_cwd (loader : Loader σ) (entries : List Entry) (options : Options) (base : Path)
    {output : Path} (what : Tree → String) (houtput : output.isAbsolute = true) (work : Work (Record σ)) :
    (carryOut (loadAndWrite loader entries options base output what) work).2.workspace.cwd
      = work.workspace.cwd := by
  have hended : ∀ run : Run σ, (work.ended run).workspace.cwd = work.workspace.cwd :=
    fun run => (notes_keeps run.notes _).1
  rw [loadAndWrite, carryOut_bind, carryOut_session]
  rcases work.compile loader entries options base with ⟨_ | _ | tree, run⟩
  · exact hended run
  · exact hended run
  · have hwritten : (tree.write (work.ended run).workspace output).2.cwd
        = (work.ended run).workspace.cwd := by
      rcases tree.write_cases (work.ended run).workspace houtput with
        ⟨-, -, -, hkeeps⟩ | ⟨-, -, hkeeps⟩ | ⟨-, -, -, -, hkeeps⟩ <;> exact hkeeps.cwd
    dsimp only
    rw [carryOut_bind, carryOut_writeTree]
    generalize tree.write (work.ended run).workspace output = written at hwritten
    obtain ⟨_ | _, workspace⟩ := written
    · exact hwritten.trans (hended run)
    · exact (notes_keeps _ _).1.trans (hwritten.trans (hended run))

/-! ### Merged requests -/

/-- What a merged request does in the directory of its output. -/
def mergeThere (loader : Loader σ) (entries : List Entry) (options : Options) (output : Path) :
    WorkM (Record σ) (Option Tree) := do
  let tree ← session loader entries options output.parent
  if let some tree := tree then
    writeTree tree output (toString tree.length ++ " element(s)")
  pure tree

lemma mergeThere_eq (loader : Loader σ) (entries : List Entry) (options : Options) (output : Path) :
    mergeThere loader entries options output = loadAndWrite loader entries options output.parent
      output fun tree => toString tree.length ++ " element(s)" := rfl

/-- A merged request resolves its entries and then works in the directory of its output. -/
lemma carryOut_merge (loader : Loader σ) (request : Request) (record : Work (Record σ)) :
    carryOut (merge loader request) record
      = match request.entriesIn record.workspace with
        | .error fault => (.error (.file fault), record)
        | .ok entries => carryOut (within (request.directory record.workspace)
            (mergeThere loader entries request.mergeOptions (request.target record.workspace)))
            (carryOut (begin request.mergeOptions) record).2 := by
  unfold merge
  rw [carryOut_bind, carryOut_get]
  dsimp only
  rw [carryOut_bind, carryOut_ofExcept]
  cases hentries : request.entriesIn record.workspace with
  | error fault =>
    unfold Request.entriesIn Request.directory Request.target at hentries
    rw [hentries]
    rfl
  | ok entries =>
    have hlength : entries.length = request.entries.length := length_of_mapM_eq_ok hentries
    unfold Request.entriesIn Request.directory Request.target at hentries
    rw [hentries]
    dsimp only [Except.mapError]
    rw [hlength, carryOut_bind]
    rfl

/-- Entries give no tree exactly if only dependencies are asked for. -/
lemma eq_none_iff_of_compileEntries {view : View} {entries : List Entry} {options : Options}
    {base : Path} {memory : σ} {tree : Option Tree}
    (h : (compileEntries loader view entries options base memory).1 = .ok tree) :
    tree = none ↔ options.dependencyTarget.truthy = true := by
  unfold compileEntries at h
  split at h
  · cases h
  · split at h
    · cases h
    · next result session hfinish =>
      cases h
      unfold Session.finish at hfinish
      split at hfinish
      · cases hfinish
      · split at hfinish <;> cases hfinish <;> simp [*]

end Compile

end Bundler
