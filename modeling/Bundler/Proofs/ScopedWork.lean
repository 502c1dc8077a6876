import Bundler.Compile.Within
import Bundler.Proofs.KeptFiles
import Bundler.Proofs.Namings
import Bundler.Proofs.Walks

/-!
# Work in a directory and the way back

Whatever is done in a directory, its outcome is the outcome of the whole, which ends where it began.
What is done may read the current directory, write files, go elsewhere and fail; none of this takes
a directory away, so the way back stays open. If the directory cannot be made, or if there is none
to come back to, nothing is done in it.
-/

namespace Bundler

/-! ### Directories that were made -/

namespace Workspace

open FileTree

variable {w w' : Workspace} {p : Path} {loc : Location} {anchor : Anchor} {segments : List String}

lemma slot_leads {whenTaken : Errno} (h : w.slot p whenTaken = .ok loc) :
    isTooLong p = false ∧
      ∃ origin, w.origin? p = some origin ∧ w.files.walk origin p.segments = .ok loc := by
  unfold slot at h
  split at h
  · cases h
  · next hshort =>
    split at h
    · cases h
    · next last hlast =>
      split at h
      · cases h
      · next origin horigin =>
        refine ⟨by simpa using hshort, origin, horigin, ?_⟩
        cases hwalk : w.files.walk origin p.segments.dropLast with
        | error code =>
          rw [hwalk] at h
          cases h
        | ok dir =>
          cases hstep : w.files.step dir last with
          | error code => simp [hwalk, hstep, bind, Except.bind] at h
          | ok reached =>
            have hreached : reached = loc := by
              simp only [hwalk, hstep, bind, Except.bind] at h
              split at h
              · cases h
              · exact Except.ok.inj h
            rw [← List.dropLast_append_getLast? last hlast, FileTree.walk_append, hwalk]
            simp [Except.bind, walk, hstep, hreached]

lemma makeDirectory_isDirectory (h : w.makeDirectory p = .ok w') : w'.isDirectory p = true := by
  unfold makeDirectory at h
  cases hslot : w.slot p .exists with
  | error code =>
    rw [hslot] at h
    cases h
  | ok loc =>
    cases hnode : w.files.node? loc with
    | some node => simp [hslot, hnode, bind, Except.bind] at h
    | none =>
      simp only [hslot, hnode, bind, Except.bind, Except.ok.injEq] at h
      subst h
      obtain ⟨hshort, origin, horigin, hwalk⟩ := slot_leads hslot
      have hmade : FileTree.Keeps [] w.files (w.files.put loc .directory) := .put_directory hnode
      have hthere : (w.files.put loc .directory).node? loc = some .directory := by
        rw [node?_put w.files loc .directory loc (ne_nil_of_node? (t := w.files) (by simp [hnode])),
          if_pos rfl]
      have horigin' : origin? { w with files := w.files.put loc .directory } p = some origin :=
        horigin
      rw [isDirectory, Workspace.look, hshort, horigin']
      simp [FileTree.look, hmade.walk_ok hwalk, hthere, bind, Except.bind, Except.map]

/-- What was ensured to be a directory is one. -/
lemma ensureDirectory_isDirectory (h : w.ensureDirectory p = .ok w') : w'.isDirectory p = true := by
  unfold ensureDirectory at h
  split at h
  · next hmade =>
    cases h
    exact makeDirectory_isDirectory hmade
  · split at h
    · next hthere =>
      cases h
      exact hthere.2
    · cases h

lemma makeDirectoriesAt_isDirectory (h : w.makeDirectoriesAt anchor segments = (.ok (), w')) :
    w'.isDirectory ⟨anchor, segments.reverse⟩ = true := by
  cases segments with
  | nil =>
    rw [makeDirectoriesAt_nil] at h
    split at h
    · next hensured =>
      cases h
      exact ensureDirectory_isDirectory hensured
    · cases h
  | cons last above =>
    rw [makeDirectoriesAt_cons] at h
    split at h
    · next hensured =>
      cases h
      exact ensureDirectory_isDirectory hensured
    · split at h
      · cases h
      · split at h
        · next hensured =>
          cases h
          exact ensureDirectory_isDirectory hensured
        · cases h
    · cases h

lemma exists_look_of_isDirectory {origin : Location} (h : w.isDirectory p = true)
    (horigin : w.origin? p = some origin) :
    ∃ there, w.look p = .ok (some there, .directory) := by
  unfold isDirectory at h
  split at h
  · next there hlook =>
    unfold look at hlook ⊢
    rw [horigin] at hlook ⊢
    split at hlook
    · cases hlook
    · next hshort =>
      rw [if_neg hshort]
      dsimp only at hlook ⊢
      cases hfound : w.files.look origin p.segments with
      | error code =>
        rw [hfound] at hlook
        cases hlook
      | ok found =>
        rw [hfound] at hlook
        obtain ⟨rfl, hnode⟩ := Prod.mk.inj (Except.ok.inj hlook)
        exact ⟨found.1, congrArg (fun node => Except.ok (some found.1, node)) hnode⟩
  · cases h

/-- A directory that was made can be entered. -/
lemma makeDirectories_enter (h : w.makeDirectories p = (.ok (), w')) (hcwd : w.cwd = some loc) :
    ∃ there, w'.look p = .ok (some there, .directory) ∧
      w'.enter p = .ok { w' with cwd := some there } := by
  have hkeeps : w.Keeps [] (w.makeDirectories p).2 := w.makeDirectories_keeps p
  rw [makeDirectories_eq] at h hkeeps
  split at h
  · cases h
  · next hplain =>
    rw [if_neg hplain, h] at hkeeps
    have hdirectory := makeDirectoriesAt_isDirectory h
    rw [List.reverse_reverse] at hdirectory
    obtain ⟨origin, horigin⟩ : ∃ origin, w'.origin? p = some origin := by
      unfold origin?
      split
      · exact ⟨_, rfl⟩
      · exact ⟨loc, hkeeps.cwd.trans hcwd⟩
    obtain ⟨there, hthere⟩ := exists_look_of_isDirectory hdirectory horigin
    refine ⟨there, hthere, ?_⟩
    rw [enter, if_neg hplain, hthere]

/-- Making directories only fails without an error of the file tree for a path that no file tree
takes. -/
lemma makeDirectories_nullByte_iff :
    (w.makeDirectories p).1 = .error .nullByte ↔ holdsNull p = true := by
  have hat : ∀ (w : Workspace) (segments : List String),
      (w.makeDirectoriesAt p.anchor segments).1 ≠ .error .nullByte := by
    intro w segments
    induction segments generalizing w with
    | nil =>
      rw [makeDirectoriesAt_nil]
      split <;> nofun
    | cons last above ih =>
      rw [makeDirectoriesAt_cons]
      split
      · nofun
      · have habove := ih w
        split
        · next heq =>
          rw [heq] at habove
          exact habove
        · split <;> nofun
      · nofun
  rw [makeDirectories_eq]
  split
  · next hnull => exact ⟨fun _ => hnull, fun _ => rfl⟩
  · next hplain => exact ⟨fun h => absurd h (hat w _), fun h => absurd h hplain⟩

/-- A file that is written is the only one that changes. -/
lemma write_keeps {content : ByteArray} (h : w.write p content = .ok w') :
    ∃ loc, w.Keeps [loc] w' := by
  obtain ⟨loc, hnode, rfl⟩ := write_ok h
  exact ⟨loc, rfl, .put_file content List.mem_cons_self hnode⟩

end Workspace

/-! ### What is done there -/

namespace Compile

open WorkM

variable {σ α : Type}

/-- What can be done at one time. -/
inductive Action where
  /-- Read the current directory. -/
  | readCwd
  /-- Write a file. -/
  | write (path : Path) (content : ByteArray)
  /-- Go to another directory. -/
  | goTo (path : Path)

/-- Take an action, whose answer is the current directory if that was read. -/
def Action.perform : Action → WorkM σ (Option Path)
  | .readCwd => do
    match (← get).workspace.cwdPath with
    | .ok directory => pure (some directory)
    | .error error => throw (.file error)
  | .write path content =>
    onWorkspace fun w => match w.write path content with
      | .ok w => (.ok none, w)
      | .error fault => (.error (.ofPathFault fault), w)
  | .goTo path => do
    enter path
    pure none

/-- Actions one after another, each chosen in view of what came of those before it, up to an
outcome. Going on after a failed action means to have dealt with its failure. -/
inductive Actions (α : Type) where
  | give (a : α)
  | fail (failure : Failure)
  | act (action : Action) (next : Except Failure (Option Path) → Actions α)

/-- Take actions one after another. -/
def Actions.perform : Actions α → WorkM σ α
  | .give a => pure a
  | .fail failure => throw failure
  | .act action next => do
    let result ← liftM (m := StateM (Work σ)) (action.perform (σ := σ)).run
    (next result).perform

lemma carryOut_act (action : Action) (next : Except Failure (Option Path) → Actions α)
    (work : Work σ) : carryOut (Actions.act action next).perform work
      = carryOut (next (carryOut action.perform work).1).perform
          (carryOut action.perform work).2 := by
  have hrun : carryOut (liftM (m := StateM (Work σ)) (action.perform (σ := σ)).run :
      WorkM σ (Except Failure (Option Path))) work
        = (.ok (carryOut action.perform work).1, (carryOut action.perform work).2) := rfl
  rw [Actions.perform, carryOut_bind, hrun]

/-- No action takes a directory away. -/
lemma Action.perform_keeps (action : Action) (work : Work σ) :
    ∃ changing, Work.Keeps changing work (carryOut action.perform work).2 := by
  cases action with
  | readCwd =>
    refine ⟨[], ?_⟩
    rw [Action.perform, carryOut_bind, carryOut_get]
    dsimp only
    split <;> exact .refl _ _
  | write path content =>
    rw [Action.perform, carryOut_onWorkspace]
    split
    · next hwrite =>
      obtain ⟨loc, -, hkeeps⟩ := Workspace.write_keeps hwrite
      exact ⟨[loc], rfl, hkeeps.mono (List.subset_append_left _ _)⟩
    · exact ⟨[], .refl _ _⟩
  | goTo path =>
    obtain ⟨hkeeps, -⟩ := enter_keeps path work
    refine ⟨[], ?_⟩
    rw [Action.perform, carryOut_bind]
    split
    · next heq =>
      rw [heq] at hkeeps
      exact hkeeps
    · next heq =>
      rw [heq] at hkeeps
      exact hkeeps

/-- Nothing that is done takes a directory away. -/
lemma Actions.perform_keeps (actions : Actions α) (work : Work σ) :
    ∃ changing, Work.Keeps changing work (carryOut actions.perform work).2 := by
  induction actions generalizing work with
  | give a => exact ⟨[], .refl _ _⟩
  | fail failure => exact ⟨[], .refl _ _⟩
  | act action next ih =>
    obtain ⟨here, hhere⟩ := action.perform_keeps work
    obtain ⟨later, hlater⟩ := ih (carryOut action.perform work).1 (carryOut action.perform work).2
    rw [carryOut_act]
    exact ⟨here ++ later, (hhere.mono (List.subset_append_left _ _)).trans
      (hlater.mono (List.subset_append_right _ _))⟩

/-! ### There and back -/

variable {work : Work σ} {target : Path} {loc there : Location} {made : Workspace}

/-- The work at the beginning of what is done in the directory `target`: the way to it is made, and
the current directory is the one it leads to. -/
def Work.begun (target : Path) (made : Workspace) (there : Location) (work : Work σ) : Work σ :=
  Work.noted [.debug directorySource ("Working directory switched to " ++ target.text)]
    { work with workspace := { made with cwd := some there } }

lemma begun_keeps (target : Path) (there : Location) (hkept : work.workspace.Keeps [] made) :
    (work.begun target made there).workspace.cwd = some there ∧
      Work.Keeps [] work (work.begun target made there) := by
  obtain ⟨hcwd, hnoted⟩ := notes_keeps
    [.debug directorySource ("Working directory switched to " ++ target.text)]
    { work with workspace := { made with cwd := some there } }
  have hentered : Work.Keeps [] work { work with workspace := { made with cwd := some there } } :=
    ⟨rfl, hkept.files.mono (List.nil_subset _)⟩
  exact ⟨hcwd, hentered.trans hnoted⟩

/-- Work begins with the directory to come back to. -/
lemma carryOut_within_of_none (target : Path) (body : WorkM σ α) (h : work.workspace.cwd = none) :
    carryOut (within target body) work
      = (.error (.output target.text "the current working directory no longer exists"), work) := by
  have hnowhere : carryOut (departure target) work
      = (.error (.output target.text "the current working directory no longer exists"), work) := by
    simp [departure, carryOut_bind, Workspace.cwdPath, h]
  rw [within, carryOut_bind, hnowhere]

lemma carryOut_makeDirectories (target : Path) (work : Work σ) :
    carryOut (makeDirectories target) work
      = ((work.workspace.makeDirectories target).1.mapError .ofPathFault,
        { work with workspace := (work.workspace.makeDirectories target).2 }) := by
  rw [makeDirectories, carryOut_onWorkspace]

/-- Work in a directory that cannot be made fails, after what could be made of the way to it. -/
lemma carryOut_within_of_fault {fault : PathFault} (body : WorkM σ α)
    (hcwd : work.workspace.cwd = some loc)
    (hmake : work.workspace.makeDirectories target = (.error fault, made)) :
    carryOut (within target body) work
      = (.error (.ofPathFault fault), { work with workspace := made }) := by
  rw [within, carryOut_bind, carryOut_departure target hcwd]
  dsimp only
  rw [carryOut_bind, carryOut_makeDirectories, hmake]
  rfl

/-- Work in a directory that is there or can be made is done there, and then the way goes back. -/
lemma carryOut_within (body : WorkM σ α) (hcwd : work.workspace.cwd = some loc)
    (hmake : work.workspace.makeDirectories target = (.ok (), made))
    (henter : made.enter target = .ok { made with cwd := some there }) :
    carryOut (within target body) work
      = carryOut (thenAlways body (comeBack (Workspace.pathOf loc)))
          (work.begun target made there) := by
  rw [within_eq, arrive]
  simp only [bind_assoc]
  rw [carryOut_bind, carryOut_departure target hcwd]
  dsimp only
  rw [carryOut_bind, carryOut_makeDirectories, hmake]
  dsimp only [Except.mapError]
  rw [carryOut_bind, Compile.enter, carryOut_onWorkspace, henter]
  rfl

/-- The way back is open after all actions, so work has their outcome. -/
lemma carryOut_within_perform (actions : Actions α) (hstart : work.workspace.IsCurrent loc)
    (hkept : work.workspace.Keeps [] made)
    (hmake : work.workspace.makeDirectories target = (.ok (), made))
    (henter : made.enter target = .ok { made with cwd := some there }) :
    (carryOut (within target actions.perform) work).2.workspace.cwd = some loc ∧
      (carryOut (within target actions.perform) work).1
        = (carryOut actions.perform (work.begun target made there)).1 ∧
      Work.Keeps [] (carryOut actions.perform (work.begun target made there)).2
        (carryOut (within target actions.perform) work).2 := by
  obtain ⟨-, hbegun⟩ := begun_keeps target there hkept
  obtain ⟨changing, hdone⟩ := actions.perform_keeps (work.begun target made there)
  obtain ⟨hback, hcwd, hleft⟩ := comeBack_keeps hstart
    ((hbegun.mono (List.nil_subset changing)).trans hdone)
  rw [carryOut_within actions.perform hstart.cwd hmake henter, carryOut_thenAlways]
  cases hended : carryOut (comeBack (Workspace.pathOf loc))
      (carryOut actions.perform (work.begun target made there)).2 with
  | mk result ended =>
    rw [hended] at hback hcwd hleft
    obtain rfl : result = .ok () := hback
    exact ⟨hcwd, rfl, hleft⟩

/-- Work in a directory ends where it began. Without a current directory it fails with nothing done;
if the directory cannot be made, it fails with the reason for that and every file is as it was; in
all other cases it is done in the directory and has the outcome of what is done there, which is left
as it is but for notes. -/
theorem within_comesBack (target : Path) (actions : Actions α) (work : Work σ)
    (hstart : ∀ loc, work.workspace.cwd = some loc → work.workspace.IsCurrent loc) :
    (work.workspace.cwd = none → carryOut (within target actions.perform) work
      = (.error (.output target.text "the current working directory no longer exists"), work)) ∧
    ∀ loc, work.workspace.cwd = some loc →
      (carryOut (within target actions.perform) work).2.workspace.cwd = some loc ∧
      (∀ fault made, work.workspace.makeDirectories target = (.error fault, made) →
        carryOut (within target actions.perform) work
            = (.error (.ofPathFault fault), { work with workspace := made }) ∧
          (∀ place, made.files.content? place = work.workspace.files.content? place) ∧
          ((∃ error, fault = .file error) ∨
            fault = .nullByte ∧ Workspace.holdsNull target = true)) ∧
      ∀ made, work.workspace.makeDirectories target = (.ok (), made) →
        ∃ there, made.look target = .ok (some there, .directory) ∧
          (work.begun target made there).workspace.cwd = some there ∧
          Work.Keeps [] work (work.begun target made there) ∧
          (carryOut (within target actions.perform) work).1
            = (carryOut actions.perform (work.begun target made there)).1 ∧
          Work.Keeps [] (carryOut actions.perform (work.begun target made there)).2
            (carryOut (within target actions.perform) work).2 := by
  refine ⟨carryOut_within_of_none target actions.perform, ?_⟩
  intro loc hcwd
  have hkept : work.workspace.Keeps [] (work.workspace.makeDirectories target).2 :=
    work.workspace.makeDirectories_keeps target
  have hnull := Workspace.makeDirectories_nullByte_iff (w := work.workspace) (p := target)
  cases hmake : work.workspace.makeDirectories target with
  | mk result made =>
    rw [hmake] at hkept hnull
    cases result with
    | error fault =>
      have hended := carryOut_within_of_fault actions.perform hcwd hmake
      refine ⟨?_, ?_, nofun⟩
      · rw [hended]
        exact hkept.cwd.trans hcwd
      · rintro fault made ⟨rfl, rfl⟩
        refine ⟨hended, fun place => hkept.files.content place List.not_mem_nil, ?_⟩
        cases fault with
        | file error => exact Or.inl ⟨error, rfl⟩
        | nullByte => exact Or.inr ⟨rfl, hnull.mp rfl⟩
    | ok _ =>
      obtain ⟨there, hthere, henter⟩ := Workspace.makeDirectories_enter hmake hcwd
      obtain ⟨hback, hresult, hleft⟩ :=
        carryOut_within_perform actions (hstart loc hcwd) hkept hmake henter
      obtain ⟨hcwd', hbegun⟩ := begun_keeps target there hkept
      refine ⟨hback, nofun, ?_⟩
      rintro made ⟨-, rfl⟩
      exact ⟨there, hthere, hcwd', hbegun, hresult, hleft⟩

/-- A file is written where the work is done, then it goes elsewhere and fails there. -/
def strayingActions : Actions Unit :=
  .act (.write ⟨.relative, ["t.txt"]⟩ "w".toUTF8) fun _ =>
    .act (.goTo ⟨.root, []⟩) fun _ => .act .readCwd fun _ => .fail (.invalid "boom")

/-- Work in a directory of a project that has none yet. -/
def strayingWork : Work Unit where
  workspace := { files := ⟨[(["p"], .directory)]⟩, cwd := some ["p"], start := ⟨.root, []⟩ }
  memory := ()

/-- Work that ends elsewhere with a failure comes back from there with this failure. -/
theorem within_comesBack_straying :
    (∀ loc, strayingWork.workspace.cwd = some loc → strayingWork.workspace.IsCurrent loc) ∧
    (carryOut (within ⟨.relative, ["new", "a"]⟩ strayingActions.perform) strayingWork).1
      = .error (.invalid "boom") ∧
    (carryOut (within ⟨.relative, ["new", "a"]⟩ strayingActions.perform)
      strayingWork).2.workspace.cwd = some ["p"] := by
  have hstart : ∀ loc, strayingWork.workspace.cwd = some loc →
      strayingWork.workspace.IsCurrent loc := by
    rintro loc ⟨rfl⟩
    exact ⟨rfl, by decide +kernel, by decide +kernel⟩
  obtain ⟨-, hback⟩ :=
    within_comesBack ⟨.relative, ["new", "a"]⟩ strayingActions strayingWork hstart
  obtain ⟨hcwd, -, hdone⟩ := hback ["p"] rfl
  obtain ⟨there, -, -, -, hresult, -⟩ := hdone _ (Prod.ext (by rfl) rfl)
  refine ⟨hstart, ?_, hcwd⟩
  rw [hresult, strayingActions]
  simp only [carryOut_act]
  rfl

/-! ### No way in and no way back -/

/-- A directory whose path is longer than paths may be. -/
def tooDeep : Location := List.replicate 17 longName

/-- A project with this directory, which is the current one. -/
def tooDeepWork : Work Unit where
  workspace := { deepProject with
    files := deepProject.files.put tooDeep .directory
    cwd := some tooDeep }
  memory := ()

lemma walk_tooDeep : tooDeepWork.workspace.files.walk [] tooDeep = .ok tooDeep ∧
    tooDeepWork.workspace.files.node? tooDeep = some .directory := by
  obtain ⟨hwalk, hnode⟩ := hasDirectory_deepProject.walk_ok
  have hne : tooDeep ≠ [] := by simp [tooDeep]
  have hput : ∀ loc, tooDeepWork.workspace.files.node? loc
      = if loc = tooDeep then some .directory else deepProject.files.node? loc :=
    fun loc => FileTree.node?_put _ _ _ loc hne
  have hkeeps : FileTree.Keeps [tooDeep] deepProject.files tooDeepWork.workspace.files := by
    refine ⟨?_, ?_⟩
    · intro loc hloc
      exact FileTree.content?_put_of_ne _ hne (List.ne_of_not_mem_cons hloc)
    · intro loc hloc
      rw [hput, hloc, ite_self]
  have hsplit : tooDeep = deepDirectory.segments ++ [longName] := List.replicate_succ'
  have hstep : tooDeepWork.workspace.files.step deepDirectory.segments longName = .ok tooDeep := by
    unfold FileTree.step
    rw [hkeeps.directory _ hnode]
    dsimp only
    rw [if_neg (longName_ne (by decide)), utf8ByteSize_longName, if_neg (by decide), hsplit]
  refine ⟨?_, by rw [hput, if_pos rfl]⟩
  rw [hsplit, FileTree.walk_append, hkeeps.walk_ok hwalk, ← hsplit]
  simp [Except.bind, FileTree.walk, hstep]

lemma isTooLong_tooDeep : Workspace.isTooLong (Workspace.pathOf tooDeep) = true := by
  rw [Workspace.isTooLong, Workspace.pathOf, Path.utf8ByteSize_text_root (by simp [tooDeep]),
    tooDeep, Path.sizeOf_replicate, utf8ByteSize_longName]
  rfl

lemma enter_of_isTooLong {w : Workspace} {p : Path} (h : Workspace.isTooLong p = true) :
    ∃ fault, w.enter p = .error fault := by
  unfold Workspace.enter Workspace.look
  rw [h, if_pos rfl]
  split
  · exact ⟨_, rfl⟩
  · exact ⟨_, rfl⟩

/-- There is no way back to a directory whose path is too long, whatever is done in another. -/
lemma exists_within_eq_of_isTooLong (body : WorkM σ α) (hcwd : work.workspace.cwd = some loc)
    (hlong : Workspace.isTooLong (Workspace.pathOf loc) = true)
    (hmake : work.workspace.makeDirectories target = (.ok (), made))
    (henter : made.enter target = .ok { made with cwd := some there }) :
    ∃ failure, carryOut (within target body) work
      = (.error failure, (carryOut body (work.begun target made there)).2) := by
  obtain ⟨fault, hfault⟩ := enter_of_isTooLong
    (w := (carryOut body (work.begun target made there)).2.workspace) hlong
  refine ⟨.ofPathFault fault, ?_⟩
  rw [carryOut_within body hcwd hmake henter, carryOut_thenAlways, comeBack, carryOut_bind, enter,
    carryOut_onWorkspace, hfault]

/-- A path that holds a null character is refused as a value and not by the file tree, and there is
no way back to a directory whose path is too long. -/
theorem not_always_comesBack :
    (¬ ∀ (target : Path) (work : Work Unit) (loc : Location) (fault : PathFault) (made : Workspace),
      work.workspace.IsCurrent loc → work.workspace.makeDirectories target = (.error fault, made) →
      ∃ error, (carryOut (within target (pure ())) work).1 = .error (.file error)) ∧
    ¬ ∀ (target : Path) (work : Work Unit) (loc : Location) (made : Workspace),
      work.workspace.cwd = some loc → work.workspace.files.walk [] loc = .ok loc →
      work.workspace.files.node? loc = some .directory →
      work.workspace.makeDirectories target = (.ok (), made) →
      (carryOut (within target (pure ())) work).1 = .ok () := by
  refine ⟨?_, ?_⟩
  · intro hall
    have hcurrent : strayingWork.workspace.IsCurrent ["p"] :=
      ⟨rfl, by decide +kernel, by decide +kernel⟩
    obtain ⟨error, herror⟩ := hall ⟨.relative, ["a\x00b"]⟩ strayingWork ["p"] .nullByte
      strayingWork.workspace hcurrent rfl
    rw [carryOut_within_of_fault (pure ()) rfl rfl] at herror
    cases herror
  · intro hall
    obtain ⟨hwalk, hnode⟩ := walk_tooDeep
    have hroot : ∀ w : Workspace, w.makeDirectories ⟨.root, []⟩ = (.ok (), w) ∧
        w.enter ⟨.root, []⟩ = .ok { w with cwd := some [] } := fun w => ⟨rfl, rfl⟩
    obtain ⟨hmake, henter⟩ := hroot tooDeepWork.workspace
    obtain ⟨failure, hfailure⟩ :=
      exists_within_eq_of_isTooLong (pure ()) rfl isTooLong_tooDeep hmake henter
    have hok := hall ⟨.root, []⟩ tooDeepWork tooDeep _ rfl hwalk hnode hmake
    rw [hfailure] at hok
    cases hok

end Compile

end Bundler
