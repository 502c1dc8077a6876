import Bundler.Load.Source
import Bundler.Proofs.ScopedWork

/-!
# Merging is all or nothing

A merged request that fails leaves every file as it was, at whatever stage it fails; one that
succeeds writes the file of its output and no other. It always ends in the directory it began in:
directories stay, so the way back is open whatever was done in between.
-/

namespace Bundler.Compile

open Load WorkM

variable {σ : Type}

/-- What holds when a merged request has ended with a result: the current directory is the one it
began in, a request that failed or only listed dependencies changed no file, and one that gave a
tree changed only the file of its output, which holds the text of the tree. Files of the log are
left aside, and so is the file of the output if the text has no encoding. -/
structure IsAllOrNothing (request : Request) (before : Work (Record σ))
    (result : Except Failure (Option Tree)) (after : Work (Record σ)) : Prop where
  back : after.workspace.cwd = before.workspace.cwd
  failed : ∀ failure, result = .error failure → ∀ loc ∉ before.journal.log.locations,
    (loc = (request.target before.workspace).segments → ∀ fault, failure ≠ .unencodable fault) →
    after.workspace.files.content? loc = before.workspace.files.content? loc
  listed : result = .ok none → request.mergeOptions.dependencyTarget.truthy = true ∧
    ∀ loc ∉ before.journal.log.locations,
      after.workspace.files.content? loc = before.workspace.files.content? loc
  written : ∀ tree, result = .ok (some tree) →
    request.mergeOptions.dependencyTarget.truthy = false ∧ ∃ text, tree.render = .ok text ∧
      ∀ loc ∉ before.journal.log.locations, after.workspace.files.content? loc
        = if loc = (request.target before.workspace).segments then some text.toUTF8
          else before.workspace.files.content? loc

/-- Loading and writing in another directory ends in the directory it began in. All files are as they
were, or only that of the output is not. -/
lemma within_loadAndWrite_cases (loader : Loader σ) (directory : Path) (entries : List Entry)
    (options : Options) (base : Path) {output : Path} (what : Tree → String)
    (houtput : output.isAbsolute = true) {work : Work (Record σ)} {loc : Location}
    (hcurrent : work.workspace.IsCurrent loc) {result : Except Failure (Option Tree)}
    {after : Work (Record σ)}
    (h : carryOut (within directory (loadAndWrite loader entries options base output what)) work
      = (result, after)) :
    after.workspace.cwd = some loc ∧
      (Work.Keeps [] work after ∧ (∀ tree, result ≠ .ok (some tree)) ∨
        (∃ fault, result = .error (.unencodable fault) ∧
          Work.Keeps [output.normalize.segments] work after) ∨
        ∃ tree text, result = .ok (some tree) ∧ tree.render = .ok text ∧
          ∀ place ∉ work.journal.log.locations, after.workspace.files.content? place
            = if place = output.normalize.segments then some text.toUTF8
              else work.workspace.files.content? place) := by
  have hcases := within_keeps directory (loadAndWrite loader entries options base output what) hcurrent
  rw [h] at hcases
  rcases hcases with ⟨hkeeps, hback, failure, hfailure⟩ | ⟨arrived, harrived, hthere⟩
  · exact ⟨hback, Or.inl ⟨hkeeps, fun tree htree => nomatch hfailure.symm.trans htree⟩⟩
  rcases loadAndWrite_keeps loader entries options base what houtput arrived with
    ⟨hkeeps, hnone⟩ | ⟨fault, hfailed, hkeeps⟩ | ⟨tree, text, htree, hrender, hcontent, hkeeps⟩
  · obtain ⟨hresult, hback, hend⟩ := hthere [] hkeeps
    exact ⟨hback, Or.inl ⟨harrived.trans (hkeeps.trans hend),
      fun tree htree => hnone tree (hresult.symm.trans htree)⟩⟩
  · obtain ⟨hresult, hback, hend⟩ := hthere _ hkeeps
    exact ⟨hback, Or.inr (Or.inl ⟨fault, hresult.trans hfailed,
      (harrived.mono (List.nil_subset _)).trans (hkeeps.trans (hend.mono (List.nil_subset _)))⟩)⟩
  · obtain ⟨hresult, hback, hend⟩ := hthere _ hkeeps
    exact ⟨hback, Or.inr (Or.inr ⟨tree, text, hresult.trans htree, hrender,
      fun _ hplace => harrived.content_of_written hkeeps hend hcontent hplace⟩)⟩

/-- A merged request is all or nothing. -/
theorem merge_isAllOrNothing {reporting : Bool} {nesting : Nat} {request : Request}
    {work : Work (Record (List (Value × String)))} {loc : Location}
    (houtput : (request.target work.workspace).isAbsolute = true)
    (hcurrent : work.workspace.IsCurrent loc) :
    IsAllOrNothing request work (carryOut (merge (Source.loader reporting nesting) request) work).1
      (carryOut (merge (Source.loader reporting nesting) request) work).2 := by
  have hanswer : ∀ tree,
      (carryOut (merge (Source.loader reporting nesting) request) work).1 = .ok tree →
      (tree = none ↔ request.mergeOptions.dependencyTarget.truthy = true) := by
    intro tree htree
    obtain ⟨_, -, hcompiled⟩ := merge_ok htree
    exact eq_none_iff_of_compileEntries hcompiled
  rw [carryOut_merge] at hanswer ⊢
  split
  · exact ⟨rfl, fun _ _ _ _ _ => rfl, nofun, nofun⟩
  · next entries hentries =>
    have hbegun : (carryOut (begin request.mergeOptions :
        WorkM (Record (List (Value × String))) Unit) work).2.workspace.IsCurrent loc := hcurrent
    have hplace : (request.target work.workspace).normalize = request.target work.workspace :=
      Path.normalize_normalize _
    simp only [hentries, mergeThere_eq] at hanswer ⊢
    generalize hend : carryOut (within _ _) _ = done at hanswer ⊢
    obtain ⟨result, after⟩ := done
    obtain ⟨hback, hcases⟩ := within_loadAndWrite_cases _ _ _ _ _ _ houtput hbegun hend
    rw [hplace] at hcases
    rcases hcases with ⟨hkeeps, hnone⟩ | ⟨fault, rfl, hkeeps⟩ | ⟨tree, text, rfl, hrender, hfiles⟩
    · refine ⟨hback.trans hcurrent.cwd.symm, fun _ _ place hplace _ =>
        hkeeps.files.content place hplace, fun hlisted => ?_, fun tree htree => ?_⟩
      · exact ⟨(hanswer none hlisted).mp rfl, hkeeps.files.content⟩
      · exact absurd htree (hnone tree)
    · refine ⟨hback.trans hcurrent.cwd.symm, ?_, nofun, nofun⟩
      intro failure hfailure place hlogged hencodable
      cases hfailure
      refine hkeeps.files.content place ?_
      rw [List.singleton_append, List.mem_cons, not_or]
      exact ⟨fun heq => hencodable heq fault rfl, hlogged⟩
    · refine ⟨hback.trans hcurrent.cwd.symm, nofun, nofun, ?_⟩
      intro tree' htree'
      cases htree'
      have hwanted : request.mergeOptions.dependencyTarget.truthy = false := by
        simpa using hanswer (some tree) rfl
      exact ⟨hwanted, text, hrender, hfiles⟩

/-- A project whose output is one of its sources. -/
def overwrittenProject : Work (Record (List (Value × String))) where
  workspace :=
    { files := ⟨[
        (["p"], .directory),
        (["p", "main.js"], .file "import \"./lib.js\";\n".toUTF8),
        (["p", "lib.js"], .file "export var l;\n".toUTF8)]⟩
      cwd := some ["p"]
      start := ⟨.root, ["p"]⟩ }
  memory := { memory := [] }

/-- The file `main.js` is merged into itself. -/
def overwritingRequest : Request where
  output := "main.js"
  entries := [⟨"main.js", .module⟩]
  options := none
  base := none

/-- The tree that takes its place. -/
def overwritingTree : Tree := [
  .compiled { name := "lib.js", text := "// lib.js\nexport var l;" },
  .compiled { name := "main.js", text := "// main.js\nimport \"./lib.js\";",
              dependencies := ["lib.js"] }]

theorem isAllOrNothing_overwriting :
    (overwritingRequest.target overwrittenProject.workspace).isAbsolute = true ∧
    overwrittenProject.workspace.IsCurrent ["p"] ∧
    (carryOut (merge (Source.loader false 8) overwritingRequest) overwrittenProject).1
      = .ok (some overwritingTree) ∧
    IsAllOrNothing overwritingRequest overwrittenProject
      (carryOut (merge (Source.loader false 8) overwritingRequest) overwrittenProject).1
      (carryOut (merge (Source.loader false 8) overwritingRequest) overwrittenProject).2 :=
  have hcurrent : overwrittenProject.workspace.IsCurrent ["p"] := ⟨rfl, rfl, rfl⟩
  ⟨rfl, hcurrent, eq_ok_of_toOption (by decide +kernel), merge_isAllOrNothing rfl hcurrent⟩

/-- A project whose log is written to a file. -/
def recordedProject : Work (Record (List (Value × String))) where
  workspace :=
    { files := ⟨[
        (["main.js"], .file "var m;\n".toUTF8),
        (["log.txt"], .file "".toUTF8)]⟩
      cwd := some []
      start := ⟨.root, []⟩ }
  memory := { memory := [] }
  journal := { log := { level := Note.infoLevel, handlers := [.file ⟨some ["log.txt"], .atEnd⟩] } }

/-- The file `main.js` is merged into a file beside it. -/
def recordedRequest : Request where
  output := "app.js"
  entries := [⟨"main.js", .module⟩]
  options := none
  base := none

/-- A merged request fails if it begins in a directory whose path is too long, and ends in the
directory of its output. -/
lemma merge_of_isTooLong {loader : Loader σ} {request : Request} {work : Work (Record σ)}
    {entries : List Entry} {loc there : Location} {made : Workspace}
    (hcwd : work.workspace.cwd = some loc)
    (hlong : Workspace.isTooLong (Workspace.pathOf loc) = true)
    (hentries : request.entriesIn work.workspace = .ok entries)
    (houtput : (request.target work.workspace).isAbsolute = true)
    (hmake : work.workspace.makeDirectories (request.directory work.workspace) = (.ok (), made))
    (henter : made.enter (request.directory work.workspace)
      = .ok { made with cwd := some there }) :
    (∃ failure, (carryOut (merge loader request) work).1 = .error failure) ∧
      (carryOut (merge loader request) work).2.workspace.cwd = some there := by
  obtain ⟨begun, hbegin, hbegun⟩ : ∃ begun, (carryOut (begin request.mergeOptions) work).2 = begun ∧
      begun.workspace = work.workspace := ⟨_, rfl, rfl⟩
  rw [carryOut_merge, hentries, hbegin]
  dsimp only
  generalize request.directory work.workspace = directory at hmake henter ⊢
  rw [← hbegun] at hcwd hmake
  have hkept : begun.workspace.Keeps [] (begun.workspace.makeDirectories directory).2 :=
    begun.workspace.makeDirectories_keeps directory
  rw [hmake] at hkept
  obtain ⟨failure, hended⟩ := exists_within_eq_of_isTooLong
    (mergeThere loader entries request.mergeOptions (request.target work.workspace)) hcwd hlong
    hmake henter
  obtain ⟨hthere, -⟩ := begun_keeps directory there hkept
  rw [hended, mergeThere_eq]
  exact ⟨⟨failure, rfl⟩, (loadAndWrite_cwd _ _ _ _ _ houtput _).trans hthere⟩

/-- Nothing is merged into a file of the root directory. -/
def emptyRequest : Request where
  output := "/app.js"
  entries := []
  options := none
  base := none

/-- Work that begins in a directory whose path is too long. -/
def tooDeepProject : Work (Record (List (Value × String))) where
  workspace := tooDeepWork.workspace
  memory := { memory := [] }

/-- A merged request that succeeds changes the log besides its output, and one that begins in a
directory whose path is too long cannot go back there. -/
theorem not_always_allOrNothing :
    ((carryOut (merge (Source.loader false 8) recordedRequest)
        recordedProject).1.toOption.map Option.isSome = some true ∧
      (recordedRequest.target recordedProject.workspace).segments = ["app.js"] ∧
      (carryOut (merge (Source.loader false 8) recordedRequest)
          recordedProject).2.workspace.files.content? ["log.txt"]
        ≠ recordedProject.workspace.files.content? ["log.txt"]) ∧
    (tooDeepProject.workspace.cwd = some tooDeep ∧
      tooDeepProject.workspace.files.walk [] tooDeep = .ok tooDeep ∧
      tooDeepProject.workspace.files.node? tooDeep = some .directory ∧
      (emptyRequest.target tooDeepProject.workspace).isAbsolute = true ∧
      (∃ failure, (carryOut (merge (Source.loader false 8) emptyRequest) tooDeepProject).1
        = .error failure) ∧
      (carryOut (merge (Source.loader false 8) emptyRequest) tooDeepProject).2.workspace.cwd
        = some []) := by
  refine ⟨⟨by decide +kernel, by decide +kernel, by decide +kernel⟩, rfl, walk_tooDeep.1,
    walk_tooDeep.2, by decide +kernel, ?_⟩
  have hdirectory : emptyRequest.directory tooDeepProject.workspace = ⟨.root, []⟩ := by
    decide +kernel
  have hroot : ∀ w : Workspace, w.makeDirectories ⟨.root, []⟩ = (.ok (), w) ∧
      w.enter ⟨.root, []⟩ = .ok { w with cwd := some [] } := fun w => ⟨rfl, rfl⟩
  obtain ⟨hmake, henter⟩ := hroot tooDeepProject.workspace
  rw [← hdirectory] at hmake henter
  exact merge_of_isTooLong rfl isTooLong_tooDeep rfl (by decide +kernel) hmake henter

end Bundler.Compile
