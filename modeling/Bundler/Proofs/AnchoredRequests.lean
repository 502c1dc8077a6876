import Bundler.Proofs.FanOut
import Bundler.Proofs.RelativeBases
import Bundler.Proofs.Walks

/-!
# Requests below relative base directories

A request makes its output and its entries absolute against the base directory. If that is relative,
so are the results, and relative paths are read from the current directory, which is not the one
they were made for when a merged request has gone to the directory of its output, and are joined to
the base directory once more when an entry is loaded on its own. So a relative base directory does
what its absolute form does only where neither can happen: if the output of a merged request is
absolute, or lies in the current directory, and if the entries that are compiled on their own have
absolute names. Names inside of the sources may be relative, since the loader joins them to the base
directory once. Entries on their own take their steps in turns, and whatever the turns are, both
lists of tasks take the same steps.
-/

namespace Bundler.Compile

open Load Load.Source WorkM

variable {σ : Type} {loader : Loader σ} {request : Request} {loc : Location}
  {base' : Option String} {options : Options} {entries : List Entry} {base output : Path}
  {what : Tree → String} {reporting : Bool} {nesting : Nat}

/-! ### Sessions -/

lemma sessions_loadAndWrite (loader : Loader σ) (entries : List Entry) (options : Options)
    (base output : Path) (what : Tree → String) (work : Work (Record σ)) :
    (carryOut (loadAndWrite loader entries options base output what) work).2.memory.sessions
      = work.memory.sessions ++ [(work.compile loader entries options base).2.session] := by
  have hended : ∀ run : Run σ, (work.ended run).memory.sessions
      = work.memory.sessions ++ [run.session] := fun _ => rfl
  rw [loadAndWrite, carryOut_bind, carryOut_session]
  rcases work.compile loader entries options base with ⟨_ | _ | tree, run⟩
  · exact hended run
  · exact hended run
  · dsimp only
    rw [carryOut_bind, carryOut_writeTree]
    rcases tree.write (work.ended run).workspace output with ⟨_ | _, workspace⟩
    · exact hended run
    · exact hended run

/-- A session leaves the current directory where it is, and the log with the same files. -/
lemma loadAndWrite_isCurrent (loader : Loader σ) (entries : List Entry) (options : Options)
    (base : Path) (what : Tree → String) (houtput : output.isAbsolute = true)
    {work : Work (Record σ)} (hat : work.workspace.IsCurrent loc) :
    (carryOut (loadAndWrite loader entries options base output what)
        work).2.workspace.IsCurrent loc ∧
      (carryOut (loadAndWrite loader entries options base output what)
        work).2.journal.log.locations = work.journal.log.locations := by
  have hcwd : (carryOut (loadAndWrite loader entries options base output what)
      work).2.workspace.cwd = work.workspace.cwd :=
    loadAndWrite_cwd loader entries options base what houtput work
  rcases loadAndWrite_keeps loader entries options base what houtput work with
    ⟨hkeeps, -⟩ | ⟨_, -, hkeeps⟩ | ⟨_, _, -, -, -, hkeeps⟩
  · exact ⟨hat.of_keeps hcwd hkeeps.files, hkeeps.log⟩
  · exact ⟨hat.of_keeps hcwd hkeeps.files, hkeeps.log⟩
  · exact ⟨hat.of_keeps hcwd hkeeps.files, hkeeps.log⟩

/-! ### Entries side by side -/

/-- An entry with a file that is given by the absolute form of its path. -/
def rooted (loc : Location) (job : Entry × Path) : Entry × Path := (job.1, job.2.rootedAt loc)

/-- The outcomes are the same but for what failures tell, and the second file is given by a path whose
absolute form gives the first one. -/
structure Outcome.Alike (loc : Location) (outcome outcome' : Outcome) : Prop where
  entry : outcome'.entry = outcome.entry
  output : outcome'.output.rootedAt loc = outcome.output
  result : outcome'.result.toOption = outcome.result.toOption

lemma alike_zipWith (jobs : List (Entry × Path)) {results results' : List (Except Failure (Option Tree))}
    (h : List.Forall₂ Workspace.SameResult results results') :
    List.Forall₂ (Outcome.Alike loc)
      ((jobs.map (rooted loc)).zipWith (fun job result => ⟨job.1, job.2, result⟩) results)
      (jobs.zipWith (fun job result => ⟨job.1, job.2, result⟩) results') := by
  induction h generalizing jobs with
  | nil => simp
  | cons hresult _ ih =>
    cases jobs with
    | nil => exact .nil
    | cons job jobs => exact .cons ⟨rfl, rfl, hresult⟩ (ih jobs)

/-- Entries with absolute names have the same outcomes below a base directory and below its absolute
form, but for what failures tell, in whatever turns they take their steps. -/
lemma outcomes_alike {jobs : List (Entry × Path)} {start : Work (Record (List (Value × String)))}
    (turns : List Nat) (hat : start.workspace.IsCurrent loc)
    (hreports : reporting = true ∨ options.dependencyTarget.truthy = false)
    (hjobs : ∀ job ∈ jobs, (Path.ofString job.1.name).isAbsolute = true ∧
      start.IsTarget loc job.2)
    (hshort : ∀ session ∈ start.sessionsSince (outcomes (Source.sharedLoader reporting nesting) turns
        options ((Workspace.pathOf loc).append base) (jobs.map (rooted loc)) start).2,
      ∀ name ∈ session.loaded,
        Workspace.isTooLong (locate ((Workspace.pathOf loc).append base) name) = false) :
    List.Forall₂ (Outcome.Alike loc)
        (outcomes (Source.sharedLoader reporting nesting) turns options
          ((Workspace.pathOf loc).append base) (jobs.map (rooted loc)) start).1
        (outcomes (Source.sharedLoader reporting nesting) turns options base jobs start).1 ∧
      Work.Alike
        (outcomes (Source.sharedLoader reporting nesting) turns options
          ((Workspace.pathOf loc).append base) (jobs.map (rooted loc)) start).2
        (outcomes (Source.sharedLoader reporting nesting) turns options base jobs start).2 := by
  have htasks : ∀ pair ∈ jobs.map fun job =>
      (compiling (Source.sharedLoader reporting nesting) options
          ((Workspace.pathOf loc).append base) job.1 (job.2.rootedAt loc),
        compiling (Source.sharedLoader reporting nesting) options base job.1 job.2),
      pair.1.GoAlike start.Recalls (start.GoesOn loc)
          (start.HasLong ((Workspace.pathOf loc).append base)) Workspace.SameResult pair.2 ∧
        pair.1.Always Work.Recalls fun _ => True := by
    refine List.forall_mem_map.mpr fun job hjob => ⟨?_, compiling_recalls⟩
    exact compiling_goAlike hat hreports (hjobs job hjob).1 (hjobs job hjob).2
  have hends := Steps.together_goAlike
    (fun _ _ h => ⟨fun hrecalls => hrecalls.trans h, fun hlong => hlong.recall h⟩)
    (fun _ _ h => h.recalls) turns htasks
    (⟨.refl _, hat, rfl, List.prefix_refl _⟩ : start.GoesOn loc start start)
  have hfirst : jobs.map (fun job => compiling (Source.sharedLoader reporting nesting) options
        ((Workspace.pathOf loc).append base) job.1 (job.2.rootedAt loc))
      = (jobs.map (rooted loc)).map fun job => compiling (Source.sharedLoader reporting nesting)
        options ((Workspace.pathOf loc).append base) job.1 job.2 := by
    rw [List.map_map]
    rfl
  simp only [List.map_map, Function.comp_def] at hends
  rw [hfirst] at hends
  unfold outcomes at hshort ⊢
  rcases hends with ⟨session, hsession, name, hname, hlong⟩ | ⟨hgoesOn, hresults⟩
  · have hnot := hshort session hsession name hname
    rw [hlong] at hnot
    cases hnot
  · exact ⟨alike_zipWith jobs hresults, hgoesOn.alike⟩

/-! ### Base directories -/

/-- The request with another base directory. -/
def Request.under (request : Request) (base' : Option String) : Request :=
  { request with base := base' }

/-- Another base directory means the absolute form of that of a request. -/
def Request.IsRootedBy (request : Request) (base' : Option String) (loc : Location) (w : Workspace) :
    Prop :=
  w.base base' = (Workspace.pathOf loc).append (w.base request.base)

lemma Request.IsRootedBy.target_eq {w : Workspace} (h : request.IsRootedBy base' loc w) :
    (request.under base').target w = (request.target w).rootedAt loc := by
  rw [Request.target, Request.target, ← Path.resolve_append, ← h]
  rfl

/-! ### Merged requests -/

/-- Entries are seen alike from a directory and from its absolute form. -/
lemma Request.IsRootedBy.entriesIn_eq {w : Workspace} (h : request.IsRootedBy base' loc w)
    (hcwd : w.cwd = some loc)
    (hdirectory : w.absolute ((request.under base').directory w)
      = w.absolute (request.directory w)) :
    (request.under base').entriesIn w = request.entriesIn w := by
  have hbase : w.base (request.under base').base
      = (Workspace.pathOf loc).append (w.base request.base) := h
  unfold Request.entriesIn Entry.resolveAll
  dsimp only
  rw [hbase]
  exact congrArg (fun resolve => request.entries.mapM resolve)
    (funext fun entry => Entry.resolveIn_append hcwd _ hdirectory entry)

/-- A merged request with an absolute output does the same below a base directory and below its
absolute form. -/
lemma Request.IsRootedBy.merge_of_isAbsolute {work : Work (Record σ)}
    (h : request.IsRootedBy base' loc work.workspace) (hcwd : work.workspace.cwd = some loc)
    (houtput : (Path.ofString request.output).isAbsolute = true) :
    carryOut (merge loader (request.under base')) work = carryOut (merge loader request) work := by
  have hresolved : request.target work.workspace = (Path.ofString request.output).normalize :=
    Entry.resolve_of_isAbsolute houtput _
  have htarget : (request.under base').target work.workspace = request.target work.workspace := by
    rw [h.target_eq, hresolved]
    exact Path.rootedAt_of_isAbsolute loc (Path.normalize_normalize _) houtput
  have hdirectory : (request.under base').directory work.workspace
      = request.directory work.workspace := congrArg Path.parent htarget
  rw [carryOut_merge, carryOut_merge, h.entriesIn_eq hcwd (congrArg _ hdirectory), htarget, hdirectory]
  rfl

/-- The work when a note has been taken of the way to a directory. -/
def Work.switched (target : Path) (work : Work σ) : Work σ :=
  work.noted [.debug directorySource ("Working directory switched to " ++ target.text)]

lemma switched_isCurrent {work : Work σ} (hat : work.workspace.IsCurrent loc) (target : Path) :
    (work.switched target).workspace.IsCurrent loc := by
  obtain ⟨hcwd, hkeeps⟩ := notes_keeps
    [.debug directorySource ("Working directory switched to " ++ target.text)] work
  exact hat.of_keeps hcwd hkeeps.files

/-- A directory that is the current one is entered without a change but for a note. -/
lemma carryOut_arrive_of_stay {work : Work σ} {target : Path} (hcwd : work.workspace.cwd = some loc)
    (hstay : work.workspace.makeDirectories target = (.ok (), work.workspace) ∧
      work.workspace.enter target = .ok work.workspace) :
    carryOut (arrive target) work = (.ok (Workspace.pathOf loc), work.switched target) := by
  have hmade : carryOut (makeDirectories target) work = (.ok (), work) := by
    rw [makeDirectories, carryOut_onWorkspace, hstay.1]
    rfl
  have henter : carryOut (Compile.enter target) work = (.ok (), work) := by
    rw [Compile.enter, carryOut_onWorkspace, hstay.2]
  rw [arrive, carryOut_bind, carryOut_departure target hcwd]
  dsimp only
  rw [carryOut_bind, hmade]
  dsimp only
  rw [carryOut_bind, henter]
  rfl

/-- What is done in the current directory is done without a change but for notes before and after. -/
lemma carryOut_within_of_stay {α : Type} {work : Work σ} {target : Path} {body : WorkM σ α}
    (hat : work.workspace.IsCurrent loc)
    (hstay : work.workspace.makeDirectories target = (.ok (), work.workspace) ∧
      work.workspace.enter target = .ok work.workspace)
    (hend : (carryOut body (work.switched target)).2.workspace.IsCurrent loc) :
    carryOut (within target body) work = ((carryOut body (work.switched target)).1,
      (carryOut body (work.switched target)).2.noted [.debug directorySource
        ("Working directory restored to " ++ (Workspace.pathOf loc).text)]) := by
  have hback : carryOut (Compile.enter (Workspace.pathOf loc))
      (carryOut body (work.switched target)).2
        = (.ok (), (carryOut body (work.switched target)).2) := by
    rw [Compile.enter, carryOut_onWorkspace, hend.stay_pathOf.2]
  rw [within_eq, carryOut_bind, carryOut_arrive_of_stay hat.cwd hstay]
  dsimp only
  rw [carryOut_thenAlways, comeBack, carryOut_bind, hback]
  rfl

/-- The output of a request lies in the current directory, files that are read are reported apart if
they are reported at all, and notes do not go to files. No path that is tried below the absolute form
of the base directory is too long. -/
structure Request.IsHere (request : Request) (base' : Option String) (loc : Location)
    (reporting : Bool) (nesting : Nat) (work : Work (Record (List (Value × String)))) : Prop where
  output : ∃ file, file ≠ ".." ∧ request.target work.workspace = ⟨.relative, [file]⟩ ∧
    Workspace.isTooLong (Workspace.pathOf (loc ++ [file])) = false
  quiet : work.IsQuiet
  reports : reporting = true ∨ request.mergeOptions.dependencyTarget.truthy = false
  short : ∀ session ∈ work.sessionsSince
      (carryOut (merge (Source.loader reporting nesting) (request.under base')) work).2,
    ∀ name ∈ session.loaded, Workspace.isTooLong (locate (Workspace.pathOf loc) name) = false

lemma carryOut_within_pathOf (loader : Loader σ) (entries : List Entry) (options : Options)
    (base : Path) (what : Tree → String) (houtput : output.isAbsolute = true)
    {work : Work (Record σ)} (hat : work.workspace.IsCurrent loc) :
    carryOut (within (Workspace.pathOf loc) (loadAndWrite loader entries options base output what)) work
      = ((carryOut (loadAndWrite loader entries options base output what)
          (work.switched (Workspace.pathOf loc))).1,
        (carryOut (loadAndWrite loader entries options base output what)
          (work.switched (Workspace.pathOf loc))).2.noted [.debug directorySource
            ("Working directory restored to " ++ (Workspace.pathOf loc).text)]) :=
  carryOut_within_of_stay hat hat.stay_pathOf
    (loadAndWrite_isCurrent loader entries options base what houtput (switched_isCurrent hat _)).1

/-- What is loaded and written in a directory begins one session. -/
lemma sessionsSince_within_pathOf (loader : Loader σ) (entries : List Entry) (options : Options)
    (base : Path) (what : Tree → String) (houtput : output.isAbsolute = true)
    {work : Work (Record σ)} (hat : work.workspace.IsCurrent loc) :
    work.sessionsSince (carryOut (within (Workspace.pathOf loc)
        (loadAndWrite loader entries options base output what)) work).2
      = [((work.switched (Workspace.pathOf loc)).compile loader entries options base).2.session] := by
  rw [carryOut_within_pathOf loader entries options base what houtput hat]
  have hsessions := sessions_loadAndWrite loader entries options base output what
    (work.switched (Workspace.pathOf loc))
  exact (congrArg (List.drop work.memory.sessions.length) hsessions).trans List.drop_left

/-- A session in the current directory does the same whether that is given by its relative path or
by its location, but for what a failure tells. -/
lemma within_here_alike {work : Work (Record (List (Value × String)))}
    (hat : work.workspace.IsCurrent loc) (hquiet : work.IsQuiet)
    (hreports : reporting = true ∨ options.dependencyTarget.truthy = false)
    (htarget : work.IsTarget loc output)
    (hshort : ∀ session ∈ work.sessionsSince (carryOut (within (Workspace.pathOf loc)
        (loadAndWrite (Source.loader reporting nesting) entries options (Workspace.pathOf loc)
          (output.rootedAt loc) what)) work).2,
      ∀ name ∈ session.loaded, Workspace.isTooLong (locate (Workspace.pathOf loc) name) = false) :
    EndsAlike
      (carryOut (within (Workspace.pathOf loc) (loadAndWrite (Source.loader reporting nesting)
        entries options (Workspace.pathOf loc) (output.rootedAt loc) what)) work)
      (carryOut (within ⟨.relative, []⟩ (loadAndWrite (Source.loader reporting nesting) entries
        options ⟨.relative, []⟩ output what)) work) := by
  have houtput := Path.isAbsolute_rootedAt loc output
  rw [sessionsSince_within_pathOf _ _ _ _ _ houtput hat, List.forall_mem_singleton] at hshort
  have hsame : (work.switched (Workspace.pathOf loc)).Alike (work.switched ⟨.relative, []⟩) :=
    (Work.Alike.refl work).noted_of_isQuiet hquiet _ _
  have hlog : (work.switched (Workspace.pathOf loc)).journal.log.locations
      = work.journal.log.locations := (notes_keeps _ work).2.log
  have hshort' : ∀ name ∈ ((work.switched (Workspace.pathOf loc)).compile
      (Source.loader reporting nesting) entries options
        ((Workspace.pathOf loc).append ⟨.relative, []⟩)).2.session.loaded,
      Workspace.isTooLong (locate ((Workspace.pathOf loc).append ⟨.relative, []⟩) name) = false := by
    rwa [Path.append_here]
  have hends := loadAndWrite_alike what hsame (switched_isCurrent hat _) (htarget.of_log hlog)
    hreports hshort'
  rw [Path.append_here] at hends
  -- both ways end in the current directory
  have hend : (carryOut (loadAndWrite (Source.loader reporting nesting) entries options
      ⟨.relative, []⟩ output what) (work.switched ⟨.relative, []⟩)).2.workspace.IsCurrent loc := by
    rw [hends.work.workspace]
    exact (loadAndWrite_isCurrent _ _ _ _ _ houtput (switched_isCurrent hat _)).1
  rw [carryOut_within_pathOf _ _ _ _ _ houtput hat, carryOut_within_of_stay hat hat.stay_here hend]
  exact ⟨hends.result, hends.work.noted _⟩

/-- A merged request with an output in the current directory does the same below a base directory and
below its absolute form, but for what a failure tells. -/
lemma Request.IsRootedBy.merge_here {work : Work (Record (List (Value × String)))}
    (h : request.IsRootedBy base' loc work.workspace) (hat : work.workspace.IsCurrent loc)
    (hhere : request.IsHere base' loc reporting nesting work) :
    EndsAlike
      (carryOut (merge (Source.loader reporting nesting) (request.under base')) work)
      (carryOut (merge (Source.loader reporting nesting) request) work) := by
  obtain ⟨file, hfile, htarget, hlong⟩ := hhere.output
  have htarget' : (request.under base').target work.workspace
      = (⟨.relative, [file]⟩ : Path).rootedAt loc := by rw [h.target_eq, htarget]
  have hparent : (⟨.relative, [file]⟩ : Path).parent = ⟨.relative, []⟩ := rfl
  have hparent' : ((⟨.relative, [file]⟩ : Path).rootedAt loc).parent = Workspace.pathOf loc := by
    rw [Path.rootedAt_file hat.normal hfile, Path.parent, Workspace.pathOf, List.dropLast_concat]
    rfl
  have hdirectory : request.directory work.workspace = ⟨.relative, []⟩ := by
    rw [Request.directory, htarget, hparent]
  have hdirectory' : (request.under base').directory work.workspace = Workspace.pathOf loc := by
    rw [Request.directory, htarget', hparent']
  have hentries : (request.under base').entriesIn work.workspace
      = request.entriesIn work.workspace := by
    apply h.entriesIn_eq hat.cwd
    rw [hdirectory, hdirectory', ← Path.rootedAt_here hat.normal,
      Workspace.absolute_rootedAt hat.cwd]
  have hshort := hhere.short
  rw [carryOut_merge, hentries, hdirectory', htarget'] at hshort
  rw [carryOut_merge, carryOut_merge, hentries, hdirectory, hdirectory', htarget, htarget']
  cases hresolved : request.entriesIn work.workspace with
  | error fault => exact ⟨rfl, .refl _⟩
  | ok entries =>
    rw [hresolved] at hshort
    dsimp only at hshort ⊢
    rw [mergeThere_eq, hparent'] at hshort
    rw [mergeThere_eq, mergeThere_eq, hparent, hparent']
    exact within_here_alike hat hhere.quiet hhere.reports (.of_file hat hhere.quiet hfile hlong) hshort

/-! ### Entries on their own -/

/-- The entries of a request have absolute names, files that are read are reported apart if they are
reported at all, and files may be given by their paths or the absolute forms of those. No path that
is tried below the absolute form of the base directory is too long. -/
structure Request.IsRooted (request : Request) (base' : Option String) (loc : Location)
    (reporting : Bool) (nesting : Nat) (turns : List Nat)
    (work : Work (Record (List (Value × String)))) : Prop where
  names : ∀ entry ∈ request.entries, (Path.ofString entry.name).isAbsolute = true
  reports : reporting = true ∨ request.eachOptions.dependencyTarget.truthy = false
  outputs : ∀ entry ∈ request.entries, ∀ p, request.fileOf work.workspace entry = .ok p →
    work.IsTarget loc p
  short : ∀ session ∈ work.sessionsSince
      (carryOut (compileEach (Source.sharedLoader reporting nesting) turns (request.under base'))
        work).2,
    ∀ name ∈ session.loaded,
      Workspace.isTooLong (locate (work.workspace.base base') name) = false

/-- The same has come of all entries, but for what failures tell, and all files are the same but for
those of the log. -/
structure SameEnds (loc : Location) (logs : List Location)
    (end₁ end₂ : Except Failure (List Outcome) × Work (Record σ)) : Prop where
  outcomes : ∃ outcomes₁ outcomes₂, end₁.1 = .ok outcomes₁ ∧ end₂.1 = .ok outcomes₂ ∧
    List.Forall₂ (Outcome.Alike loc) outcomes₁ outcomes₂
  cwd : end₂.2.workspace.cwd = end₁.2.workspace.cwd
  files : ∀ place ∉ logs,
    end₂.2.workspace.files.content? place = end₁.2.workspace.files.content? place

/-- The notes on failures may differ, and with them the files of the log. -/
lemma sameEnds_noted {logs : List Location} {end₁ end₂ : List Outcome × Work (Record σ)}
    (notes₁ notes₂ : List Note) (hlog : end₁.2.journal.log.locations = logs)
    (houtcomes : List.Forall₂ (Outcome.Alike loc) end₁.1 end₂.1) (hsame : end₁.2.Alike end₂.2) :
    SameEnds loc logs (.ok end₁.1, end₁.2.noted notes₁) (.ok end₂.1, end₂.2.noted notes₂) := by
  obtain ⟨hcwd, hnoted⟩ := notes_keeps notes₁ end₁.2
  obtain ⟨hcwd', hnoted'⟩ := notes_keeps notes₂ end₂.2
  have hlog' := hsame.locations.trans hlog
  rw [hsame.workspace] at hcwd'
  refine ⟨⟨_, _, rfl, rfl, houtcomes⟩, hcwd'.trans hcwd.symm, fun place hplace => ?_⟩
  have hfile := hnoted.files.content place (hlog ▸ hplace)
  have hfile' := hnoted'.files.content place (hlog' ▸ hplace)
  rw [hsame.workspace] at hfile'
  exact hfile'.trans hfile.symm

/-- Entries with absolute names have files below both base directories. -/
lemma Request.IsRootedBy.exists_fileOf {w : Workspace} (h : request.IsRootedBy base' loc w)
    (hcwd : w.cwd = some loc) (entries : List Entry)
    (hnames : ∀ entry ∈ entries, (Path.ofString entry.name).isAbsolute = true) :
    ∃ outputs, entries.mapM (request.fileOf w) = .ok outputs ∧
      entries.mapM ((request.under base').fileOf w) = .ok (outputs.map (Path.rootedAt loc)) ∧
      ∀ job ∈ entries.zip outputs, request.fileOf w job.1 = .ok job.2 := by
  induction entries with
  | nil => exact ⟨[], rfl, rfl, by simp⟩
  | cons entry entries ih =>
    obtain ⟨hname, hnames⟩ := List.forall_mem_cons.mp hnames
    obtain ⟨outputs, houtputs, houtputs', hfiles⟩ := ih hnames
    obtain ⟨p, hp, -, hp'⟩ := Entry.exists_outputPath_append hcwd (w.base request.base)
      (Path.normalize_normalize _ : (request.target w).normalize = _) hname
    have hfile' : (request.under base').fileOf w entry = .ok (p.rootedAt loc) := by
      rw [Request.fileOf, h.target_eq, ← hp', ← h]
      rfl
    refine ⟨p :: outputs, ?_, ?_, List.forall_mem_cons.mpr ⟨hp, hfiles⟩⟩
    · exact mapM_cons_eq_ok_iff.mpr ⟨p, outputs, hp, houtputs, rfl⟩
    · exact mapM_cons_eq_ok_iff.mpr ⟨_, _, hfile', houtputs', rfl⟩

/-- Entries with absolute names have the same outcomes and files below a base directory and below its
absolute form. -/
lemma Request.IsRootedBy.compileEach_alike {work : Work (Record (List (Value × String)))}
    {turns : List Nat} (h : request.IsRootedBy base' loc work.workspace)
    (hat : work.workspace.IsCurrent loc)
    (hrooted : request.IsRooted base' loc reporting nesting turns work) :
    SameEnds loc work.journal.log.locations
      (carryOut (compileEach (Source.sharedLoader reporting nesting) turns (request.under base')) work)
      (carryOut (compileEach (Source.sharedLoader reporting nesting) turns request) work) := by
  obtain ⟨outputs, houtputs, houtputs', hfiles⟩ :=
    h.exists_fileOf hat.cwd request.entries hrooted.names
  obtain ⟨notes, hend⟩ := exists_compileEach_eq reporting nesting turns work houtputs'
  obtain ⟨notes', hend'⟩ := exists_compileEach_eq reporting nesting turns work houtputs
  have hzip : (request.under base').entries.zip (outputs.map (Path.rootedAt loc))
      = (request.entries.zip outputs).map (rooted loc) := List.zip_map_right ..
  have hbase : work.workspace.base (request.under base').base
      = (Workspace.pathOf loc).append (work.workspace.base request.base) := h
  have hshort := hrooted.short
  rw [hend, h] at hshort
  rw [hend, hend']
  dsimp only at hshort ⊢
  rw [hbase, hzip] at hshort ⊢
  have hjobs : ∀ job ∈ request.entries.zip outputs,
      (Path.ofString job.1.name).isAbsolute = true ∧
        (request.begun work).IsTarget loc job.2 := by
    intro job hjob
    have hentry : job.1 ∈ request.entries := (List.of_mem_zip hjob).1
    exact ⟨hrooted.names job.1 hentry,
      (hrooted.outputs job.1 hentry job.2 (hfiles job hjob)).of_log rfl⟩
  have hstays := (outcomes_always reporting nesting turns request.eachOptions
    ((Workspace.pathOf loc).append (work.workspace.base request.base))
    ((request.entries.zip outputs).map (rooted loc)) (request.begun work)).2
  have hbegun : (request.begun work).workspace.IsCurrent loc := hat
  obtain ⟨houtcomes, hsame⟩ := outcomes_alike turns hbegun hrooted.reports hjobs hshort
  exact sameEnds_noted notes notes' hstays.log houtcomes hsame

/-! ### Anchored requests -/

/-- A request does below its base directory what it does below another one. It merges its entries with
the same result and the same work if its output is given by an absolute path, and with the same result
and the same workspace, but for what a failure tells, if its output lies in the current directory. It
has the same outcomes and leaves the same files if each entry is compiled on its own, in any turns,
and all are given by absolute names. -/
structure Request.IsAnchored (request : Request) (base' : Option String) (loc : Location)
    (reporting : Bool) (nesting : Nat) (work : Work (Record (List (Value × String)))) : Prop where
  merged : (Path.ofString request.output).isAbsolute = true →
    carryOut (merge (Source.loader reporting nesting) request) work
      = carryOut (merge (Source.loader reporting nesting) (request.under base')) work
  here : request.IsHere base' loc reporting nesting work →
    EndsAlike
      (carryOut (merge (Source.loader reporting nesting) (request.under base')) work)
      (carryOut (merge (Source.loader reporting nesting) request) work)
  each : ∀ turns, request.IsRooted base' loc reporting nesting turns work →
    SameEnds loc work.journal.log.locations
      (carryOut (compileEach (Source.sharedLoader reporting nesting) turns (request.under base')) work)
      (carryOut (compileEach (Source.sharedLoader reporting nesting) turns request) work)

/-- A request does below a relative base directory what it does below the absolute form of that, seen
from the current directory. -/
theorem isAnchored_of_isRootedBy {work : Work (Record (List (Value × String)))}
    (hat : work.workspace.IsCurrent loc) (h : request.IsRootedBy base' loc work.workspace) :
    request.IsAnchored base' loc reporting nesting work where
  merged houtput := (h.merge_of_isAbsolute hat.cwd houtput).symm
  here := h.merge_here hat
  each _ := h.compileEach_alike hat

/-- A project whose sources lie in a directory of their own. -/
def foldedProject : Work (Record (List (Value × String))) where
  workspace :=
    { files := ⟨[
        (["p"], .directory),
        (["p", "sub"], .directory),
        (["p", "sub", "main.js"], .file "import \"lib\";\nvar m;\n".toUTF8),
        (["p", "sub", "lib.js"], .file "export var l;\n".toUTF8)]⟩
      cwd := some ["p"]
      start := ⟨.root, ["p"]⟩ }
  memory := { memory := [] }

/-- A request for entries with absolute names. -/
def foldedRequest : Request where
  output := "out"
  entries := [⟨"/p/sub/lib.js", .module⟩, ⟨"/p/sub/main.js", .module⟩]
  options := none
  base := some "sub"

/-- A request with an output in the current directory. -/
def unfoldingRequest : Request where
  output := "../app.js"
  entries := [⟨"main.js", .module⟩]
  options := none
  base := some "sub"

theorem isAnchored_folded :
    foldedProject.workspace.IsCurrent ["p"] ∧
    foldedRequest.IsRootedBy (some "/p/sub") ["p"] foldedProject.workspace ∧
    foldedRequest.IsRooted (some "/p/sub") ["p"] false 8 [1, 0, 1, 1, 0] foldedProject ∧
    foldedRequest.IsAnchored (some "/p/sub") ["p"] false 8 foldedProject ∧
    unfoldingRequest.IsRootedBy (some "/p/sub") ["p"] foldedProject.workspace ∧
    unfoldingRequest.IsHere (some "/p/sub") ["p"] false 8 foldedProject ∧
    unfoldingRequest.IsAnchored (some "/p/sub") ["p"] false 8 foldedProject := by
  have hat : foldedProject.workspace.IsCurrent ["p"] := ⟨rfl, by decide +kernel, rfl⟩
  have hfolded : foldedRequest.IsRootedBy (some "/p/sub") ["p"] foldedProject.workspace := by
    unfold Request.IsRootedBy
    decide +kernel
  have hunfolding : unfoldingRequest.IsRootedBy (some "/p/sub") ["p"] foldedProject.workspace :=
    hfolded
  have hrooted : foldedRequest.IsRooted (some "/p/sub") ["p"] false 8 [1, 0, 1, 1, 0]
      foldedProject := by
    have hfiles : ∀ entry ∈ foldedRequest.entries,
        ∃ file, foldedRequest.fileOf foldedProject.workspace entry
            = .ok ⟨.relative, ["sub", "out", file]⟩ ∧ (file = "lib.js" ∨ file = "main.js") := by
      simp only [foldedRequest, List.forall_mem_cons]
      exact ⟨⟨"lib.js", by decide +kernel, .inl rfl⟩, ⟨"main.js", by decide +kernel, .inr rfl⟩, by simp⟩
    refine ⟨by decide +kernel, Or.inr rfl, fun entry hentry p hp => ?_, by decide +kernel⟩
    obtain ⟨file, hfile, hnames⟩ := hfiles entry hentry
    obtain rfl := Except.ok.inj (hfile.symm.trans hp)
    rcases hnames with rfl | rfl
    · exact ⟨by decide +kernel, Or.inr ⟨rfl, by decide +kernel, by decide +kernel⟩⟩
    · exact ⟨by decide +kernel, Or.inr ⟨rfl, by decide +kernel, by decide +kernel⟩⟩
  have hhere : unfoldingRequest.IsHere (some "/p/sub") ["p"] false 8
      foldedProject :=
    ⟨⟨"app.js", by decide, by decide +kernel, by decide +kernel⟩, rfl, Or.inr rfl,
      by decide +kernel⟩
  exact ⟨hat, hfolded, hrooted, isAnchored_of_isRootedBy hat hfolded, hunfolding, hhere,
    isAnchored_of_isRootedBy hat hunfolding⟩

/-- The name `lib` leads to the same file below `sub` and below `/p/sub`. -/
example : lastTexts (carryOut (compileEach (Source.sharedLoader false 8) [1, 0, 1, 1, 0] foldedRequest)
    foldedProject).1 = some ["// lib.js\nexport var l;", "// /p/sub/main.js\nimport \"lib\";\nvar m;"] := by
  decide +kernel

/-- A request for an entry below a base directory, with an output there. -/
def unfoldedRequest : Request where
  output := "out/app.js"
  entries := [⟨"lib.js", .module⟩]
  options := none
  base := some "sub"

/-- A request with relative paths need not do the same below a relative base directory: they are
joined to it first, and joined to it or read from another directory again. -/
theorem not_always_isAnchored :
    unfoldedRequest.IsRootedBy (some "/p/sub") ["p"] foldedProject.workspace ∧
    (carryOut (merge (Source.loader false 8) unfoldedRequest) foldedProject).1.toOption
      = none ∧
    (carryOut (merge (Source.loader false 8) (unfoldedRequest.under (some "/p/sub")))
      foldedProject).1.toOption.isSome = true ∧
    ((carryOut (compileEach (Source.sharedLoader false 8) [] unfoldedRequest)
      foldedProject).1.toOption.map (List.map fun outcome => outcome.result.toOption.isSome))
        = some [false] ∧
    ((carryOut (compileEach (Source.sharedLoader false 8) [] (unfoldedRequest.under (some "/p/sub")))
      foldedProject).1.toOption.map (List.map fun outcome => outcome.result.toOption.isSome))
        = some [true] := by
  refine ⟨?_, ?_, ?_, ?_, ?_⟩
  · unfold Request.IsRootedBy
    decide +kernel
  · decide +kernel
  · decide +kernel
  · decide +kernel
  · decide +kernel

end Bundler.Compile
