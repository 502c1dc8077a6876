import Bundler.CommandLine.Run
import Bundler.Proofs.EntryLoading
import Bundler.Proofs.Shell

/-!
# Failures of commands

A command prepares itself in stages and then does its work. A failure of the library or of the file
tree ends it in one of two ways: it is reported and the command exits with status one, or it leaves
the command. The second happens to failures of the file tree that come up where no one waits for
them: while the configuration is read, while the log is set up and, if files are listed, while the
directory of the project is made absolute.
-/

namespace Bundler.CommandLine

open Compile ShellM

/-! ### Preparations -/

/-- The parts of a command in which a failure can come up. -/
inductive Stage where
  /-- Reading the configuration. -/
  | configuration
  /-- Setting up the log. -/
  | log
  /-- Working out the options. -/
  | options
  /-- Making the directory of the project absolute. -/
  | directory
  /-- Loading and writing. -/
  | work
  deriving DecidableEq, Repr

/-- Whether a command waits for a failure at a stage. -/
def Command.catches (c : Command) (stage : Stage) (failure : Failure) : Bool :=
  match stage with
  | .configuration | .options => failure.isOwn
  | .log => false
  | .directory => c != .deps && isReported failure
  | .work => isReported failure

/-- A failure of the file tree comes up where a command does not wait for one. -/
def Command.Overlooks (c : Command) (stage : Stage) (failure : Failure) : Prop :=
  failure.isFile = true ∧ (stage = .configuration ∨ stage = .log ∨ c = .deps ∧ stage = .directory)

/-- The settings that the options of a command change. -/
def Command.overrides (c : Command) (target : String) (given : Given) :
    List (String × Option String) :=
  match c with
  | .bundle | .each => [("module_mode", given.modules), ("referrer", given.referrer)]
  | .deps => [("referrer", given.referrer), ("dependency_target", some target)]

/-- What has been prepared for the work of a command. -/
structure Prepared where
  options : Options
  base : Path
  shell : Shell

/-- The configuration of a project and the shell when its log has been set up. -/
def settingUp (project : Project) (verbose : Bool) (sh : Shell) :
    Except (Stage × Failure) (Config × Shell) :=
  match project.config sh.nodeNesting sh.workspace sh.vars with
  | .error failure => .error (.configuration, failure)
  | .ok config =>
    match Log.setUpFor config.data project.directory verbose sh.journal.log sh.workspace with
    | (.error failure, _, _) => .error (.log, failure)
    | (.ok (), log, workspace) =>
      .ok (config, { sh with journal := { sh.journal with log }, workspace })

/-- The preparations of a command, or the stage at which they fail. -/
def Command.prepare (c : Command) (target : String) (given : Given) (sh : Shell) :
    Except (Stage × Failure) Prepared :=
  let project := projectOf sh.workspace.start given
  match settingUp project given.verbose sh with
  | .error raised => .error raised
  | .ok (config, sh) =>
    match Project.optionsOf config ((c.overrides target given).map fun (key, value) =>
        (Scalar.text key, value.elim Value.null Value.text)) with
    | .error failure => .error (.options, failure)
    | .ok options =>
      match baseOf sh.workspace project with
      | .error error => .error (.directory, .file error)
      | .ok base => .ok ⟨options, base, sh⟩

lemma loadProject_of_settingUp {project : Project} {verbose : Bool} {sh sh' : Shell}
    {config : Config} (h : settingUp project verbose sh = .ok (config, sh')) :
    runOn (loadProject project verbose) sh = (.ok config, sh') := by
  unfold settingUp at h
  split at h
  · cases h
  · next hconfig =>
    split at h
    · cases h
    · next hlog =>
      cases h
      simp only [loadProject, runOn_bind, runOn_get, hconfig, runOn_orFail_ok, hlog, runOn_set,
        runOn_pure]

lemma loadProject_endsBy (c : Command) {project : Project} {verbose : Bool} {sh : Shell}
    {stage : Stage} {failure : Failure}
    (h : settingUp project verbose sh = .error (stage, failure)) :
    EndsBy (c.catches stage failure) failure (runOn (loadProject project verbose) sh) := by
  unfold settingUp at h
  split at h
  · next hconfig =>
    cases h
    unfold loadProject
    rw [runOn_bind_ok _ (runOn_get sh), hconfig]
    exact (orFail_endsBy _ _ _).bind _
  · next hconfig =>
    split at h
    · next hlog =>
      cases h
      simp only [loadProject, runOn_bind, runOn_get, hconfig, runOn_orFail_ok, hlog, runOn_set,
        runOn_throw]
      rfl
    · cases h

/-- A command with its preparations in front of its work. -/
def prepared (project : Project) (verbose : Bool) (overrides : List (String × Option String))
    (isCaught : Failure → Bool) (work : Workspace → Options → Path → ShellM Unit) :
    ShellM Unit := do
  let config ← loadProject project verbose
  let options ← optionsOf config overrides
  let sh ← get
  let base ← orFail isCaught ((baseOf sh.workspace project).mapError .file)
  work sh.workspace options base

/-- Where the preparations succeed, the work begins. -/
lemma runOn_prepared_ok {c : Command} {target : String} {given : Given} {sh : Shell} {p : Prepared}
    (isCaught : Failure → Bool) (work : Workspace → Options → Path → ShellM Unit)
    (h : c.prepare target given sh = .ok p) :
    runOn (prepared (projectOf sh.workspace.start given) given.verbose (c.overrides target given)
      isCaught work) sh = runOn (work p.shell.workspace p.options p.base) p.shell := by
  unfold Command.prepare at h
  dsimp only at h
  split at h
  · cases h
  · next hsettings =>
    split at h
    · cases h
    · next hoptions =>
      split at h
      · cases h
      · next hbase =>
        cases h
        unfold prepared optionsOf
        rw [runOn_bind_ok _ (loadProject_of_settingUp hsettings), hoptions,
          runOn_bind_ok _ (runOn_orFail_ok _ _ _), runOn_bind_ok _ (runOn_get _), hbase]
        exact runOn_bind_ok _ (runOn_orFail_ok _ _ _)

/-- Where they fail, the command ends as it does for a failure at that stage. -/
lemma prepared_endsBy {c : Command} {target : String} {given : Given} {sh : Shell} {stage : Stage}
    {failure : Failure} (isCaught : Failure → Bool)
    (work : Workspace → Options → Path → ShellM Unit)
    (hcaught : ∀ failure, isCaught failure = c.catches .directory failure)
    (h : c.prepare target given sh = .error (stage, failure)) :
    EndsBy (c.catches stage failure) failure
      (runOn (prepared (projectOf sh.workspace.start given) given.verbose
        (c.overrides target given) isCaught work) sh) := by
  unfold Command.prepare at h
  dsimp only at h
  unfold prepared optionsOf
  split at h
  · next hsettings =>
    cases h
    exact (loadProject_endsBy c hsettings).bind _
  · next hsettings =>
    rw [runOn_bind_ok _ (loadProject_of_settingUp hsettings)]
    split at h
    · next hoptions =>
      cases h
      rw [hoptions]
      exact (orFail_endsBy _ _ _).bind _
    · next hoptions =>
      rw [hoptions, runOn_bind_ok _ (runOn_orFail_ok _ _ _), runOn_bind_ok _ (runOn_get _)]
      split at h
      · next hbase =>
        cases h
        rw [hbase, ← hcaught]
        exact (orFail_endsBy _ _ _).bind _
      · cases h

/-! ### Work -/

/-- The work of a command that has been prepared; if entries are compiled each on its own, it gives
their outcomes. -/
def Command.work (c : Command) (target : String) (entries : List String) (p : Prepared) :
    Except Failure (List Outcome) :=
  let request := requestOf target entries p.options p.base
  let begun : Work (Record (List (Value × String))) :=
    ⟨p.shell.workspace, freshRecord, p.shell.journal⟩
  let nesting := p.shell.loadNesting
  match c with
  | .bundle =>
    (WorkM.carryOut (merge (Load.Source.loader false nesting) request) begun).1.map fun _ => []
  | .each => (WorkM.carryOut
      (compileEach (Load.Source.sharedLoader false nesting) p.shell.turns request) begun).1
  | .deps =>
    match Entry.resolveAll p.shell.workspace p.base none (entries.map Entry.parse) with
    | .error error => .error (.file error)
    | .ok resolved => (compileEntries (Load.Source.loader true nesting)
        (p.shell.journal.view p.shell.workspace) resolved p.options p.base []).1.map fun _ => []

/-- The failure that comes up in a command first, and the stage at which it does. -/
def Command.raised? (c : Command) (target : String) (entries : List String) (given : Given)
    (sh : Shell) : Option (Stage × Failure) :=
  match c.prepare target given sh with
  | .error raised => some raised
  | .ok p => match c.work target entries p with
    | .error failure => some (.work, failure)
    | .ok _ => none

variable {σ α : Type} {target : String} {entries : List String} {p : Prepared} {sh : Shell}
  {failure : Failure}

lemma runOn_compile (memory : σ) (act : WorkM σ α) (sh : Shell) :
    runOn (compile memory act) sh
      = let x := WorkM.carryOut act ⟨sh.workspace, memory, sh.journal⟩
        runOn (orFail isReported x.1) { sh with
          workspace := x.2.workspace, journal := x.2.journal } := rfl

/-- A compilation that fails ends the work by its failure. -/
lemma compile_endsBy {memory : σ} {act : WorkM σ α}
    (h : (WorkM.carryOut act ⟨sh.workspace, memory, sh.journal⟩).1 = .error failure) :
    EndsBy (isReported failure) failure (runOn (compile memory act) sh) := by
  rw [runOn_compile]
  dsimp only
  rw [h]
  exact orFail_endsBy _ _ _

/-- The line that tells of an entry that failed. -/
def failedLine (entry : Entry) (failure : Failure) : String :=
  "failed " ++ entry.name ++ ": " ++ failure.message

lemma runOn_report (outcome : Outcome) (sh : Shell) :
    ∃ sh' told, runOn (report outcome) sh = (.ok (), sh') ∧
      sh'.journal.errors = sh.journal.errors ++ told ∧
      ∀ failure, outcome.result = .error failure →
        told = printed (failedLine outcome.entry failure) := by
  unfold report
  cases hresult : outcome.result with
  | ok answer => exact ⟨_, "", runOn_say _ _, by simp, nofun⟩
  | error failure =>
    refine ⟨_, _, runOn_complain _ _, rfl, ?_⟩
    intro failure' hfailure
    cases hfailure
    rfl

/-- Each outcome that failed is told of, and nothing that was told before is lost. -/
lemma runOn_reports (outcomes : List Outcome) (sh : Shell) :
    ∃ sh' told, runOn (outcomes.forM report) sh = (.ok (), sh') ∧
      sh'.journal.errors = sh.journal.errors ++ told ∧
      ∀ outcome ∈ outcomes, ∀ failure, outcome.result = .error failure →
        sh'.HasTold (failedLine outcome.entry failure) := by
  induction outcomes generalizing sh with
  | nil => exact ⟨sh, "", rfl, by simp, by simp⟩
  | cons outcome outcomes ih =>
    obtain ⟨mid, told, hfirst, herrors, hline⟩ := runOn_report outcome sh
    obtain ⟨sh', told', hrest, herrors', hlines⟩ := ih mid
    refine ⟨sh', told ++ told', ?_, ?_, List.forall_mem_cons.mpr ⟨?_, hlines⟩⟩
    · exact (runOn_bind_ok _ hfirst).trans hrest
    · rw [herrors', herrors, String.append_assoc]
    · intro failure hfailure
      refine ⟨sh.journal.errors, told', ?_⟩
      rw [herrors', herrors, hline failure hfailure]

/-! ### Commands -/

/-- How a command ends whose work failed, and how if it did not. -/
structure Command.Ends (c : Command) (target : String) (entries : List String) (p : Prepared)
    (x : Except Stop Unit × Shell) : Prop where
  failed : ∀ failure, c.work target entries p = .error failure →
    EndsBy (isReported failure) failure x
  done : ∀ outcomes, c.work target entries p = .ok outcomes →
    x.1 = (if outcomes.all succeeded then .ok () else .error (.exit 1)) ∧
      ∀ outcome ∈ outcomes, ∀ failure, outcome.result = .error failure →
        x.2.HasTold (failedLine outcome.entry failure)

/-- What a command does once it has been prepared. -/
def Command.act (c : Command) (target : String) (entries : List String) (w : Workspace)
    (options : Options) (base : Path) : ShellM Unit := do
  let request := requestOf target entries options base
  match c with
  | .bundle =>
    let loader := Load.Source.loader false (← get).loadNesting
    let tree ← compile freshRecord (merge loader request)
    if let some tree := tree then
      say ("Wrote " ++ request.output ++ " (" ++ toString tree.length ++ " elements)")
  | .each =>
    let sh ← get
    let loader := Load.Source.sharedLoader false sh.loadNesting
    let outcomes ← compile freshRecord (compileEach loader sh.turns request)
    outcomes.forM report
    unless outcomes.all succeeded do throw (.exit 1)
  | .deps =>
    let resolved ← orFail isReported
      ((Entry.resolveAll w base none (entries.map Entry.parse)).mapError .file)
    let sh ← get
    let (result, run) := compileEntries (Load.Source.loader true sh.loadNesting)
      (sh.journal.view w) resolved options base []
    run.memory.forM fun (target, path) => say (target.shown ++ ": " ++ path)
    publish run.notes
    discard <| orFail isReported result

/-- Every command is its preparations and then its work. -/
lemma runCommand_eq (c : Command) (target : String) (entries : List String) (given : Given)
    (sh : Shell) : runOn (runCommand c target entries given) sh
      = runOn (prepared (projectOf sh.workspace.start given) given.verbose
          (c.overrides target given) (c.catches .directory) (c.act target entries)) sh := by
  unfold runCommand
  rw [runOn_bind_ok _ (runOn_get sh)]
  cases c with
  | bundle =>
    have hcaught : Command.catches .bundle .directory = isReported := rfl
    rw [hcaught]
    rfl
  | each =>
    have hcaught : Command.catches .each .directory = isReported := rfl
    rw [hcaught]
    rfl
  | deps =>
    have hcaught : Command.catches .deps .directory = fun _ => false := rfl
    rw [hcaught]
    rfl

/-- A compilation that succeeds gives its result and leaves a shell. -/
lemma exists_runOn_compile {memory : σ} {act : WorkM σ α} {a : α}
    (h : (WorkM.carryOut act ⟨sh.workspace, memory, sh.journal⟩).1 = .ok a) :
    ∃ sh', runOn (compile memory act) sh = (.ok a, sh') := by
  rw [runOn_compile]
  dsimp only
  rw [h]
  exact ⟨_, runOn_orFail_ok _ _ _⟩

lemma bundle_ends (target : String) (entries : List String) (p : Prepared) :
    Command.Ends .bundle target entries p
      (runOn (Command.act .bundle target entries p.shell.workspace p.options p.base) p.shell) := by
  unfold Command.act
  dsimp only
  rw [runOn_bind_ok _ (runOn_get _)]
  constructor
  · intro failure hfailure
    refine EndsBy.bind _ (compile_endsBy ?_)
    unfold Command.work at hfailure
    dsimp only at hfailure
    revert hfailure
    rcases (WorkM.carryOut _ _).1 with _ | _ <;> intro hfailure <;> cases hfailure
    rfl
  · intro outcomes houtcomes
    unfold Command.work at houtcomes
    dsimp only at houtcomes
    cases hresult : (WorkM.carryOut (merge (Load.Source.loader false p.shell.loadNesting)
        (requestOf target entries p.options p.base)) ⟨p.shell.workspace, freshRecord, p.shell.journal⟩).1 with
    | error failure =>
      rw [hresult] at houtcomes
      cases houtcomes
    | ok tree =>
      rw [hresult] at houtcomes
      cases houtcomes
      obtain ⟨sh', hcompiled⟩ := exists_runOn_compile hresult
      rw [runOn_bind_ok _ hcompiled]
      cases tree <;> exact ⟨rfl, by simp⟩

lemma each_ends (target : String) (entries : List String) (p : Prepared) :
    Command.Ends .each target entries p
      (runOn (Command.act .each target entries p.shell.workspace p.options p.base) p.shell) := by
  unfold Command.act
  dsimp only
  rw [runOn_bind_ok _ (runOn_get _)]
  constructor
  · intro failure hfailure
    exact EndsBy.bind _ (compile_endsBy hfailure)
  · intro outcomes houtcomes
    obtain ⟨mid, hcompiled⟩ := exists_runOn_compile houtcomes
    obtain ⟨sh', told, hreports, -, hlines⟩ := runOn_reports outcomes mid
    rw [runOn_bind_ok _ hcompiled, runOn_bind_ok _ hreports]
    cases outcomes.all succeeded with
    | true => exact ⟨rfl, hlines⟩
    | false => exact ⟨rfl, hlines⟩

/-- Lines that are printed stop nothing. -/
lemma exists_runOn_says (lines : List (Value × String)) (sh : Shell) :
    ∃ sh', runOn (lines.forM fun (target, path) => say (target.shown ++ ": " ++ path)) sh
        = (.ok (), sh') := by
  induction lines generalizing sh with
  | nil => exact ⟨sh, rfl⟩
  | cons line lines ih =>
    obtain ⟨sh', hrest⟩ := ih { sh with
      output := sh.output ++ printed (line.1.shown ++ ": " ++ line.2) }
    exact ⟨sh', (runOn_bind_ok _ (runOn_say _ _)).trans hrest⟩

/-- The end of a list of files: its result is reported if it is a failure. -/
lemma runOn_listed (lines : List (Value × String)) (notes : List Note)
    (result : Except Failure (Option Tree)) (sh : Shell) :
    ∃ sh', runOn (do
        lines.forM fun (target, path) => say (target.shown ++ ": " ++ path)
        publish notes
        discard <| orFail isReported result) sh
      = runOn (discard <| orFail isReported result) sh' := by
  obtain ⟨sh', hsaid⟩ := exists_runOn_says lines sh
  exact ⟨_, runOn_bind_ok _ hsaid⟩

lemma deps_ends (target : String) (entries : List String) (p : Prepared) :
    Command.Ends .deps target entries p
      (runOn (Command.act .deps target entries p.shell.workspace p.options p.base) p.shell) := by
  have hresolved : Entry.resolveAll p.shell.workspace p.base none (entries.map Entry.parse)
      = .ok ((entries.map Entry.parse).map (Entry.resolve p.base)) := rfl
  unfold Command.act
  dsimp only
  rw [hresolved]
  dsimp only [Except.mapError]
  rw [runOn_bind_ok _ (runOn_orFail_ok _ _ _), runOn_bind_ok _ (runOn_get _)]
  have hwork : Command.work .deps target entries p = (compileEntries
      (Load.Source.loader true p.shell.loadNesting) (p.shell.journal.view p.shell.workspace)
      ((entries.map Entry.parse).map (Entry.resolve p.base)) p.options p.base []).1.map
        fun _ => [] := by
    unfold Command.work
    dsimp only
    rw [hresolved]
  generalize compileEntries _ _ _ _ _ _ = x at hwork ⊢
  obtain ⟨result, run⟩ := x
  obtain ⟨sh', hlisted⟩ := runOn_listed run.memory run.notes result p.shell
  dsimp only at hwork hlisted ⊢
  rw [hlisted]
  constructor <;> rw [hwork] <;> cases result
  · rintro _ ⟨⟩
    exact (orFail_endsBy _ _ _).bind _
  · nofun
  · nofun
  · rintro _ ⟨⟩
    exact ⟨rfl, by simp⟩

/-- Whatever the command, it ends as its work does. -/
lemma act_ends (c : Command) (target : String) (entries : List String) (p : Prepared) :
    c.Ends target entries p
      (runOn (c.act target entries p.shell.workspace p.options p.base) p.shell) :=
  match c with
  | .bundle => bundle_ends target entries p
  | .each => each_ends target entries p
  | .deps => deps_ends target entries p

/-! ### Which failures come up where -/

/-- The failure of a path is none of the library's own. -/
lemma isOwn_ofPathFault (fault : PathFault) : (Failure.ofPathFault fault).isOwn = false := by
  cases fault <;> rfl

lemma isOwn_pathOf {setting : Value} {failure : Failure}
    (h : Log.pathOf setting = .error failure) : failure.isOwn = false := by
  unfold Log.pathOf at h
  split at h <;> cases h
  rfl

lemma isOwn_openFile {w : Workspace} {path : Path} {mode : Value}
    (h : Log.openFile w path mode = .error failure) : failure.isOwn = false := by
  unfold Log.openFile at h
  cases habsolute : w.absolute path with
  | error error =>
    rw [habsolute] at h
    cases h
    rfl
  | ok absolute =>
    rw [habsolute] at h
    cases hmode : Log.OpenMode.ofValue mode with
    | error fault =>
      simp only [hmode, Except.mapError, bind, Except.bind] at h
      cases h
      unfold Log.OpenMode.ofValue at hmode
      split at hmode
      · revert hmode
        rcases Log.OpenMode.ofText _ with _ | _ <;> intro hmode <;> cases hmode
        rfl
      · cases hmode
        rfl
    | ok mode =>
      simp only [hmode, Except.mapError, bind, Except.bind] at h
      split at h <;> cases h
      exact isOwn_ofPathFault _

lemma isOwn_consoleHandler {settings : Log.Settings}
    (h : Log.consoleHandler settings = .error failure) : failure.isOwn = false := by
  unfold Log.consoleHandler at h
  dsimp only at h
  split at h
  · cases h
  · split at h
    · cases h
    · split at h
      · cases h
      · split at h <;> cases h <;> rfl

lemma isOwn_fileHandler {settings : Log.Settings} {w : Workspace}
    (h : (Log.fileHandler settings w).1 = .error failure) : failure.isOwn = false := by
  unfold Log.fileHandler at h
  split at h
  · cases h
  · split at h
    · next hpath =>
      cases h
      exact isOwn_pathOf hpath
    · split at h
      · cases h
        exact isOwn_ofPathFault _
      · split at h
        · next hopen =>
          cases h
          exact isOwn_openFile hopen
        · cases h

lemma isOwn_settingsOf {config : Value} {directory : Option Path} {verbose : Bool}
    (h : Log.settingsOf config directory verbose = .error failure) : failure.isOwn = false := by
  unfold Log.settingsOf at h
  cases hsection : Log.sectionOf config with
  | error fault =>
    rw [hsection] at h
    cases h
    unfold Log.sectionOf at hsection
    split at hsection
    · split at hsection
      · cases hsection
      · split at hsection <;> cases hsection
        rfl
    · cases hsection
      rfl
  | ok settings =>
    rw [hsection] at h
    dsimp only [bind, Except.bind] at h
    split at h
    · next hfile =>
      cases h
      unfold Log.fileIn at hfile
      split at hfile
      · cases hfile
      · split at hfile
        · cases hfile
        · cases hpath : Log.pathOf (Mapping.getD settings "file") with
          | error fault =>
            rw [hpath] at hfile
            cases hfile
            exact isOwn_pathOf hpath
          | ok path =>
            rw [hpath] at hfile
            cases hfile
    · cases h

/-- The log is set up without failures of the library. -/
lemma isOwn_setUpFor {config : Value} {directory : Option Path} {verbose : Bool} {log : Log}
    {w : Workspace} (h : (Log.setUpFor config directory verbose log w).1 = .error failure) :
    failure.isOwn = false := by
  unfold Log.setUpFor at h
  split at h
  · next hsettings =>
    cases h
    exact isOwn_settingsOf hsettings
  · unfold Log.setUp at h
    dsimp only at h
    split at h
    · next hconsole =>
      cases h
      exact isOwn_consoleHandler hconsole
    · split at h
      · next hfile =>
        cases h
        exact isOwn_fileHandler (congrArg Prod.fst hfile)
      · cases h

lemma isFile_describe {v : Value} (h : v.describe = .error failure) : failure.isFile = false := by
  unfold Value.describe at h
  split at h <;> cases h
  rfl

lemma isFile_ofValue {v : Value} (h : ModuleMode.ofValue v = .error failure) :
    failure.isFile = false := by
  unfold ModuleMode.ofValue at h
  split at h
  · cases h
  · split at h <;> cases h
    rfl
  · cases hdescribe : v.describe with
    | error fault =>
      rw [hdescribe] at h
      cases h
      exact isFile_describe hdescribe
    | ok text =>
      rw [hdescribe] at h
      cases h
      rfl

/-- Options are worked out without the file tree. -/
lemma isFile_optionsOf {config : Config} {overrides : Mapping}
    (h : Project.optionsOf config overrides = .error failure) : failure.isFile = false := by
  unfold Project.optionsOf Options.ofArguments at h
  split at h
  · unfold Options.ofMapping Options.ofSettings at h
    generalize Settings.collect _ _ = settings at h
    cases hmode : ModuleMode.ofValue settings.moduleMode with
    | error fault =>
      rw [hmode] at h
      cases h
      exact isFile_ofValue hmode
    | ok mode =>
      rw [hmode] at h
      cases h
  · cases h
    rfl

/-- The stages at which preparations fail, and of what kind the failures are. -/
lemma Command.prepare_error {c : Command} {given : Given} {stage : Stage}
    (h : c.prepare target given sh = .error (stage, failure)) :
    stage = .configuration ∨ stage = .log ∧ failure.isOwn = false ∨
      stage = .options ∧ failure.isFile = false ∨ stage = .directory ∧ failure.isFile = true := by
  unfold Command.prepare at h
  dsimp only at h
  split at h
  · next hsettings =>
    cases h
    unfold settingUp at hsettings
    split at hsettings
    · cases hsettings
      exact Or.inl rfl
    · split at hsettings
      · next hlog =>
        cases hsettings
        exact Or.inr (Or.inl ⟨rfl, isOwn_setUpFor (congrArg Prod.fst hlog)⟩)
      · cases hsettings
  · split at h
    · next hoptions =>
      cases h
      exact Or.inr (Or.inr (Or.inl ⟨rfl, isFile_optionsOf hoptions⟩))
    · split at h
      · cases h
        exact Or.inr (Or.inr (Or.inr ⟨rfl, rfl⟩))
      · cases h

/-! ### How commands end -/

/-- How a command ends in which a failure comes up. -/
lemma runCommand_endsBy {c : Command} {given : Given} {stage : Stage}
    (h : c.raised? target entries given sh = some (stage, failure)) :
    EndsBy (c.catches stage failure) failure
      (runOn (runCommand c target entries given) sh) := by
  rw [runCommand_eq]
  unfold Command.raised? at h
  split at h
  · next hprepare =>
    cases h
    exact prepared_endsBy _ _ (fun _ => rfl) hprepare
  · next p hprepare =>
    rw [runOn_prepared_ok _ _ hprepare]
    split at h
    · next hwork =>
      cases h
      exact (act_ends c target entries p).failed _ hwork
    · cases h

/-- How a command ends whose work is done. -/
lemma runCommand_done (c : Command) (target : String) (entries : List String) (given : Given)
    (sh : Shell) (p : Prepared) (outcomes : List Outcome)
    (hprepare : c.prepare target given sh = .ok p) (hwork : c.work target entries p = .ok outcomes) :
    (runOn (runCommand c target entries given) sh).1
        = (if outcomes.all succeeded then .ok () else .error (.exit 1)) ∧
      ∀ outcome ∈ outcomes, ∀ failure, outcome.result = .error failure →
        (runOn (runCommand c target entries given) sh).2.HasTold
          (failedLine outcome.entry failure) := by
  rw [runCommand_eq, runOn_prepared_ok _ _ hprepare]
  exact (act_ends c target entries p).done outcomes hwork

lemma exists_of_raised?_eq_none {c : Command} {given : Given}
    (h : c.raised? target entries given sh = none) :
    ∃ p outcomes, c.prepare target given sh = .ok p ∧ c.work target entries p = .ok outcomes := by
  unfold Command.raised? at h
  split at h
  · cases h
  · next p hprepare =>
    split at h
    · cases h
    · next outcomes hwork => exact ⟨p, outcomes, hprepare, hwork⟩

/-- No failure is both of the library and of the file tree. -/
lemma isFile_eq_of_kind (hkind : failure.isOwn = true ∨ failure.isFile = true) :
    failure.isOwn = true ∧ failure.isFile = false ∨
      failure.isOwn = false ∧ failure.isFile = true := by
  cases failure <;> simp_all [Failure.isOwn, Failure.isFile]

/-- A command waits for every failure of the library or the file tree but those that it
overlooks. -/
lemma catches_iff {c : Command} {given : Given} {stage : Stage}
    (h : c.raised? target entries given sh = some (stage, failure))
    (hkind : failure.isOwn = true ∨ failure.isFile = true) :
    c.catches stage failure = true ↔ ¬ c.Overlooks stage failure := by
  have hboth := isFile_eq_of_kind hkind
  unfold Command.raised? at h
  split at h
  · next hprepare =>
    cases h
    rcases Command.prepare_error hprepare with rfl | ⟨rfl, hown⟩ | ⟨rfl, hfile⟩ | ⟨rfl, hfile⟩
    · rcases hboth with ⟨hown, hfile⟩ | ⟨hown, hfile⟩ <;>
        simp [Command.catches, Command.Overlooks, hown, hfile]
    · have hfile : failure.isFile = true := by simpa [hown] using hkind
      simp [Command.catches, Command.Overlooks, hfile]
    · have hown : failure.isOwn = true := by simpa [hfile] using hkind
      simp [Command.catches, Command.Overlooks, hown, hfile]
    · simp [Command.catches, Command.Overlooks, isReported, hfile]
  · split at h
    · cases h
      rcases hkind with hkind | hkind <;>
        simp [Command.catches, Command.Overlooks, isReported, hkind]
    · cases h

/-- A failure that has left a command came up where the command does not wait for it. -/
lemma exists_of_escape {c : Command} {given : Given}
    (hstop : (runOn (runCommand c target entries given) sh).1 = .error (.escape failure)) :
    ∃ stage, c.raised? target entries given sh = some (stage, failure) ∧
      c.catches stage failure = false := by
  cases h : c.raised? target entries given sh with
  | none =>
    obtain ⟨p, outcomes, hprepare, hwork⟩ := exists_of_raised?_eq_none h
    obtain ⟨hresult, -⟩ := runCommand_done c target entries given sh p outcomes hprepare hwork
    rw [hstop] at hresult
    split at hresult <;> cases hresult
  | some raised =>
    obtain ⟨stage, failure'⟩ := raised
    have hends := runCommand_endsBy h
    cases hcaught : c.catches stage failure' with
    | true =>
      rw [hcaught] at hends
      cases hstop.symm.trans hends.1
    | false =>
      rw [hcaught] at hends
      cases hstop.symm.trans hends
      exact ⟨stage, rfl, hcaught⟩

/-- What holds when a command has ended. A failure of the library or the file tree that comes up in
it is reported, with an exit of status one, unless the command overlooks it: then it leaves the
command, and no other does. Entries that failed on their own are told of, with the same status. -/
structure Command.Contains (c : Command) (target : String) (entries : List String) (given : Given)
    (sh : Shell) (stop : Option Stop) (after : Shell) : Prop where
  reported : ∀ stage failure, c.raised? target entries given sh = some (stage, failure) →
    failure.isOwn = true ∨ failure.isFile = true → ¬ c.Overlooks stage failure →
    stop = some (.exit 1) ∧ after.EndsWith ("Error: " ++ failure.message)
  overlooked : ∀ stage failure, c.raised? target entries given sh = some (stage, failure) →
    c.Overlooks stage failure → stop = some (.escape failure)
  escaped : ∀ failure, stop = some (.escape failure) →
    failure.isOwn = true ∨ failure.isFile = true →
    ∃ stage, c.raised? target entries given sh = some (stage, failure) ∧ c.Overlooks stage failure
  outcomes : ∀ p outcomes, c.prepare target given sh = .ok p → c.work target entries p = .ok outcomes →
    stop = (if outcomes.all succeeded then none else some (.exit 1)) ∧
      ∀ outcome ∈ outcomes, ∀ failure, outcome.result = .error failure →
        after.HasTold (failedLine outcome.entry failure)

/-- A command contains the failures that come up in it, but for those that it overlooks. -/
theorem respond_contains {args : List String} {c : Command} {given : Given}
    (hargs : readArguments args = .ok (.run c target entries given)) (sh : Shell) :
    c.Contains target entries given sh (execute (respond args) sh).1
      (execute (respond args) sh).2 := by
  have hrespond : respond args = runCommand c target entries given := by
    unfold respond
    rw [hargs]
    rfl
  have hends : ∀ stage failure, c.raised? target entries given sh = some (stage, failure) →
      EndsBy (c.catches stage failure) failure (runOn (runCommand c target entries given) sh) :=
    fun _ _ => runCommand_endsBy
  have hescape : ∀ failure, (runOn (runCommand c target entries given) sh).1
      = .error (.escape failure) → ∃ stage, c.raised? target entries given sh
        = some (stage, failure) ∧ c.catches stage failure = false := fun _ => exists_of_escape
  have hdone := runCommand_done c target entries given sh
  rw [hrespond, execute_eq]
  generalize runOn (runCommand c target entries given) sh = x at hends hescape hdone
  obtain ⟨result, after⟩ := x
  constructor
  · intro stage failure h hkind hoverlooks
    have hend := hends stage failure h
    rw [(catches_iff h hkind).mpr hoverlooks] at hend
    obtain ⟨rfl, hline⟩ := hend
    exact ⟨rfl, hline⟩
  · intro stage failure h hoverlooks
    have hcaught : c.catches stage failure = false := by
      have hiff := catches_iff h (Or.inr hoverlooks.1)
      simpa using fun hcaught => hiff.mp hcaught hoverlooks
    have hend := hends stage failure h
    rw [hcaught] at hend
    obtain rfl : result = .error (.escape failure) := hend
    rfl
  · intro failure hstop hkind
    obtain rfl : result = .error (.escape failure) := by
      cases result <;> cases hstop
      rfl
    obtain ⟨stage, h, hcaught⟩ := hescape failure rfl
    refine ⟨stage, h, ?_⟩
    by_contra hoverlooks
    rw [(catches_iff h hkind).mpr hoverlooks] at hcaught
    cases hcaught
  · intro p outcomes hprepare hwork
    obtain ⟨hresult, hlines⟩ := hdone p outcomes hprepare hwork
    dsimp only at hresult
    split at hresult
    · next hall =>
      subst hresult
      exact ⟨(if_pos hall).symm, hlines⟩
    · next hall =>
      subst hresult
      exact ⟨(if_neg hall).symm, hlines⟩

/-- A shell in a directory with one source and a configuration in which the log file would lie below
that source. -/
def blockedShell : Shell where
  workspace :=
    { files := ⟨[
        (["main.js"], .file "var a;\n".toUTF8),
        (["modcompile.yaml"], .file "logging:\n  file: main.js/log.txt\n".toUTF8)]⟩
      cwd := some []
      start := ⟨.root, []⟩ }
  vars := []
  nodeNesting := 8
  loadNesting := 8

theorem contains_blocked :
    readArguments ["bundle", "out/app.js", "main.js"]
      = .ok (.run .bundle "out/app.js" ["main.js"] {}) ∧
    Command.Contains .bundle "out/app.js" ["main.js"] {} blockedShell
      (execute (respond ["bundle", "out/app.js", "main.js"]) blockedShell).1
      (execute (respond ["bundle", "out/app.js", "main.js"]) blockedShell).2 := by
  have hargs : readArguments ["bundle", "out/app.js", "main.js"]
      = .ok (.run .bundle "out/app.js" ["main.js"] {}) := eq_ok_of_toOption (by decide +kernel)
  exact ⟨hargs, respond_contains hargs blockedShell⟩

/-- The failure of the file tree that has left a command. -/
def escapedError? : Option Stop → Option FileError
  | some (.escape (.file error)) => some error
  | _ => none

lemma eq_of_escapedError? {stop : Option Stop} {error : FileError}
    (h : escapedError? stop = some error) : stop = some (.escape (.file error)) := by
  unfold escapedError? at h
  split at h <;> cases h
  rfl

/-- A failure of the file tree may leave the command, and nothing is told of it. -/
theorem not_always_contained :
    (execute (respond ["bundle", "out/app.js", "main.js"]) blockedShell).1
        = some (.escape (.file ⟨.exists, some "/main.js"⟩)) ∧
      (execute (respond ["bundle", "out/app.js", "main.js"]) blockedShell).2.journal.errors
        = "" :=
  ⟨eq_of_escapedError? (by decide +kernel), by decide +kernel⟩

end Bundler.CommandLine
