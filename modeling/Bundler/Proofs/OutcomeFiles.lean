import Bundler.Proofs.OutputPlaces
import Bundler.Proofs.OwnFiles

/-!
# Outcomes and their files

Entries that are compiled at the same time, each into a file of its own, have one outcome each, in
order, whatever becomes of the others and in whatever turns they take their steps. The files that
differ in the end are those of outcomes with a tree, and each holds what those outcomes wrote there,
which is the whole text if they wrote the same. Nothing is asked of the entries: their files may
coincide, be sources of others or stand in the way of each other.
-/

namespace Bundler

/-! ### Where entries are written -/

namespace Entry

variable {base output : Path}

/-- The file of an entry lies below the output directory. -/
lemma exists_outputPath (w : Workspace) (hbase : base.isAbsolute = true)
    (houtput : output.isAbsolute = true) (hplain : ".." ∉ output.segments) (name : String) :
    ∃ p, outputPath w base output name = .ok p ∧ p.isAbsolute = true ∧ ".." ∉ p.segments ∧
      output.segments <+: p.segments := by
  obtain ⟨segments, hplaced, hbelow⟩ := exists_isBelow w hbase name
  refine ⟨{ output with segments := output.segments ++ segments }, ?_, houtput, ?_,
    List.prefix_append _ _⟩
  · rw [outputPath, hplaced]
    rfl
  · rw [List.mem_append, not_or]
    exact ⟨hplain, hbelow.down⟩

end Entry

namespace Compile

open Load Load.Source WorkM Workspace

variable {σ : Type} {loader : SharedLoader σ} {options : Options} {base : Path} {turns : List Nat}
  {jobs : List (Entry × Path)} {loc : Location}

/-! ### Outcomes -/

/-- An outcome tells how the task of its entry ended. -/
lemma getElem?_outcomes {work : Work (Record σ)} {k : Nat} {outcome : Outcome} :
    (outcomes loader turns options base jobs work).1[k]? = some outcome ↔
      jobs[k]? = some (outcome.entry, outcome.output) ∧
      (Steps.together turns (jobs.map fun job => compiling loader options base job.1 job.2)
        work).1[k]? = some outcome.result := by
  unfold outcomes
  dsimp only
  rw [List.getElem?_zipWith_eq_some]
  constructor
  · rintro ⟨job, result, hjob, hresult, rfl⟩
    exact ⟨hjob, hresult⟩
  · rintro ⟨hjob, hresult⟩
    exact ⟨_, _, hjob, hresult, rfl⟩

/-- There is one outcome for each entry. -/
lemma outcomes_jobs (loader : SharedLoader σ) (turns : List Nat) (options : Options) (base : Path)
    (jobs : List (Entry × Path)) (work : Work (Record σ)) :
    (outcomes loader turns options base jobs work).1.map (fun o => (o.entry, o.output)) = jobs := by
  have hlength := Steps.length_together turns
    (jobs.map fun job => compiling loader options base job.1 job.2) work
  rw [List.length_map] at hlength
  unfold outcomes
  dsimp only
  rw [List.map_zipWith]
  exact (List.map_zip_eq_zipWith (f := Prod.fst)).symm.trans
    (List.map_fst_zip (Nat.le_of_eq hlength.symm))

/-- The outcome of an entry is at its place. -/
lemma exists_outcome (loader : SharedLoader σ) (turns : List Nat) (options : Options) (base : Path)
    (jobs : List (Entry × Path)) (work : Work (Record σ)) {k : Nat} (hk : k < jobs.length) :
    ∃ outcome, (outcomes loader turns options base jobs work).1[k]? = some outcome := by
  have hlength := congrArg List.length (outcomes_jobs loader turns options base jobs work)
  rw [List.length_map] at hlength
  exact ⟨_, List.getElem?_eq_getElem (hlength ▸ hk)⟩

/-- The outcome is a tree that was written to the location. -/
def Outcome.Writes (outcome : Outcome) (loc : Location) (tree : Tree) : Prop :=
  outcome.result = .ok (some tree) ∧ outcome.output.segments = loc

/-- The file at the location was opened, but the text has no encoding. -/
def Outcome.Empties (outcome : Outcome) (loc : Location) : Prop :=
  (∃ fault, outcome.result = .error (.unencodable fault)) ∧ outcome.output.segments = loc

/-- What has become of the file at a location: it is as it was if no outcome opened it, and else
holds pieces that outcomes wrote there, each over the start of those before. -/
def Settled (outcomes : List Outcome) (loc : Location) (before after : Option ByteArray) : Prop :=
  (∀ outcome ∈ outcomes, (∀ tree, ¬ outcome.Writes loc tree) ∧ ¬ outcome.Empties loc) ∧
    after = before ∨
  ∃ pieces, after = some (overlays pieces) ∧
    (∀ bytes ∈ pieces, ∃ outcome ∈ outcomes, ∃ tree text, outcome.Writes loc tree ∧
      tree.render = .ok text ∧ bytes = text.toUTF8) ∧
    (pieces = [] → ∃ outcome ∈ outcomes, outcome.Empties loc)

/-- A file to which one text was written at most is as it was or holds that text. -/
lemma Settled.eq_text {outcomes : List Outcome} {before after : Option ByteArray}
    {outcome : Outcome} {tree : Tree} {text : String} (h : Settled outcomes loc before after)
    (hmem : outcome ∈ outcomes) (hwrites : outcome.Writes loc tree)
    (hsame : ∀ other ∈ outcomes, ¬ other.Empties loc ∧ ∀ tree, other.Writes loc tree →
      tree.render = .ok text) : after = some text.toUTF8 := by
  rcases h with ⟨hnone, -⟩ | ⟨pieces, rfl, hpieces, hempty⟩
  · exact absurd hwrites ((hnone outcome hmem).1 tree)
  · congr 1
    refine overlays_of_forall_eq ?_ ?_
    · intro hnil
      obtain ⟨other, hother, hempties⟩ := hempty hnil
      exact (hsame other hother).1 hempties
    · intro bytes hbytes
      obtain ⟨other, hother, tree', text', hwrites', hrender, rfl⟩ := hpieces bytes hbytes
      obtain rfl : text' = text :=
        Except.ok.inj (hrender.symm.trans ((hsame other hother).2 tree' hwrites'))
      rfl

/-- Nothing is written if only dependencies are asked for. -/
lemma Settled.eq_of_listing {outcomes : List Outcome} {before after : Option ByteArray}
    (h : Settled outcomes loc before after)
    (hresults : ∀ outcome ∈ outcomes, IsEntryResult options outcome.result)
    (hlisting : options.dependencyTarget.truthy = true) : after = before := by
  rcases h with ⟨-, hsame⟩ | ⟨pieces, -, hpieces, hempty⟩
  · exact hsame
  · cases pieces with
    | nil =>
      obtain ⟨outcome, hmem, ⟨fault, hfault⟩, -⟩ := hempty rfl
      have hresult := hresults outcome hmem
      rw [hfault] at hresult
      exact absurd rfl (hresult.2 hlisting fault)
    | cons bytes pieces =>
      obtain ⟨outcome, hmem, tree, -, hwrites, -⟩ := hpieces bytes List.mem_cons_self
      have hresult := hresults outcome hmem
      rw [hwrites.1] at hresult
      cases hresult.mpr hlisting

/-! ### All outcomes -/

variable {reporting : Bool} {nesting : Nat}

/-- The stages that tasks have come to with a file tell what has become of it. -/
lemma settled_of_shows {work : Work (Record σ)} {stages : Nat → Steps.Stage}
    {before after : Option ByteArray}
    (hends : ∀ (k : Nat) (outcome : Outcome),
      (outcomes loader turns options base jobs work).1[k]? = some outcome →
        EndsAt outcome.output loc (stages k) outcome.result)
    (hshows : Steps.Shows jobs.length stages before after) :
    Settled (outcomes loader turns options base jobs work).1 loc before after := by
  rcases hshows with ⟨hidle, hsame⟩ | ⟨pieces, hpieces, hwrote, hopened⟩
  · refine Or.inl ⟨fun outcome hmem => ?_, hsame⟩
    obtain ⟨k, hk⟩ := List.mem_iff_getElem?.mp hmem
    have hlt := (List.getElem?_eq_some_iff.mp (getElem?_outcomes.mp hk).1).1
    have hend := hends k outcome hk
    rw [hidle k hlt] at hend
    exact ⟨fun tree hwrites => (hend hwrites.2).1 tree hwrites.1,
      fun ⟨⟨fault, hfault⟩, hloc⟩ => (hend hloc).2 fault hfault⟩
  · have hat : ∀ k < jobs.length, ∃ outcome ∈ (outcomes loader turns options base jobs work).1,
        EndsAt outcome.output loc (stages k) outcome.result := by
      intro k hk
      obtain ⟨outcome, houtcome⟩ := exists_outcome loader turns options base jobs work hk
      exact ⟨outcome, List.mem_of_getElem? houtcome, hends k outcome houtcome⟩
    refine Or.inr ⟨pieces, hpieces, fun bytes hbytes => ?_, fun hnil => ?_⟩
    · obtain ⟨k, hk, hstage⟩ := hwrote bytes hbytes
      obtain ⟨outcome, hmem, hend⟩ := hat k hk
      rw [hstage] at hend
      obtain ⟨hloc, tree, text, hresult, hrender, rfl⟩ := hend
      exact ⟨outcome, hmem, tree, text, ⟨hresult, hloc⟩, hrender, rfl⟩
    · obtain ⟨k, hk, hstage⟩ := hopened hnil
      obtain ⟨outcome, hmem, hend⟩ := hat k hk
      rw [hstage] at hend
      exact ⟨outcome, hmem, hend.2, hend.1⟩

/-- The task of an entry is at its place. -/
lemma exists_job_of_task {k : Nat} {task : Steps (Work (Record σ)) (Except Failure (Option Tree))}
    (h : (jobs.map fun job => compiling loader options base job.1 job.2)[k]? = some task) :
    ∃ job, jobs[k]? = some job ∧ task = compiling loader options base job.1 job.2 := by
  rw [List.getElem?_map] at h
  obtain ⟨job, hjob, rfl⟩ := Option.map_eq_some_iff.mp h
  exact ⟨job, hjob, rfl⟩

/-- Something comes of every entry, and the current directory stays the same. -/
lemma outcomes_always (reporting : Bool) (nesting : Nat) (turns : List Nat) (options : Options)
    (base : Path) (jobs : List (Entry × Path)) (work : Work (Record (List (Value × String)))) :
    (∀ outcome ∈ (outcomes (Source.sharedLoader reporting nesting) turns options base jobs work).1,
        IsEntryResult options outcome.result) ∧
      work.Stays
        (outcomes (Source.sharedLoader reporting nesting) turns options base jobs work).2 := by
  have hall : ∀ (k : Nat) task, (jobs.map fun job =>
      compiling (Source.sharedLoader reporting nesting) options base job.1 job.2)[k]? = some task →
      task.Always Work.Stays (IsEntryResult options) := by
    intro k task h
    obtain ⟨job, -, rfl⟩ := exists_job_of_task h
    exact compiling_always
  obtain ⟨hstays, hresults⟩ := Steps.together_always (w := work) turns hall
  refine ⟨fun outcome hmem => ?_, hstays⟩
  obtain ⟨k, hk⟩ := List.mem_iff_getElem?.mp hmem
  exact hresults k outcome.result (getElem?_outcomes.mp hk).2

/-- Whatever becomes of the entries and in whatever turns they take their steps, every file is
settled. -/
theorem outcomes_settled (reporting : Bool) (nesting : Nat) (turns : List Nat)
    (options : Options) (base : Path)
    (hjobs : ∀ job ∈ jobs, job.2.isAbsolute = true ∧ ".." ∉ job.2.segments)
    (work : Work (Record (List (Value × String)))) (hloc : loc ∉ work.journal.log.locations) :
    Settled (outcomes (Source.sharedLoader reporting nesting) turns options base jobs work).1 loc
      (work.workspace.files.content? loc)
      ((outcomes (Source.sharedLoader reporting nesting) turns options base jobs
        work).2.workspace.files.content? loc) := by
  let ends (k : Nat) : Steps.Stage → Except Failure (Option Tree) → Prop :=
    jobs[k]?.elim (fun _ _ => True) fun job => EndsAt job.2 loc
  have hfollows : ∀ (k : Nat) task, (jobs.map fun job =>
      compiling (Source.sharedLoader reporting nesting) options base job.1 job.2)[k]? = some task →
      task.Follows (Work.LogsTo work.journal.log.locations) (Work.fileAt loc) (ends k) .idle := by
    intro k task h
    obtain ⟨job, hjob, rfl⟩ := exists_job_of_task h
    dsimp only [ends]
    rw [hjob]
    have hpath := hjobs job (List.mem_of_getElem? hjob)
    exact compiling_follows hpath.1 hpath.2 hloc
  have hlogs : work.LogsTo work.journal.log.locations := rfl
  obtain ⟨stages, hends, hshows⟩ := Steps.together_shows turns hlogs hfollows
  rw [List.length_map] at hshows
  refine settled_of_shows (fun k outcome houtcome => ?_) hshows
  obtain ⟨hjob, hresult⟩ := getElem?_outcomes.mp houtcome
  have hend := hends k outcome.result hresult
  dsimp only [ends] at hend
  rwa [hjob] at hend

/-! ### Taking note of failures -/

/-- Where no entry was called off, settling takes notes and does nothing else. -/
lemma exists_settle_eq {outcomes : List Outcome} (h : ∀ o ∈ outcomes, o.result ≠ .error .cancelled)
    (work : Work (Record σ)) :
    ∃ notes, carryOut (settle outcomes) work = (.ok (), work.noted notes) := by
  induction outcomes generalizing work with
  | nil => exact ⟨[], rfl⟩
  | cons outcome outcomes ih =>
    have hrest := ih fun o ho => h o (List.mem_cons_of_mem _ ho)
    have houtcome := h outcome List.mem_cons_self
    obtain ⟨entry, output, failure | answer⟩ := outcome
    · let failed : Note :=
        .error writerSource ("Failed to compile " ++ entry.name ++ ": " ++ failure.message)
      obtain ⟨notes, hnotes⟩ := hrest (work.noted [failed])
      refine ⟨[failed] ++ notes, ?_⟩
      rw [Work.noted_append, ← hnotes]
      cases failure with
      | cancelled => exact absurd rfl houtcome
      | _ => rfl
    · exact hrest work

/-! ### Requests -/

variable {request : Request}

/-- The options that every entry of a request is compiled with. -/
def Request.eachOptions (request : Request) : Options :=
  (request.options.getD {}).withBundle (.bool false)

/-- The file of an entry below the output directory. -/
def Request.fileOf (request : Request) (w : Workspace) (entry : Entry) : Except FileError Path :=
  Entry.outputPath w (w.base request.base) (request.target w) entry.name

/-- The work when a request has begun that compiles every entry on its own. -/
def Request.begun (request : Request) (work : Work (Record σ)) : Work (Record σ) :=
  (carryOut (begin request.eachOptions) work).2

/-- Entries have files if the base directory is absolute. -/
lemma Request.exists_outputs (request : Request) {w : Workspace} (entries : List Entry)
    (hbase : (w.base request.base).isAbsolute = true) :
    ∃ outputs, entries.mapM (request.fileOf w) = .ok outputs ∧
      (entries.zip outputs).map Prod.fst = entries ∧
      ∀ job ∈ entries.zip outputs, request.fileOf w job.1 = .ok job.2 ∧
        job.2.isAbsolute = true ∧ ".." ∉ job.2.segments ∧
        (request.target w).segments <+: job.2.segments := by
  have htarget : (request.target w).isAbsolute = true := Path.isAbsolute_append _ hbase
  induction entries with
  | nil => exact ⟨[], rfl, rfl, by simp⟩
  | cons entry entries ih =>
    obtain ⟨outputs, houtputs, hentries, hjobs⟩ := ih
    obtain ⟨p, hp, hrest⟩ := Entry.exists_outputPath w hbase htarget
      (Path.not_mem_place (Path.isAbsolute_append _ hbase)) entry.name
    refine ⟨p :: outputs, ?_, by simp [hentries], ?_⟩
    · exact mapM_cons_eq_ok_iff.mpr ⟨p, outputs, hp, houtputs, rfl⟩
    · rw [List.zip_cons_cons]
      exact List.forall_mem_cons.mpr ⟨⟨hp, hrest⟩, hjobs⟩

lemma carryOut_compileEach {outputs : List Path} (loader : SharedLoader σ) (turns : List Nat)
    (work : Work (Record σ))
    (h : request.entries.mapM (request.fileOf work.workspace) = .ok outputs) :
    carryOut (compileEach loader turns request) work =
      let x := outcomes loader turns request.eachOptions (work.workspace.base request.base)
        (request.entries.zip outputs) (request.begun work)
      match carryOut (settle x.1) x.2 with
      | (.ok _, work') => (.ok x.1, work')
      | (.error failure, work') => (.error failure, work') := by
  unfold Request.fileOf Request.target at h
  unfold compileEach
  rw [carryOut_bind, carryOut_get]
  dsimp only
  rw [carryOut_bind]
  have hbegin : carryOut (begin ((request.options.getD {}).withBundle (.bool false))) work
      = (.ok (), request.begun work) := rfl
  rw [hbegin]
  dsimp only
  rw [carryOut_bind, carryOut_ofExcept, h]
  dsimp only [Except.mapError]
  rw [carryOut_bind, carryOut_get]
  dsimp only
  rw [carryOut_bind, carryOut_set]
  dsimp only
  rw [carryOut_bind, ← Request.eachOptions]
  generalize outcomes loader turns request.eachOptions _ _ _ = x
  rcases carryOut (settle x.1) x.2 with ⟨_ | _, _⟩ <;> rfl

/-- The outcomes are the result, and the notes on them are the rest of the work. -/
lemma exists_compileEach_eq {outputs : List Path} (reporting : Bool) (nesting : Nat)
    (turns : List Nat) (work : Work (Record (List (Value × String))))
    (h : request.entries.mapM (request.fileOf work.workspace) = .ok outputs) :
    ∃ notes, carryOut (compileEach (Source.sharedLoader reporting nesting) turns request) work =
      let x := outcomes (Source.sharedLoader reporting nesting) turns request.eachOptions
        (work.workspace.base request.base) (request.entries.zip outputs) (request.begun work)
      (.ok x.1, x.2.noted notes) := by
  rw [carryOut_compileEach _ _ work h]
  dsimp only
  have hresults := (outcomes_always reporting nesting turns request.eachOptions
    (work.workspace.base request.base) (request.entries.zip outputs) (request.begun work)).1
  have hcancelled : ∀ outcome ∈ (outcomes (Source.sharedLoader reporting nesting) turns
      request.eachOptions (work.workspace.base request.base) (request.entries.zip outputs)
      (request.begun work)).1, outcome.result ≠ .error .cancelled := by
    intro outcome hmem heq
    have hresult := hresults outcome hmem
    rw [heq] at hresult
    exact hresult.1 rfl
  obtain ⟨notes, hnotes⟩ := exists_settle_eq hcancelled
    (outcomes (Source.sharedLoader reporting nesting) turns request.eachOptions
      (work.workspace.base request.base) (request.entries.zip outputs) (request.begun work)).2
  rw [hnotes]
  exact ⟨notes, rfl⟩

/-- Outcomes of entries that are compiled with their files belong to the entries, in order. -/
lemma aligned_of_jobs {request : Request} {w : Workspace} {entries : List Entry}
    {outputs : List Path} {outcomes : List Outcome}
    (h : entries.mapM (request.fileOf w) = .ok outputs)
    (hjobs : outcomes.map (fun outcome => (outcome.entry, outcome.output)) = entries.zip outputs) :
    List.Forall₂ (fun entry outcome => outcome.entry = entry ∧
      request.fileOf w entry = .ok outcome.output) entries outcomes := by
  induction entries generalizing outputs outcomes with
  | nil =>
    obtain rfl := List.map_eq_nil_iff.mp hjobs
    exact .nil
  | cons entry entries ih =>
    obtain ⟨output, outputs, houtput, houtputs, rfl⟩ := mapM_cons_eq_ok_iff.mp h
    rw [List.zip_cons_cons] at hjobs
    obtain ⟨outcome, outcomes, rfl, hfirst, hrest⟩ := List.map_eq_cons_iff.mp hjobs
    obtain ⟨rfl, rfl⟩ := Prod.mk.inj hfirst
    exact .cons ⟨rfl, houtput⟩ (ih houtputs hrest)

/-- What holds when every entry of a request has been compiled into a file of its own: there is one
outcome for each entry, with its file, and the current directory is the same. Without a dependency
target an outcome is a tree or a failure. A file that differs is that of an outcome with a tree: it
holds the whole text of that if all outcomes with the file have that text, and else pieces that are
whole texts of such outcomes. Files of the log are left aside, and so are texts without an
encoding. -/
structure Request.IsAccounted (request : Request) (work : Work (Record σ))
    (outcomes : List Outcome) (after : Work (Record σ)) : Prop where
  aligned : List.Forall₂ (fun entry outcome => outcome.entry = entry ∧
    request.fileOf work.workspace entry = .ok outcome.output) request.entries outcomes
  trees : ∀ outcome ∈ outcomes, ∀ answer, outcome.result = .ok answer →
    (answer = none ↔ request.eachOptions.dependencyTarget.truthy = true)
  cwd : after.workspace.cwd = work.workspace.cwd
  files : ∀ loc ∉ work.journal.log.locations, (∀ outcome ∈ outcomes, ¬ outcome.Empties loc) →
    (∀ outcome ∈ outcomes, ∀ tree, ¬ outcome.Writes loc tree) ∧
      after.workspace.files.content? loc = work.workspace.files.content? loc ∨
    ∃ pieces, pieces ≠ [] ∧ after.workspace.files.content? loc = some (overlays pieces) ∧
      ∀ bytes ∈ pieces, ∃ outcome ∈ outcomes, ∃ tree text, outcome.Writes loc tree ∧
        tree.render = .ok text ∧ bytes = text.toUTF8
  whole : ∀ loc ∉ work.journal.log.locations, (∀ outcome ∈ outcomes, ¬ outcome.Empties loc) →
    ∀ outcome ∈ outcomes, ∀ tree text, outcome.Writes loc tree → tree.render = .ok text →
    (∀ other ∈ outcomes, ∀ tree, other.Writes loc tree → tree.render = .ok text) →
      after.workspace.files.content? loc = some text.toUTF8
  listing : request.eachOptions.dependencyTarget.truthy = true →
    ∀ loc ∉ work.journal.log.locations,
      after.workspace.files.content? loc = work.workspace.files.content? loc

/-- Every entry of a request is accounted for, whatever becomes of it and of the others and in
whatever turns they take their steps. -/
theorem compileEach_isAccounted {reporting : Bool} {nesting : Nat} {request : Request}
    {work : Work (Record (List (Value × String)))} (turns : List Nat)
    (hbase : (work.workspace.base request.base).isAbsolute = true) :
    ∃ outcomes,
      (carryOut (compileEach (Source.sharedLoader reporting nesting) turns request) work).1
        = .ok outcomes ∧
      request.IsAccounted work outcomes
        (carryOut (compileEach (Source.sharedLoader reporting nesting) turns request) work).2 := by
  obtain ⟨outputs, houtputs, -, hfiles⟩ := request.exists_outputs request.entries hbase
  have hjobs : ∀ job ∈ request.entries.zip outputs,
      job.2.isAbsolute = true ∧ ".." ∉ job.2.segments :=
    fun job hjob => ⟨(hfiles job hjob).2.1, (hfiles job hjob).2.2.1⟩
  have hsettled := fun loc hloc => @outcomes_settled _ loc reporting nesting turns
    request.eachOptions (work.workspace.base request.base) hjobs (request.begun work) hloc
  obtain ⟨hresults, hstays⟩ := outcomes_always reporting nesting turns request.eachOptions
    (work.workspace.base request.base) (request.entries.zip outputs) (request.begun work)
  have haligned := outcomes_jobs (Source.sharedLoader reporting nesting) turns request.eachOptions
    (work.workspace.base request.base) (request.entries.zip outputs) (request.begun work)
  obtain ⟨notes, hend⟩ := exists_compileEach_eq reporting nesting turns work houtputs
  rw [hend]
  generalize outcomes (Source.sharedLoader reporting nesting) turns request.eachOptions _ _ _ = x
    at hsettled hresults hstays haligned
  obtain ⟨hcwd, hnoted⟩ := notes_keeps notes x.2
  -- the notes on failures leave all files but those of the log alone
  have hfiles' : ∀ loc ∉ work.journal.log.locations, Settled x.1 loc
      (work.workspace.files.content? loc) ((x.2.noted notes).workspace.files.content? loc) := by
    intro loc hloc
    have hlog : loc ∉ x.2.journal.log.locations := by
      rw [hstays.log]
      exact hloc
    rw [hnoted.files.content loc hlog]
    exact hsettled loc hloc
  have htrees : ∀ outcome ∈ x.1, ∀ answer, outcome.result = .ok answer →
      (answer = none ↔ request.eachOptions.dependencyTarget.truthy = true) := by
    intro outcome hmem answer hanswer
    have hresult := hresults outcome hmem
    rwa [hanswer] at hresult
  refine ⟨x.1, rfl, aligned_of_jobs houtputs haligned, htrees, hcwd.trans hstays.cwd, ?_, ?_, ?_⟩
  · intro loc hloc hencoded
    rcases hfiles' loc hloc with ⟨hnone, hsame⟩ | ⟨pieces, hcontent, hpieces, hempty⟩
    · exact Or.inl ⟨fun outcome hmem => (hnone outcome hmem).1, hsame⟩
    · refine Or.inr ⟨pieces, fun hnil => ?_, hcontent, hpieces⟩
      obtain ⟨outcome, hmem, hempties⟩ := hempty hnil
      exact hencoded outcome hmem hempties
  · intro loc hloc hencoded outcome hmem tree text hwrites hrender hsame
    exact (hfiles' loc hloc).eq_text hmem hwrites fun other hother =>
      ⟨hencoded other hother, hsame other hother⟩
  · exact fun hlisting loc hloc => (hfiles' loc hloc).eq_of_listing hresults hlisting

/-- A project of two entries that share a module. -/
def sharingProject : Work (Record (List (Value × String))) where
  workspace :=
    { files := ⟨[
        (["p"], .directory),
        (["p", "a.js"], .file "import \"./lib\";\n".toUTF8),
        (["p", "b.js"], .file "import \"./lib\";\nvar b;\n".toUTF8),
        (["p", "lib.js"], .file "export var l;\n".toUTF8),
        (["p", "out"], .directory)]⟩
      cwd := some ["p"]
      start := ⟨.root, ["p"]⟩ }
  memory := { memory := [] }

/-- A request in which two entries have one file and a third one is missing. -/
def collidingRequest : Request where
  output := "out"
  entries := [⟨"a.js", .module⟩, ⟨"missing.js", .module⟩, ⟨"./a.js", .script⟩]
  options := some { moduleMode := some .register }
  base := none

/-- Turns in which the last entry has opened its file when the others begin. -/
def collidingTurns : List Nat := List.replicate 8 2

theorem isAccounted_colliding :
    (sharingProject.workspace.base collidingRequest.base).isAbsolute = true ∧
    ∃ outcomes, (carryOut (compileEach (Source.sharedLoader false 8) collidingTurns
        collidingRequest) sharingProject).1 = .ok outcomes ∧
      collidingRequest.IsAccounted sharingProject outcomes
        (carryOut (compileEach (Source.sharedLoader false 8) collidingTurns collidingRequest)
          sharingProject).2 := by
  have hbase : (sharingProject.workspace.base collidingRequest.base).isAbsolute = true := rfl
  exact ⟨hbase, compileEach_isAccounted collidingTurns hbase⟩

/-- A request that lists the dependencies of its entry. -/
def listingRequest : Request where
  output := "out"
  entries := [⟨"a.js", .module⟩]
  options := some { dependencyTarget := .text "t" }
  base := none

/-- A project whose log is a module as well. -/
def loggedProject : Work (Record (List (Value × String))) where
  workspace :=
    { files := ⟨[
        (["a.js"], .file "var a;\n".toUTF8),
        (["b.js"], .file "import \"./log\";\n".toUTF8),
        (["log.js"], .file "".toUTF8),
        (["out"], .directory)]⟩
      cwd := some []
      start := ⟨.root, []⟩ }
  memory := { memory := [] }
  journal := { log := { level := Note.infoLevel, handlers := [.file ⟨some ["log.js"], .atEnd⟩] } }

def loggedRequest : Request where
  output := "out"
  entries := [⟨"a.js", .module⟩, ⟨"b.js", .module⟩]
  options := none
  base := none

/-- Whether the file of an outcome with a tree holds the text of that tree. -/
def Outcome.isWhole? (w : Workspace) (outcome : Outcome) : Option Bool := do
  let tree ← (← outcome.result.toOption)
  let text ← tree.render.toOption
  let bytes ← w.files.content? outcome.output.segments
  pure (decide (bytes.data = text.toUTF8.data))

/-- An outcome need be neither a tree nor a failure, and a file that differs need not be that of an
outcome, since entries may only be listed and the log is written beside them. A file that is that of
two outcomes need not hold the whole text of either. -/
theorem not_always_isAccounted :
    ((carryOut (compileEach (Source.sharedLoader false 8) [] listingRequest)
        sharingProject).1.toOption.map
      (List.map fun outcome => outcome.result.toOption)) = some [some none] ∧
    ((carryOut (compileEach (Source.sharedLoader false 8) [] loggedRequest)
        loggedProject).1.toOption.map
      (List.map fun outcome => outcome.output.segments)) = some [["out", "a.js"], ["out", "b.js"]] ∧
    (carryOut (compileEach (Source.sharedLoader false 8) [] loggedRequest)
        loggedProject).2.workspace.files.content? ["log.js"]
      ≠ loggedProject.workspace.files.content? ["log.js"] ∧
    ((carryOut (compileEach (Source.sharedLoader false 8) collidingTurns collidingRequest)
        sharingProject).1.toOption.map
      (List.map (Outcome.isWhole? (carryOut (compileEach (Source.sharedLoader false 8)
        collidingTurns collidingRequest) sharingProject).2.workspace)))
      = some [some false, none, some false] := by
  refine ⟨?_, ?_, ?_, ?_⟩ <;> decide +kernel

end Compile
end Bundler
