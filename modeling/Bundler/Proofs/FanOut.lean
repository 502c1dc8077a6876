import Mathlib.Data.List.Pairwise
import Bundler.Proofs.OutcomeFiles

/-!
# Entries compiled each on its own

Entries that are compiled at the same time, each into a file of its own, do not influence one
another: each gets the result that it gets alone, in whatever order they come and in whatever turns
they take their steps, and the files are the same in the end.
-/

namespace Bundler.Compile

open Load Load.Source WorkM

variable {σ : Type} {loader : Loader σ} {options : Options} {base : Path} {turns : List Nat}
  {reporting : Bool} {nesting : Nat} {directory : Location}
  {start work : Work (Record (List (Value × String)))} {jobs : List (Entry × Path)}

/-! ### Files of their own -/

/-- An entry with its file: the file lies in the output directory, and the names that the entry asks
for, if it is compiled alone, avoid that directory. -/
structure IsJob (loader : Loader σ) (options : Options) (base : Path) (directory : Location)
    (start : Work (Record σ)) (job : Entry × Path) : Prop where
  absolute : job.2.isAbsolute = true
  plain : ".." ∉ job.2.segments
  inside : directory <+: job.2.segments
  avoids : ∀ name ∈ (start.compile loader [job.1.resolve base] options base).2.session.loaded,
    start.Avoids base directory name

/-- Neither of two files lies at or below the other. -/
def Apart (p q : Path) : Prop := ¬ p.segments <+: q.segments ∧ ¬ q.segments <+: p.segments

instance (p q : Path) : Decidable (Apart p q) := inferInstanceAs (Decidable (_ ∧ _))

lemma Apart.symm {p q : Path} (h : Apart p q) : Apart q p := ⟨h.2, h.1⟩

lemma apart_of_ne {job job' : Entry × Path}
    (hapart : jobs.Pairwise fun job job' => Apart job.2 job'.2) (hjob : job ∈ jobs)
    (hjob' : job' ∈ jobs) (hne : job ≠ job') : Apart job.2 job'.2 := by
  have : Std.Symm fun job job' : Entry × Path => Apart job.2 job'.2 := ⟨fun _ _ h => h.symm⟩
  exact hapart.forall hjob hjob' hne

/-- The file of a job lies apart from those of the others. -/
lemma isOwn_of_mem {job : Entry × Path} (hapart : jobs.Pairwise fun job job' => Apart job.2 job'.2)
    (hjob : job ∈ jobs) :
    FileTree.IsOwn (jobs.map fun job => job.2.segments) job.2.segments := by
  have hall : ∀ job' ∈ jobs, job' = job ∨ Apart job'.2 job.2 := by
    intro job' hjob'
    by_cases heq : job' = job
    · exact Or.inl heq
    · exact Or.inr (apart_of_ne hapart hjob' hjob heq)
  refine ⟨List.mem_map_of_mem hjob, ?_, ?_⟩
  · intro out hout hbelow
    obtain ⟨job', hjob', rfl⟩ := List.mem_map.mp hout
    rcases hall job' hjob' with rfl | hapart'
    · rfl
    · exact absurd hbelow hapart'.1
  · intro out hout habove
    obtain ⟨job', hjob', rfl⟩ := List.mem_map.mp hout
    rcases hall job' hjob' with rfl | hapart'
    · rfl
    · exact absurd habove hapart'.2

/-- What a result leaves of a file that nothing else is written to. -/
def leaves (before : Option ByteArray) : Except Failure (Option Tree) → Option ByteArray
  | .ok (some tree) => tree.render.toOption.elim before fun text => some text.toUTF8
  | .error (.unencodable _) => some .empty
  | _ => before

/-- A file that only one outcome has is what the result of that one leaves. -/
lemma Settled.eq_leaves {outcomes : List Outcome} {loc : Location} {before after : Option ByteArray}
    {outcome : Outcome} (h : Settled outcomes loc before after) (hmem : outcome ∈ outcomes)
    (hloc : outcome.output.segments = loc)
    (honly : ∀ other ∈ outcomes, other.output.segments = loc → other = outcome) :
    after = leaves before outcome.result := by
  rcases h with ⟨hnone, rfl⟩ | ⟨pieces, rfl, hpieces, hempty⟩
  · obtain ⟨hwrites, hempties⟩ := hnone outcome hmem
    unfold leaves
    split
    · exact absurd ⟨‹_›, hloc⟩ (hwrites _)
    · exact absurd ⟨⟨_, ‹_›⟩, hloc⟩ hempties
    · rfl
  · cases hp : pieces with
    | nil =>
      obtain ⟨other, hother, ⟨fault, hfault⟩, hplace⟩ := hempty hp
      obtain rfl := honly other hother hplace
      rw [hfault]
      rfl
    | cons first rest =>
      -- all pieces are the text of the one tree
      have hown : ∀ bytes ∈ pieces, ∃ tree text, outcome.result = .ok (some tree) ∧
          tree.render = .ok text ∧ bytes = text.toUTF8 := by
        intro bytes hbytes
        obtain ⟨other, hother, tree, text, hwrites, hrender, hbytes⟩ := hpieces bytes hbytes
        obtain rfl := honly other hother hwrites.2
        exact ⟨tree, text, hwrites.1, hrender, hbytes⟩
      obtain ⟨tree, text, hresult, hrender, -⟩ := hown first (hp ▸ List.mem_cons_self)
      have hsame : ∀ bytes ∈ pieces, bytes = text.toUTF8 := by
        intro bytes hbytes
        obtain ⟨tree', text', hresult', hrender', rfl⟩ := hown bytes hbytes
        obtain rfl : tree = tree' := by simpa [hresult] using hresult'
        obtain rfl : text = text' := by simpa [hrender] using hrender'
        rfl
      rw [← hp, Workspace.overlays_of_forall_eq (by simp [hp]) hsame, hresult]
      simp [leaves, hrender, Except.toOption]

/-- Entries that avoid the output directory and have files of their own have the results that they
have alone, in whatever turns they take their steps, and the tree grows by their files. -/
theorem outcomes_eq (turns : List Nat) (hready : start.IsReady base directory)
    (hjobs : ∀ job ∈ jobs, IsJob (Source.loader reporting nesting) options base directory start job)
    (hapart : jobs.Pairwise fun job job' => Apart job.2 job'.2) :
    (outcomes (Source.sharedLoader reporting nesting) turns options base jobs start).1
        = jobs.map (fun job => ⟨job.1, job.2,
            start.verdict (Source.loader reporting nesting) options base job.1 job.2⟩) ∧
      Work.Grows (jobs.map fun job => job.2.segments) start
        (outcomes (Source.sharedLoader reporting nesting) turns options base jobs start).2 := by
  have hin : ∀ out ∈ jobs.map fun job => job.2.segments, directory <+: out := by
    intro out hout
    obtain ⟨job, hjob, rfl⟩ := List.mem_map.mp hout
    exact (hjobs job hjob).inside
  let settles (k : Nat) (result : Except Failure (Option Tree)) : Prop :=
    ∀ job, jobs[k]? = some job →
      result = start.verdict (Source.loader reporting nesting) options base job.1 job.2
  have hall : ∀ (k : Nat) task, (jobs.map fun job =>
      compiling (Source.sharedLoader reporting nesting) options base job.1 job.2)[k]? = some task →
      task.Ensures (Work.Grows (jobs.map fun job => job.2.segments))
        (fun result _ => settles k result) start := by
    intro k task htask
    obtain ⟨job, hjob, rfl⟩ := exists_job_of_task htask
    have hmem := List.mem_of_getElem? hjob
    have his := hjobs job hmem
    refine (compiling_ensures hready hin his.avoids his.absolute his.plain
      (isOwn_of_mem hapart hmem)).mono ?_
    rintro result _ - rfl job' hjob'
    obtain rfl : job = job' := Option.some.inj (hjob.symm.trans hjob')
    rfl
  obtain ⟨hgrows, hresults⟩ := Steps.together_ensures turns hall
  refine ⟨?_, hgrows⟩
  refine List.ext_getElem? fun k => ?_
  rw [List.getElem?_map]
  cases hjob : jobs[k]? with
  | none =>
    have hlength := congrArg List.length (outcomes_jobs (Source.sharedLoader reporting nesting) turns
      options base jobs start)
    rw [List.length_map] at hlength
    exact List.getElem?_eq_none (hlength ▸ List.getElem?_eq_none_iff.mp hjob)
  | some job =>
    obtain ⟨outcome, houtcome⟩ := exists_outcome (Source.sharedLoader reporting nesting) turns options
      base jobs start (List.getElem?_eq_some_iff.mp hjob).1
    rw [houtcome, Option.map_some]
    obtain ⟨hplace, hresult⟩ := getElem?_outcomes.mp houtcome
    obtain rfl : job = (outcome.entry, outcome.output) := Option.some.inj (hjob.symm.trans hplace)
    rw [← hresults k outcome.result hresult _ hjob]

/-! ### Requests -/

variable {request : Request}

/-- The names whose files an entry asks for if it is compiled alone. -/
def Request.tried (request : Request) (loader : Loader σ) (work : Work (Record σ))
    (entry : Entry) : List String :=
  (work.compile loader [entry.resolve (work.workspace.base request.base)] request.eachOptions
    (work.workspace.base request.base)).2.session.loaded

/-- What an entry asks for, if it is compiled alone, avoids the output directory. -/
def Request.ReadsOutside (request : Request) (loader : Loader σ) (work : Work (Record σ))
    (entry : Entry) : Prop :=
  ∀ name ∈ request.tried loader work entry,
    work.Avoids (work.workspace.base request.base) (request.target work.workspace).segments name

/-- The directories of a request are there, and no file of an entry lies at or below that of
another. -/
structure Request.FansOut (request : Request) (work : Work (Record σ)) : Prop where
  ready : work.IsReady (work.workspace.base request.base) (request.target work.workspace).segments
  apart : request.entries.Pairwise fun entry entry' => ∀ p q,
    request.fileOf work.workspace entry = .ok p → request.fileOf work.workspace entry' = .ok q →
      Apart p q

/-- Entries lie apart if the files that are worked out for them do. -/
lemma Request.pairwise_of_outputs {w : Workspace} {entries : List Entry} (outputs : List Path)
    (h : entries.mapM (request.fileOf w) = .ok outputs) (hapart : outputs.Pairwise Apart) :
    entries.Pairwise fun entry entry' => ∀ p q, request.fileOf w entry = .ok p →
      request.fileOf w entry' = .ok q → Apart p q := by
  induction entries generalizing outputs with
  | nil => exact .nil
  | cons entry entries ih =>
    obtain ⟨output, outputs, houtput, houtputs, rfl⟩ := mapM_cons_eq_ok_iff.mp h
    rw [List.pairwise_cons] at hapart
    refine List.pairwise_cons.mpr ⟨?_, ih outputs houtputs hapart.2⟩
    intro entry' hentry' p q hp hq
    obtain ⟨q', hq', hfile⟩ := (mem_of_mapM_eq_ok houtputs).1 entry' hentry'
    obtain rfl : output = p := Except.ok.inj (houtput.symm.trans hp)
    obtain rfl : q' = q := Except.ok.inj (hfile.symm.trans hq)
    exact hapart.1 q' hq'

/-- The entries of a request with their files. -/
lemma Request.FansOut.exists_jobs (h : request.FansOut work)
    (hnames : ∀ entry ∈ request.entries,
      request.ReadsOutside (Source.loader reporting nesting) work entry) :
    ∃ outputs, request.entries.mapM (request.fileOf work.workspace) = .ok outputs ∧
      (request.entries.zip outputs).map Prod.fst = request.entries ∧
      (∀ job ∈ request.entries.zip outputs,
        request.fileOf work.workspace job.1 = .ok job.2 ∧
          IsJob (Source.loader reporting nesting) request.eachOptions
            (work.workspace.base request.base) (request.target work.workspace).segments
            (request.begun work) job) ∧
      (request.entries.zip outputs).Pairwise fun job job' => Apart job.2 job'.2 := by
  obtain ⟨outputs, houtputs, hentries, hfiles⟩ :=
    request.exists_outputs request.entries h.ready.absolute
  refine ⟨outputs, houtputs, hentries, fun job hjob => ?_, ?_⟩
  · obtain ⟨hfile, habsolute, hplain, hinside⟩ := hfiles job hjob
    have hentry : job.1 ∈ request.entries := hentries ▸ List.mem_map_of_mem hjob
    exact ⟨hfile, habsolute, hplain, hinside, hnames job.1 hentry⟩
  · have hpairwise := h.apart
    rw [← hentries, List.pairwise_map] at hpairwise
    refine hpairwise.imp_of_mem fun hjob hjob' hapart => ?_
    exact hapart _ _ (hfiles _ hjob).1 (hfiles _ hjob').1

/-- What comes of an entry of a request with its file if it is compiled alone. -/
def Request.verdict (request : Request) (loader : Loader σ) (work : Work (Record σ))
    (job : Entry × Path) : Except Failure (Option Tree) :=
  (request.begun work).verdict loader request.eachOptions (work.workspace.base request.base)
    job.1 job.2

/-- What holds at the end of a request that compiles every entry of a list on its own. -/
structure Request.IsFannedOut (request : Request) (loader : Loader σ) (work : Work (Record σ))
    (jobs : List (Entry × Path)) (result : Except Failure (List Outcome))
    (after : Work (Record σ)) : Prop where
  entries : jobs.map Prod.fst = request.entries
  files : ∀ job ∈ jobs, request.fileOf work.workspace job.1 = .ok job.2
  result : result = .ok (jobs.map fun job => ⟨job.1, job.2, request.verdict loader work job⟩)
  own : ∀ job ∈ jobs, job.2.segments ∉ work.journal.log.locations →
    after.workspace.files.content? job.2.segments
      = leaves (work.workspace.files.content? job.2.segments) (request.verdict loader work job)
  others : ∀ loc ∉ work.journal.log.locations, (∀ job ∈ jobs, loc ≠ job.2.segments) →
    after.workspace.files.content? loc = work.workspace.files.content? loc

theorem compileEach_isFannedOut (turns : List Nat) (h : request.FansOut work)
    (hnames : ∀ entry ∈ request.entries,
      request.ReadsOutside (Source.loader reporting nesting) work entry) :
    ∃ jobs, request.IsFannedOut (Source.loader reporting nesting) work jobs
      (carryOut (compileEach (Source.sharedLoader reporting nesting) turns request) work).1
      (carryOut (compileEach (Source.sharedLoader reporting nesting) turns request) work).2 := by
  obtain ⟨outputs, houtputs, hentries, hjobs, hapart⟩ := h.exists_jobs hnames
  have hready : (request.begun work).IsReady (work.workspace.base request.base)
      (request.target work.workspace).segments :=
    ⟨h.ready.sound, h.ready.absolute, h.ready.base, h.ready.directory⟩
  obtain ⟨hresult, hgrows⟩ := outcomes_eq turns hready (fun job hjob => (hjobs job hjob).2) hapart
  have hpaths : ∀ job ∈ request.entries.zip outputs,
      job.2.isAbsolute = true ∧ ".." ∉ job.2.segments :=
    fun job hjob => ⟨(hjobs job hjob).2.absolute, (hjobs job hjob).2.plain⟩
  have hsettled := fun loc hloc => @outcomes_settled _ loc reporting nesting turns
    request.eachOptions (work.workspace.base request.base) hpaths (request.begun work) hloc
  obtain ⟨notes, hend⟩ := exists_compileEach_eq reporting nesting turns work houtputs
  rw [hend]
  generalize outcomes (Source.sharedLoader reporting nesting) turns request.eachOptions _ _ _ = x
    at hresult hgrows hsettled
  obtain ⟨-, hnoted⟩ := notes_keeps notes x.2
  -- the notes on failures leave all files but those of the log alone
  have hafter : ∀ loc ∉ work.journal.log.locations,
      (x.2.noted notes).workspace.files.content? loc = x.2.workspace.files.content? loc := by
    intro loc hloc
    refine hnoted.files.content loc ?_
    rw [List.nil_append, hgrows.log]
    exact hloc
  refine ⟨_, hentries, fun job hjob => (hjobs job hjob).1, congrArg Except.ok hresult, ?_, ?_⟩
  · intro job hjob hlog
    let outcome : Outcome :=
      ⟨job.1, job.2, request.verdict (Source.loader reporting nesting) work job⟩
    have hmem : outcome ∈ x.1 := by
      rw [hresult]
      exact List.mem_map.mpr ⟨job, hjob, rfl⟩
    refine (hafter _ hlog).trans ((hsettled _ hlog).eq_leaves hmem rfl ?_)
    · intro other hother hplace
      rw [hresult] at hother
      obtain ⟨job', hjob', rfl⟩ := List.mem_map.mp hother
      by_cases heq : job' = job
      · rw [heq]
        rfl
      · exact absurd (hplace ▸ List.prefix_refl _) (apart_of_ne hapart hjob' hjob heq).1
  · intro loc hlog hother
    refine (hafter loc hlog).trans (hgrows.workspace.files.content ?_ hlog)
    intro hmem
    obtain ⟨job, hjob, rfl⟩ := List.mem_map.mp hmem
    exact hother job hjob rfl

lemma Request.IsFannedOut.mem {loader : Loader σ} {work after : Work (Record σ)}
    {result : Except Failure (List Outcome)} {entry : Entry} {p : Path}
    (h : request.IsFannedOut loader work jobs result after) (hentry : entry ∈ request.entries)
    (hp : request.fileOf work.workspace entry = .ok p) : (entry, p) ∈ jobs := by
  rw [← h.entries] at hentry
  obtain ⟨job, hjob, rfl⟩ := List.mem_map.mp hentry
  obtain rfl : p = job.2 := Except.ok.inj (hp.symm.trans (h.files job hjob))
  exact hjob

/-! ### Independence -/

/-- The directories of a request are the same for other entries. -/
lemma Request.FansOut.of_perm {entries : List Entry} (h : request.FansOut work)
    (hperm : entries.Perm request.entries) : Request.FansOut { request with entries } work := by
  refine ⟨h.ready, (hperm.pairwise_iff ?_).mpr h.apart⟩
  intro entry entry' hapart p q hp hq
  exact (hapart q p hq hp).symm

lemma Request.FansOut.single (h : request.FansOut work) (entry : Entry) :
    Request.FansOut { request with entries := [entry] } work :=
  ⟨h.ready, List.pairwise_singleton _ _⟩

/-- An entry that is requested alone is compiled as it is alone. -/
lemma compileEach_single {entry : Entry} {p : Path} (turns : List Nat) (h : request.FansOut work)
    (hnames : request.ReadsOutside (Source.loader reporting nesting) work entry)
    (hp : request.fileOf work.workspace entry = .ok p) :
    let single : Request := { request with entries := [entry] }
    let verdict := request.verdict (Source.loader reporting nesting) work (entry, p)
    (carryOut (compileEach (Source.sharedLoader reporting nesting) turns single) work).1
        = .ok [⟨entry, p, verdict⟩] ∧
      (p.segments ∉ work.journal.log.locations →
        (carryOut (compileEach (Source.sharedLoader reporting nesting) turns single)
            work).2.workspace.files.content? p.segments
          = leaves (work.workspace.files.content? p.segments) verdict) := by
  intro single verdict
  have hsingle : single.FansOut work := h.single entry
  have hsingles : ∀ e ∈ single.entries,
      single.ReadsOutside (Source.loader reporting nesting) work e := by
    intro e he
    obtain rfl : e = entry := List.mem_singleton.mp he
    exact hnames
  obtain ⟨jobs, hjobs⟩ := compileEach_isFannedOut turns hsingle hsingles
  have hjob : (entry, p) ∈ jobs := hjobs.mem List.mem_cons_self hp
  obtain ⟨job, rfl⟩ : ∃ job, jobs = [job] := by
    have hlength := congrArg List.length hjobs.entries
    rw [List.length_map] at hlength
    exact List.length_eq_one_iff.mp hlength
  obtain rfl := List.mem_singleton.mp hjob
  exact ⟨hjobs.result, hjobs.own _ hjob⟩

/-- What holds of a request for some entries that take their steps in some turns, seen from a
request with the same entries in some other order: each entry has the result that it has alone, its
file is the one it has then, other files stay as they are, and so all files are as the other request
leaves them in any turns. Files of the log are left aside. -/
structure Request.IsIndependent (request : Request) (loader : SharedLoader σ)
    (work : Work (Record σ)) (turns : List Nat) (entries : List Entry) : Prop where
  results : ∃ outcomes,
    (carryOut (compileEach loader turns { request with entries }) work).1 = .ok outcomes ∧
      List.Forall₂ (fun entry outcome => ∀ turns',
        (carryOut (compileEach loader turns' { request with entries := [entry] }) work).1
          = .ok [outcome]) entries outcomes
  own : ∀ entry ∈ entries, ∀ p, request.fileOf work.workspace entry = .ok p →
    p.segments ∉ work.journal.log.locations → ∀ turns',
    (carryOut (compileEach loader turns { request with entries }) work).2.workspace.files.content?
        p.segments
      = (carryOut (compileEach loader turns' { request with entries := [entry] })
          work).2.workspace.files.content? p.segments
  others : ∀ loc ∉ work.journal.log.locations,
    (∀ entry ∈ entries, ∀ p, request.fileOf work.workspace entry = .ok p → loc ≠ p.segments) →
    (carryOut (compileEach loader turns { request with entries }) work).2.workspace.files.content?
        loc
      = work.workspace.files.content? loc
  files : ∀ loc ∉ work.journal.log.locations, ∀ turns',
    (carryOut (compileEach loader turns { request with entries }) work).2.workspace.files.content?
        loc
      = (carryOut (compileEach loader turns' request) work).2.workspace.files.content? loc

/-- Entries whose files lie apart and whose names avoid the output directory do not influence one
another, in whatever turns they take their steps. -/
theorem compileEach_isIndependent {entries : List Entry} (turns : List Nat)
    (h : request.FansOut work)
    (hnames : ∀ entry ∈ request.entries,
      request.ReadsOutside (Source.loader reporting nesting) work entry)
    (hperm : entries.Perm request.entries) :
    request.IsIndependent (Source.sharedLoader reporting nesting) work turns entries := by
  obtain ⟨jobs', hjobs'⟩ := compileEach_isFannedOut turns (h.of_perm hperm)
    (fun entry hentry => hnames entry (hperm.mem_iff.mp hentry))
  have hentries : jobs'.map Prod.fst = entries := hjobs'.entries
  have hmem : ∀ job ∈ jobs', job.1 ∈ entries := fun job hjob =>
    hentries ▸ List.mem_map_of_mem hjob
  refine ⟨⟨_, hjobs'.result, ?_⟩, ?_, ?_, ?_⟩
  · have hall : List.Forall₂ (fun entry outcome => ∀ turns',
        (carryOut (compileEach (Source.sharedLoader reporting nesting) turns'
          { request with entries := [entry] }) work).1 = .ok [outcome])
        (jobs'.map Prod.fst) (jobs'.map fun job => ⟨job.1, job.2,
          request.verdict (Source.loader reporting nesting) work job⟩) := by
      rw [List.forall₂_map_left_iff, List.forall₂_map_right_iff, List.forall₂_same]
      intro job hjob turns'
      exact (compileEach_single turns' h (hnames job.1 (hperm.mem_iff.mp (hmem job hjob)))
        (hjobs'.files job hjob)).1
    rwa [hentries] at hall
  · intro entry hentry p hp hlog turns'
    have hown := hjobs'.own (entry, p) (hjobs'.mem hentry hp) hlog
    have hsingle := compileEach_single turns' h (hnames entry (hperm.mem_iff.mp hentry)) hp
    exact hown.trans (hsingle.2 hlog).symm
  · intro loc hlog hother
    exact hjobs'.others loc hlog fun job hjob =>
      hother job.1 (hmem job hjob) job.2 (hjobs'.files job hjob)
  · intro loc hlog turns'
    obtain ⟨jobs, hjobs⟩ := compileEach_isFannedOut turns' h hnames
    by_cases hown : ∃ job ∈ jobs', loc = job.2.segments
    · obtain ⟨job, hjob, rfl⟩ := hown
      have hjob' : job ∈ jobs :=
        hjobs.mem (hperm.mem_iff.mp (hmem job hjob)) (hjobs'.files job hjob)
      exact (hjobs'.own job hjob hlog).trans (hjobs.own job hjob' hlog).symm
    · have hother : ∀ job ∈ jobs', loc ≠ job.2.segments := fun job hjob hloc =>
        hown ⟨job, hjob, hloc⟩
      have hother' : ∀ job ∈ jobs, loc ≠ job.2.segments := by
        intro job hjob
        have hentry : job.1 ∈ entries :=
          hperm.mem_iff.mpr (hjobs.entries ▸ List.mem_map_of_mem hjob)
        exact hother job (hjobs'.mem hentry (hjobs.files job hjob))
      exact (hjobs'.others loc hlog hother).trans (hjobs.others loc hlog hother').symm

def sharingRequest : Request where
  output := "out"
  entries := [⟨"a.js", .module⟩, ⟨"missing.js", .module⟩, ⟨"sub/../b.js", .script⟩]
  options := none
  base := none

lemma fansOut_sharing : sharingRequest.FansOut sharingProject where
  ready := ⟨FileTree.isSound_of_nodes (by decide), rfl, rfl, rfl⟩
  apart := Request.pairwise_of_outputs [⟨.root, ["p", "out", "a.js"]⟩,
    ⟨.root, ["p", "out", "missing.js"]⟩, ⟨.root, ["p", "out", "b.js"]⟩]
    (eq_ok_of_toOption (by decide +kernel)) (by decide)

theorem isIndependent_sharing :
    sharingRequest.FansOut sharingProject ∧
    (∀ entry ∈ sharingRequest.entries,
      sharingRequest.ReadsOutside (Source.loader false 8) sharingProject entry) ∧
    sharingRequest.entries.reverse.Perm sharingRequest.entries ∧
    sharingRequest.IsIndependent (Source.sharedLoader false 8) sharingProject [2, 0, 1, 2]
      sharingRequest.entries.reverse := by
  have hplain : ∀ entry ∈ sharingRequest.entries,
      ∀ name ∈ sharingRequest.tried (Source.loader false 8) sharingProject entry,
        ".." ∉ (Path.ofString name).segments ∧
        ¬ (sharingRequest.target sharingProject.workspace).segments
          <+: (locate (sharingProject.workspace.base sharingRequest.base) name).place ∧
        (locate (sharingProject.workspace.base sharingRequest.base) name).place
          ∉ sharingProject.journal.log.locations := by
    decide +kernel
  have hnames : ∀ entry ∈ sharingRequest.entries,
      sharingRequest.ReadsOutside (Source.loader false 8) sharingProject entry := by
    intro entry hentry name hname
    obtain ⟨hup, houtside, hlog⟩ := hplain entry hentry name hname
    exact ⟨isClear_of_isNormal (.of_not_mem hup) houtside, hlog⟩
  have hperm := List.reverse_perm sharingRequest.entries
  exact ⟨fansOut_sharing, hnames, hperm,
    compileEach_isIndependent [2, 0, 1, 2] fansOut_sharing hnames hperm⟩

/-- A project in which the name of a dependency leads through a directory that the file of another
entry makes. -/
def detouringProject : Work (Record (List (Value × String))) where
  workspace :=
    { files := ⟨[
        (["q"], .directory),
        (["q", "foo.js"], .file "var f;\n".toUTF8),
        (["b.js"], .file "import \"./out/q\";\n".toUTF8),
        (["z.js"], .file "var z;\n".toUTF8),
        (["out"], .directory)]⟩
      cwd := some []
      start := ⟨.root, []⟩ }
  memory := { memory := [] }

def detouringRequest : Request where
  output := "out"
  entries := [⟨"q/foo.js", .module⟩, ⟨"b.js", .module⟩]
  options := some { extras := [(.text "extension", .text "/../../z.js")] }
  base := none

/-- The texts of the last entry, if it went well. -/
def lastTexts (result : Except Failure (List Outcome)) : Option (List String) := do
  let outcome ← (result.toOption.getD []).getLast?
  let tree ← outcome.result.toOption
  pure ((Element.units (tree.getD [])).map CompiledUnit.text)

/-- The place of a name lies outside of the output directory of a request. -/
def Request.LiesOutside (request : Request) (work : Work (Record σ)) (name : String) : Prop :=
  ¬ (request.target work.workspace).segments
    <+: (locate (work.workspace.base request.base) name).place

instance (work : Work (Record σ)) (name : String) : Decidable (request.LiesOutside work name) :=
  inferInstanceAs (Decidable (¬ _))

/-- Entries may influence one another although all places of the names they ask for lie outside of
the output directory, also if each has read its own source before another one writes: a way there
and back out is open once the directory has been made, and the log tells of the other entries. The
log itself depends on their order. -/
theorem not_always_isIndependent :
    (detouringRequest.FansOut detouringProject ∧
      (∀ entry ∈ detouringRequest.entries,
        ∀ name ∈ detouringRequest.tried (Source.loader false 8) detouringProject entry,
          detouringRequest.LiesOutside detouringProject name) ∧
      lastTexts (carryOut (compileEach (Source.sharedLoader false 8) [1, 1, 1] detouringRequest)
          detouringProject).1
        ≠ lastTexts (carryOut (compileEach (Source.sharedLoader false 8) []
          { detouringRequest with entries := [⟨"b.js", .module⟩] }) detouringProject).1) ∧
    (loggedRequest.FansOut loggedProject ∧
      (∀ entry ∈ loggedRequest.entries,
        ∀ name ∈ loggedRequest.tried (Source.loader false 8) loggedProject entry,
          loggedRequest.LiesOutside loggedProject name) ∧
      lastTexts (carryOut (compileEach (Source.sharedLoader false 8) [1, 1, 1] loggedRequest)
          loggedProject).1
        ≠ lastTexts (carryOut (compileEach (Source.sharedLoader false 8) []
          { loggedRequest with entries := [⟨"b.js", .module⟩] }) loggedProject).1 ∧
      (carryOut (compileEach (Source.sharedLoader false 8) [] loggedRequest)
          loggedProject).2.workspace.files.content? ["log.js"]
        ≠ (carryOut (compileEach (Source.sharedLoader false 8) []
          { loggedRequest with entries := loggedRequest.entries.reverse })
            loggedProject).2.workspace.files.content? ["log.js"]) := by
  constructor
  · refine ⟨⟨⟨FileTree.isSound_of_nodes (by decide), rfl, rfl, rfl⟩, ?_⟩, by decide +kernel,
      by decide +kernel⟩
    exact Request.pairwise_of_outputs [⟨.root, ["out", "q", "foo.js"]⟩,
      ⟨.root, ["out", "b.js"]⟩] (eq_ok_of_toOption (by decide +kernel)) (by decide)
  · refine ⟨⟨⟨FileTree.isSound_of_nodes (by decide), rfl, rfl, rfl⟩, ?_⟩, by decide +kernel,
      by decide +kernel, by decide +kernel⟩
    exact Request.pairwise_of_outputs [⟨.root, ["out", "a.js"]⟩, ⟨.root, ["out", "b.js"]⟩]
      (eq_ok_of_toOption (by decide +kernel)) (by decide)

end Bundler.Compile
