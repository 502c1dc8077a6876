import Bundler.Proofs.ClearWays
import Bundler.Proofs.Inquiries
import Bundler.Proofs.KeptFiles
import Bundler.Proofs.Writing

/-!
# One entry beside others

An entry is compiled into a file of its own while others are compiled beside it. If it reads nothing
in the output directory and its file lies neither above nor below theirs, then what comes of it is
what comes of it alone. Whatever it reads, it leaves all files alone but its own, which it opens and
then writes.
-/

namespace Bundler.Compile

open Load Load.Source WorkM

variable {σ α : Type} {loader : Loader σ} {outs outs' : List Location}

/-! ### How work makes the tree grow -/

/-- The log has the same files, and the tree has grown by files at the locations `outs`. -/
structure Work.Grows (outs : List Location) (work work' : Work σ) : Prop where
  log : work'.journal.log.locations = work.journal.log.locations
  workspace : work.workspace.Grows outs work.journal.log.locations work'.workspace

namespace Work.Grows

variable {work work' work'' : Work σ}

lemma refl (outs : List Location) (work : Work σ) : Grows outs work work := ⟨rfl, .refl _ _ _⟩

lemma trans (h : Grows outs work work') (h' : Grows outs work' work'') :
    Grows outs work work'' := by
  refine ⟨h'.log.trans h.log, h.workspace.trans ?_⟩
  rw [← h.log]
  exact h'.workspace

instance : IsPreorder (Work σ) (Grows outs) where
  refl := refl outs
  trans _ _ _ := trans

lemma noted (outs : List Location) (ns : List Note) (work : Work σ) :
    Grows outs work (work.noted ns) := by
  obtain ⟨hlog, hother, hfiles⟩ := work.journal.noteAll_rewrites ns work.workspace
  exact ⟨hlog, hother, .of_rewrites hfiles⟩

end Work.Grows

/-! ### Inquiries in steps -/

section Inquiring

variable {S : List Note → Workspace → Prop} {Q : α → Prop} {q : Inquiry σ α} {ns : List Note}
  {memory : σ}

/-- The work in which an inquiry has taken some notes and has come to some memory. -/
def Work.asked (work : Work (Record σ)) (ns : List Note) (memory : σ) : Work (Record σ) :=
  { work.noted ns with memory := { work.memory with memory } }

/-- In a row an inquiry sees the work that it begins with and its own notes. -/
lemma run_inquiring (q : Inquiry σ α) (work : Work (Record σ)) (ns : List Note) (memory : σ) :
    (inquiring q).run (work.asked ns memory) =
      let x := q.seenBy (work.journal.view work.workspace) ns memory
      (x.1, work.asked x.2.1 x.2.2) := by
  induction q generalizing ns memory with
  | answer a => rfl
  | note n rest ih =>
    have hnoted : (work.asked ns memory).noted [n] = work.asked (ns ++ [n]) memory := by
      unfold Work.asked
      rw [Work.noted_append]
      rfl
    exact (congrArg (inquiring rest).run hnoted).trans (ih (ns ++ [n]) memory)
  | keep change rest ih => exact ih ns (change memory)
  | look rest ih => exact ih _ ns memory

/-- What an inquiry ends with whatever it finds, it ends with in steps. -/
lemma inquiring_always {P : Work (Record σ) → Work (Record σ) → Prop}
    (hnoted : ∀ work n, P work (work.noted [n]))
    (hkeep : ∀ work memory, P work { work with memory := { work.memory with memory } })
    (hrefl : ∀ work, P work work)
    (h : q.Ends (fun _ _ => True) (fun a _ _ => Q a) ns memory) : (inquiring q).Always P Q := by
  induction q generalizing ns memory with
  | answer a => exact h
  | note n rest ih => exact fun work => ⟨hnoted work n, ih h⟩
  | keep change rest ih => exact fun work => ⟨hkeep work _, ih h⟩
  | look rest ih => exact fun work => ⟨hrefl work, ih _ (h _ trivial)⟩

/-- Beside others an inquiry ends as it does in all workspaces that they may leave. -/
lemma inquiring_ensures {work : Work (Record σ)}
    (hS : ∀ ns w, work.workspace.Grows outs work.journal.log.locations w → S ns w)
    (h : q.Ends S (fun a _ _ => Q a) ns memory) :
    (inquiring q).Ensures (Work.Grows outs) (fun a _ => Q a) work := by
  induction q generalizing work ns memory with
  | answer a => exact fun _ _ => h
  | note n rest ih =>
    intro work' hwork'
    refine ⟨.noted _ _ _, ih (fun ns w hw => hS ns w ?_) h⟩
    have hlater := hwork'.trans (.noted outs [n] work')
    exact hlater.workspace.trans (hlater.log ▸ hw)
  | keep change rest ih =>
    intro work' hwork'
    refine ⟨⟨rfl, .refl _ _ _⟩, ih (fun ns w hw => hS ns w ?_) h⟩
    exact hwork'.workspace.trans (hwork'.log ▸ hw)
  | look rest ih =>
    intro work' hwork'
    refine ⟨.refl _ _, ih _ (fun ns w hw => hS ns w ?_) (h _ (hS ns _ hwork'.workspace))⟩
    exact hwork'.workspace.trans (hwork'.log ▸ hw)

end Inquiring

/-! ### One session -/

variable {entries : List Entry} {options : Options} {base output : Path} {what : Tree → String}

variable {reporting : Bool} {nesting : Nat} {directory loc : Location} {entry : Entry}
  {start work : Work (Record (List (Value × String)))}

/-- In a row an inquiry about entries comes to what their compilation comes to. -/
lemma run_askEntries (work : Work (Record (List (Value × String)))) :
    (inquiring (askEntries (Source.sharedLoader reporting nesting) entries options base)).run work =
      let x := work.compile (Source.loader reporting nesting) entries options base
      ((x.1, x.2.session), work.asked x.2.notes x.2.memory) := by
  have hstart : work = work.asked [] work.memory.memory := rfl
  have hshows : Shows (fun ns w => w = work.journal.view work.workspace ns) []
      ⟨work.journal.view work.workspace, base, options, reporting⟩
      (work.compile (Source.loader reporting nesting) entries options base).2.session.loaded := by
    rintro name - ns w rfl referrer
    rfl
  obtain ⟨hresult, hsession, hnotes, hmemory⟩ := (askEntries_ends hshows).seenBy
  have hrun := run_inquiring
    (askEntries (Source.sharedLoader reporting nesting) entries options base) work []
    work.memory.memory
  rw [← hstart] at hrun
  rw [hrun]
  refine Prod.ext (Prod.ext hresult hsession) ?_
  dsimp only
  rw [hnotes, hmemory]
  rfl

/-- The steps in which a tree is written on the workspace of some work. -/
def writingTree (tree : Tree) (path : Path) : Steps (Work σ) (Except Failure Unit) :=
  (tree.writing path).onPart Work.workspace fun workspace work => { work with workspace }

/-- The step in which notes are taken of some work. -/
def noting (ns : List Note) : Steps (Work σ) Unit := Steps.once fun work => ((), work.noted ns)

/-- The step in which a session that has ended is kept. -/
def keeping (session : Session) : Steps (Work (Record σ)) Unit :=
  Steps.once fun work => ((), keepSession session work)

/-- The steps that an entry takes when its tree is there. -/
def delivering (entry : Entry) (output : Path) (tree : Tree) :
    Steps (Work σ) (Except Failure (Option Tree)) := do
  match ← writingTree tree output with
  | .error failure => return .error failure
  | .ok () =>
    noting [.info writerSource ("Wrote " ++ entry.name ++ " to " ++ output.text)]
    return .ok (some tree)

lemma run_writingTree (tree : Tree) (path : Path) (work : Work σ) :
    (writingTree tree path).run work = ((tree.write work.workspace path).1,
      { work with workspace := (tree.write work.workspace path).2 }) := by
  apply Steps.run_onPart
  · exact fun _ _ => rfl
  · exact fun _ _ _ => rfl
  · exact fun _ => rfl

/-- In a row a tree is delivered as it is written. -/
lemma run_delivering (tree : Tree) (work : Work (Record σ)) :
    (delivering entry output tree).run work
      = carryOut (do writeTree tree output entry.name; return some tree) work := by
  rw [delivering, carryOut_bind, carryOut_writeTree, Steps.run_bind, run_writingTree]
  rcases tree.write work.workspace output with ⟨_ | _, workspace⟩ <;> rfl

/-- In a row an entry is compiled as it is loaded and written. -/
theorem run_compiling (work : Work (Record (List (Value × String)))) :
    (compiling (Source.sharedLoader reporting nesting) options base entry output).run work
      = carryOut (loadAndWrite (Source.loader reporting nesting) [entry.resolve base] options base
          output fun _ => entry.name) work := by
  unfold compiling loadAndWrite
  rw [carryOut_bind, carryOut_session, Steps.run_bind, run_askEntries]
  dsimp only
  rw [Steps.run_bind, Steps.run_once]
  have hended : ∀ run : Run (List (Value × String)),
      keepSession run.session (work.asked run.notes run.memory) = work.ended run := fun _ => rfl
  rw [hended]
  rcases work.compile (Source.loader reporting nesting) [entry.resolve base] options base with
    ⟨failure | _ | tree, run⟩
  · rfl
  · rfl
  · exact run_delivering tree (work.ended run)

/-! ### Beside others -/

/-- The files form a sound tree, and two directories are there: the one that names are seen from and
the one that files are written below. -/
structure Work.IsReady {σ : Type} (base : Path) (directory : Location) (work : Work σ) : Prop where
  sound : work.workspace.files.IsSound
  absolute : base.isAbsolute = true
  base : work.workspace.isDirectory base = true
  directory : work.workspace.files.node? directory = some .directory

/-- The way to the file of a name is clear of a directory, and it is no file of the log. -/
def Work.Avoids {σ : Type} (base : Path) (directory : Location) (work : Work σ) (name : String) :
    Prop :=
  IsClear directory base name ∧ (locate base name).place ∉ work.journal.log.locations

/-- A name that avoids a directory is read alike once files have been written there. -/
lemma Work.Avoids.read {σ : Type} {start : Work σ} {name : String}
    (h : start.Avoids base directory name) (hready : start.IsReady base directory)
    (hin : ∀ out ∈ outs, directory <+: out) {w : Workspace}
    (hgrows : start.workspace.Grows outs start.journal.log.locations w) :
    w.read (locate base name) = start.workspace.read (locate base name) :=
  read_of_isClear hready.absolute hready.base hready.sound hready.directory hin hgrows.files h.1 h.2

/-- What comes of an entry with its file if it is compiled from some work on. -/
def Work.verdict {σ : Type} (work : Work (Record σ)) (loader : Loader σ) (options : Options)
    (base : Path) (entry : Entry) (output : Path) : Except Failure (Option Tree) := do
  match ← (work.compile loader [entry.resolve base] options base).1 with
  | none => .ok none
  | some tree => (tree.verdict work.workspace output).map fun _ => some tree

/-- What comes of delivering a tree is settled when the work begins. -/
lemma delivering_ensures (tree : Tree) {start work : Work (Record σ)}
    (hwork : start.Grows outs work)
    (hsound : start.workspace.files.IsSound) (houtput : output.isAbsolute = true)
    (hplain : ".." ∉ output.segments) (hown : FileTree.IsOwn outs output.segments) :
    (delivering entry output tree).Ensures (Work.Grows outs) (fun result _ =>
      result = (tree.verdict start.workspace output).map fun _ => some tree) work := by
  have hwriting : (writingTree tree output).Ensures (Work.Grows outs)
      (fun result (_ : Work (Record σ)) => result = tree.verdict start.workspace output) work := by
    have hpart := tree.writing_ensures work.journal.log.locations houtput hplain
      (hwork.workspace.files.sound hsound) hown
    rw [tree.verdict_of_grows hwork.workspace hown] at hpart
    refine .onPart (fun _ _ => rfl) ?_ ?_ hpart
    · exact fun work' work'' h h' => h.log ▸ h'.workspace
    · exact fun work' workspace h h' => ⟨rfl, h.log ▸ h'⟩
  have hnoting : ∀ ns (work' : Work (Record σ)),
      (noting ns).Ensures (Work.Grows outs) (fun _ _ => True) work' :=
    fun ns _ => .once fun _ _ => ⟨.noted _ _ _, fun _ _ => trivial⟩
  refine .bind hwriting ?_
  rintro result work' - rfl
  cases tree.verdict start.workspace output with
  | error failure => exact .pure fun _ _ => rfl
  | ok _ => exact .bind (hnoting _ work') fun _ _ _ _ => .pure fun _ _ => rfl

/-- What comes of an entry that avoids the output directory is settled when the work begins,
whatever others write there beside it. -/
theorem compiling_ensures (hready : start.IsReady base directory)
    (hin : ∀ out ∈ outs, directory <+: out)
    (hnames : ∀ name ∈ (start.compile (Source.loader reporting nesting) [entry.resolve base] options
      base).2.session.loaded, start.Avoids base directory name)
    (houtput : output.isAbsolute = true) (hplain : ".." ∉ output.segments)
    (hown : FileTree.IsOwn outs output.segments) :
    (compiling (Source.sharedLoader reporting nesting) options base entry output).Ensures
      (Work.Grows outs) (fun result _ =>
        result = start.verdict (Source.loader reporting nesting) options base entry output)
      start := by
  have hshows : Shows (fun _ w => start.workspace.Grows outs start.journal.log.locations w) []
      ⟨start.journal.view start.workspace, base, options, reporting⟩
      (start.compile (Source.loader reporting nesting) [entry.resolve base] options
        base).2.session.loaded := by
    intro name hname ns w hw referrer
    refine read_congr name referrer (((hnames name hname).read hready hin hw).trans ?_)
    exact ((hnames name hname).read hready hin (Work.Grows.noted outs ns start).workspace).symm
  have hasked : (askEntries (Source.sharedLoader reporting nesting) [entry.resolve base] options
      base).Ends _ (fun a _ _ => a.1 = (start.compile (Source.loader reporting nesting)
        [entry.resolve base] options base).1) [] start.memory.memory :=
    (askEntries_ends hshows).mono fun _ _ _ h => h.1
  unfold compiling Work.verdict
  refine .bind (inquiring_ensures (fun _ _ hw => hw) hasked) ?_
  rintro ⟨result, session⟩ work₁ h₁ hresult
  obtain rfl : result = _ := hresult
  have hkeeping : (keeping session).Ensures (Work.Grows outs) (fun _ _ => True) work₁ :=
    .once fun _ _ => ⟨⟨rfl, .refl _ _ _⟩, fun _ _ => trivial⟩
  refine .bind hkeeping fun _ work₂ h₂ _ => ?_
  cases (start.compile (Source.loader reporting nesting) [entry.resolve base] options base).1 with
  | error failure => exact .pure fun _ _ => rfl
  | ok answer =>
    cases answer with
    | none => exact .pure fun _ _ => rfl
    | some tree =>
      exact delivering_ensures tree (h₁.trans h₂) hready.sound houtput hplain hown

/-! ### Whatever others do -/

/-- What may come of an entry that is compiled into a file of its own: a failure that is no
cancellation, or a tree unless only dependencies are asked for. In that case there is no text to be
encoded either. -/
def IsEntryResult (options : Options) : Except Failure (Option Tree) → Prop
  | .error failure => failure ≠ .cancelled ∧
      (options.dependencyTarget.truthy = true → ∀ fault, failure ≠ .unencodable fault)
  | .ok tree => tree = none ↔ options.dependencyTarget.truthy = true

/-- The current directory is the same, and the log has the same files. -/
structure Work.Stays {σ : Type} (work work' : Work σ) : Prop where
  cwd : work'.workspace.cwd = work.workspace.cwd
  log : work'.journal.log.locations = work.journal.log.locations

instance {σ : Type} : IsPreorder (Work σ) Work.Stays where
  refl _ := ⟨rfl, rfl⟩
  trans _ _ _ h h' := ⟨h'.cwd.trans h.cwd, h'.log.trans h.log⟩

lemma Work.Stays.noted {σ : Type} (ns : List Note) (work : Work σ) :
    work.Stays (work.noted ns) :=
  ⟨(notes_keeps ns work).1, (notes_keeps ns work).2.log⟩

lemma delivering_always {σ : Type} {P : Work (Record σ) → Work (Record σ) → Prop}
    (hwritten : ∀ work workspace, workspace.cwd = work.workspace.cwd → P work { work with workspace })
    (hnoted : ∀ work ns, P work (work.noted ns)) (tree : Tree) :
    (delivering entry output tree).Always P fun result =>
      result ≠ .error .cancelled ∧ ∀ answer, result = .ok answer → answer = some tree := by
  have hwriting : (writingTree tree output).Always P (fun result => result ≠ .error .cancelled) :=
    .onPart hwritten (tree.writing_always output)
  refine .bind hwriting ?_
  rintro (failure | _) hresult
  · exact .pure ⟨fun h => hresult (congrArg Except.error (Except.error.inj h)), nofun⟩
  · have hnoting : ∀ ns, (noting ns).Always P fun _ => True :=
      fun ns => .once fun work => ⟨hnoted work ns, trivial⟩
    exact (hnoting _).bind fun _ _ => .pure ⟨nofun, fun _ h => (Except.ok.inj h).symm⟩

/-- An entry leaves the current directory and the files of the log as they are, and something comes of
it. -/
lemma compiling_always :
    (compiling (Source.sharedLoader reporting nesting) options base entry output).Always
      Work.Stays (IsEntryResult options) := by
  refine .bind (inquiring_always (fun work n => .noted [n] work) (fun _ _ => ⟨rfl, rfl⟩)
    (fun _ => ⟨rfl, rfl⟩)
    (askEntries_isSessionResult [entry.resolve base] [] [])) ?_
  rintro ⟨result, session⟩ hresult
  have hkeeping : (keeping session).Always (Work.Stays (σ := Record (List (Value × String))))
      fun _ => True := .once fun _ => ⟨⟨rfl, rfl⟩, trivial⟩
  refine .bind hkeeping fun _ _ => ?_
  rcases result with failure | _ | tree
  · exact .pure ⟨(hresult failure rfl).1, fun _ => (hresult failure rfl).2⟩
  · exact .pure hresult
  · refine (delivering_always (fun _ _ h => ⟨h, rfl⟩) (fun work ns => .noted ns work) tree).imp ?_
    rintro (failure | answer) ⟨hcancelled, hanswer⟩
    · refine ⟨fun h => hcancelled (congrArg Except.error h), fun htarget => ?_⟩
      cases hresult.mpr htarget
    · obtain rfl := hanswer answer rfl
      exact hresult

/-- The log has the given files. -/
def Work.LogsTo {σ : Type} (logs : List Location) (work : Work σ) : Prop :=
  work.journal.log.locations = logs

/-- The content of the file at a location. -/
def Work.fileAt {σ : Type} (loc : Location) (work : Work σ) : Option ByteArray :=
  work.workspace.files.content? loc

lemma Work.LogsTo.of_keeps {σ : Type} {logs : List Location} (hloc : loc ∉ logs) (work work' : Work σ)
    (hlogs : work.LogsTo logs) (hkeeps : Work.Keeps [] work work') :
    work'.LogsTo logs ∧ work'.fileAt loc = work.fileAt loc := by
  subst hlogs
  exact ⟨hkeeps.log, hkeeps.files.content loc hloc⟩

/-- How an entry ends that is compiled into a file of its own, told by how far it has come with the
file at a location. -/
def EndsAt (output : Path) (loc : Location) : Steps.Stage → Except Failure (Option Tree) → Prop
  | .idle, result => output.segments = loc →
      (∀ tree, result ≠ .ok (some tree)) ∧ ∀ fault, result ≠ .error (.unencodable fault)
  | .opened, result => output.segments = loc ∧ ∃ fault, result = .error (.unencodable fault)
  | .wrote bytes, result => output.segments = loc ∧ ∃ tree text, result = .ok (some tree) ∧
      tree.render = .ok text ∧ bytes = text.toUTF8

/-- A tree that is delivered is written to its file, and notes of it leave the others alone. -/
lemma delivering_follows {σ : Type} (houtput : output.isAbsolute = true)
    (hplain : ".." ∉ output.segments) {logs : List Location} (hloc : loc ∉ logs) (tree : Tree) :
    (delivering entry output tree).Follows (Work.LogsTo logs) (Work.fileAt (σ := Record σ) loc)
      (EndsAt output loc) .idle := by
  have hplace : output.normalize.segments = output.segments := by
    rw [Path.normalize_eq_self hplain]
  have hwriting : (writingTree tree output).Follows (Work.LogsTo logs)
      (Work.fileAt (σ := Record σ) loc) (tree.EndsAt output loc) .idle :=
    .onPart (fun _ _ => trivial) (fun _ _ h => h) (fun _ => rfl) (fun _ _ => rfl)
      (tree.writing_follows houtput loc)
  have hnoting : ∀ ns stage, (noting ns).Follows (Work.LogsTo logs)
      (Work.fileAt (σ := Record σ) loc) (fun stage' _ => stage' = stage ∧ True) stage :=
    fun ns stage => .of_always (.once fun work => ⟨(notes_keeps ns work).2, trivial⟩)
      (Work.LogsTo.of_keeps hloc)
  refine .bind hwriting ?_
  rintro stage result hends
  cases stage with
  | idle =>
    have hfailed : output.segments = loc →
        ∃ failure, result = .error failure ∧ ∀ fault, failure ≠ .unencodable fault :=
      fun heq => hends (hplace.trans heq)
    rcases result with failure | _
    · refine .pure fun heq => ⟨nofun, fun fault h => ?_⟩
      obtain ⟨_, hfailure, hne⟩ := hfailed heq
      cases hfailure
      exact hne fault (Except.error.inj h)
    · refine .bind (hnoting _ .idle) ?_
      rintro _ _ ⟨rfl, -⟩
      refine .pure fun heq => ?_
      obtain ⟨_, hfailure, -⟩ := hfailed heq
      cases hfailure
  | opened =>
    obtain ⟨heq, fault, rfl⟩ := hends
    exact .pure ⟨hplace.symm.trans heq, fault, rfl⟩
  | wrote bytes =>
    obtain ⟨heq, rfl, text, hrender, rfl⟩ := hends
    refine .bind (hnoting _ _) ?_
    rintro _ _ ⟨rfl, -⟩
    exact .pure ⟨hplace.symm.trans heq, tree, text, rfl, hrender, rfl⟩

/-- An entry opens its file and writes to it, and leaves all others alone but those of the log. -/
theorem compiling_follows (houtput : output.isAbsolute = true) (hplain : ".." ∉ output.segments)
    {logs : List Location} (hloc : loc ∉ logs) :
    (compiling (Source.sharedLoader reporting nesting) options base entry output).Follows
      (Work.LogsTo logs) (Work.fileAt loc) (EndsAt output loc) .idle := by
  have hkeeping : ∀ session, (keeping session).Always
      (Work.Keeps (σ := Record (List (Value × String))) []) fun _ => True :=
    fun _ => .once fun _ => ⟨⟨rfl, .refl _ _⟩, trivial⟩
  refine .bind (.of_always (inquiring_always (fun work n => (notes_keeps [n] work).2)
    (fun work memory => ⟨rfl, .refl _ _⟩) (fun work => .refl _ work)
    (askEntries_isSessionResult [entry.resolve base] [] [])) (Work.LogsTo.of_keeps hloc)) ?_
  rintro _ ⟨result, session⟩ ⟨rfl, hresult⟩
  refine .bind (.of_always (hkeeping session) (Work.LogsTo.of_keeps hloc)) ?_
  rintro _ _ ⟨rfl, -⟩
  rcases result with failure | _ | tree
  · exact fun _ => ⟨nofun, fun fault h => (hresult failure rfl).2 fault (Except.error.inj h)⟩
  · exact fun _ => ⟨nofun, nofun⟩
  · exact delivering_follows houtput hplain hloc tree

end Bundler.Compile
