import Bundler.Proofs.FilesOfNames
import Bundler.Proofs.LoadsSideBySide
import Bundler.Proofs.OutcomeFiles
import Bundler.Proofs.RelativePaths

/-!
# Relative base directories

A relative base directory is read from the current directory wherever a path is made absolute. If
the current directory is the one that the work began in, the base directory then means what its
absolute form means: sources are read and trees are written alike. What is told may be different,
that is the failures and the notes. Notes are kept in the files of the log, which may be read as
sources later on. So two works are alike here if nothing but their memories is different, or if the
log writes no files and the journals are different too.
-/

namespace Bundler

namespace Entry

open Workspace

variable {w : Workspace} {loc : Location}

lemma resolveIn_append {directory directory' : Path} (hcwd : w.cwd = some loc) (base : Path)
    (hdirectory : w.absolute directory' = w.absolute directory) (entry : Entry) :
    resolveIn w ((pathOf loc).append base) directory' entry = resolveIn w base directory entry := by
  unfold resolveIn relativeText relative
  rw [Path.resolve_append, absolute_rootedAt hcwd, hdirectory]

/-- An absolute name is resolved to itself. -/
lemma resolve_of_isAbsolute {name : String} (hname : (Path.ofString name).isAbsolute = true)
    (base : Path) : Path.resolve name base = (Path.ofString name).normalize := by
  rw [Path.resolve, Path.append_absolute _ hname]

/-- An absolute name has the same place below a base directory and below its absolute form. -/
lemma placeBelow_append (hcwd : w.cwd = some loc) (base : Path) {name : String}
    (hname : (Path.ofString name).isAbsolute = true) :
    placeBelow w ((pathOf loc).append base) name = placeBelow w base name := by
  have hgiven : (Path.ofString name).normalize.isAbsolute = true := hname
  unfold placeBelow
  dsimp only
  rw [if_pos hgiven, if_pos hgiven, resolve_of_isAbsolute hname, resolve_of_isAbsolute hname]
  unfold relative
  rw [absolute_append hcwd]

/-- The file of an entry with an absolute name below an output directory, and below the absolute
form of that. -/
lemma exists_outputPath_append (hcwd : w.cwd = some loc) (base : Path) {output : Path}
    (hnormal : output.normalize = output) {name : String}
    (hname : (Path.ofString name).isAbsolute = true) :
    ∃ p, outputPath w base output name = .ok p ∧ p.normalize = p ∧
      outputPath w ((pathOf loc).append base) (output.rootedAt loc) name
        = .ok (p.rootedAt loc) := by
  have habsolute : ((pathOf loc).append base).isAbsolute = true := Path.isAbsolute_append _ rfl
  obtain ⟨segments, hplaced, hbelow⟩ := exists_isBelow w habsolute name
  have hdown := hbelow.down
  have hplaced' : placeBelow w base name = .ok segments := by
    rw [← placeBelow_append hcwd base hname, hplaced]
  refine ⟨⟨output.anchor, output.segments ++ segments⟩, ?_, Path.normalize_concat hnormal hdown, ?_⟩
  · rw [outputPath, hplaced']
    rfl
  · rw [outputPath, hplaced, Path.rootedAt_concat loc output hdown]
    rfl

end Entry

namespace Compile

open Load Load.Source WorkM

variable {σ : Type} {loader : Loader σ} {loc : Location} {work work' : Work σ}

/-! ### Works that are alike -/

/-- The log of the work writes no files. -/
def Work.IsQuiet (work : Work σ) : Prop := work.journal.log.locations = []

instance (work : Work σ) : Decidable work.IsQuiet :=
  inferInstanceAs (Decidable (work.journal.log.locations = []))

/-- The workspaces are the same, and so are the journals unless none of them writes files. -/
structure Work.Alike (work work' : Work σ) : Prop where
  workspace : work'.workspace = work.workspace
  journal : work'.journal = work.journal ∨ work.IsQuiet ∧ work'.IsQuiet

namespace Work

lemma IsQuiet.noted (h : work.IsQuiet) (ns : List Note) :
    (work.noted ns).IsQuiet ∧ (work.noted ns).workspace = work.workspace :=
  ⟨(work.journal.noteAll_keeps ns work.workspace).1.trans h,
    Journal.noteAll_of_no_files h ns work.workspace⟩

namespace Alike

lemma refl (work : Work σ) : work.Alike work := ⟨rfl, Or.inl rfl⟩

lemma remember (h : work.Alike work') (memory memory' : σ) :
    Work.Alike { work with memory } { work' with memory := memory' } :=
  ⟨h.workspace, h.journal⟩

lemma moveTo (h : work.Alike work') (workspace : Workspace) :
    Work.Alike { work with workspace } { work' with workspace } :=
  ⟨rfl, h.journal⟩

lemma locations (h : work.Alike work') :
    work'.journal.log.locations = work.journal.log.locations := by
  rcases h.journal with hjournal | ⟨hquiet, hquiet'⟩
  · rw [hjournal]
  · exact Eq.trans hquiet' hquiet.symm

lemma view (h : work.Alike work') :
    work'.journal.view work'.workspace = work.journal.view work.workspace := by
  funext ns
  rw [h.workspace]
  rcases h.journal with hjournal | ⟨hquiet, hquiet'⟩
  · rw [hjournal]
  · exact (Journal.noteAll_of_no_files hquiet' ns _).trans
      (Journal.noteAll_of_no_files hquiet ns _).symm

/-- Notes may be different as long as they are not written to files. -/
lemma noted_of_isQuiet (h : work.Alike work') (hquiet : work.IsQuiet) (ns ns' : List Note) :
    (work.noted ns).Alike (work'.noted ns') := by
  obtain ⟨hnoted, hsame⟩ := hquiet.noted ns
  have hquiet' : work'.IsQuiet := h.locations.trans hquiet
  obtain ⟨hnoted', hsame'⟩ := hquiet'.noted ns'
  exact ⟨hsame'.trans (h.workspace.trans hsame.symm), Or.inr ⟨hnoted, hnoted'⟩⟩

lemma noted (h : work.Alike work') (ns : List Note) : (work.noted ns).Alike (work'.noted ns) := by
  rcases h.journal with hjournal | ⟨hquiet, -⟩
  · constructor
    · unfold Work.noted
      rw [h.workspace, hjournal]
    · exact Or.inl (by unfold Work.noted; rw [h.workspace, hjournal])
  · exact h.noted_of_isQuiet hquiet ns ns

end Alike

/-- A file may be given by a path or by the absolute form of that: they are the same, or neither is
too long and no note on them goes to a file. -/
structure IsTarget (work : Work σ) (loc : Location) (p : Path) : Prop where
  normal : p.normalize = p
  same : p.isAbsolute = true ∨ work.IsQuiet ∧ Workspace.isTooLong p = false ∧
    Workspace.isTooLong (p.rootedAt loc) = false

namespace IsTarget

variable {p : Path}

lemma of_log (h : work.IsTarget loc p)
    (hlog : work'.journal.log.locations = work.journal.log.locations) : work'.IsTarget loc p :=
  ⟨h.normal, h.same.imp_right fun ⟨hquiet, hshort⟩ => ⟨hlog.trans hquiet, hshort⟩⟩

/-- A file in the current directory is a target if its absolute form is not too long. -/
lemma of_file {file : String} (hat : work.workspace.IsCurrent loc) (hquiet : work.IsQuiet)
    (hfile : file ≠ "..") (hshort : Workspace.isTooLong (Workspace.pathOf (loc ++ [file])) = false) :
    work.IsTarget loc ⟨.relative, [file]⟩ := by
  have hnormal : ".." ∉ [file] := by simpa using hfile.symm
  have happend : (Workspace.pathOf loc).append ⟨.relative, [file]⟩
      = Workspace.pathOf (loc ++ [file]) := Path.append_relative _ rfl
  refine ⟨Path.normalize_eq_self hnormal, Or.inr ⟨hquiet, ?_, ?_⟩⟩
  · exact Workspace.isTooLong_of_append rfl (happend ▸ hshort)
  · rwa [Path.rootedAt_file hat.normal hfile]

lemma short (h : work.IsTarget loc p) : p.isAbsolute = true ∨
    Workspace.isTooLong p = false ∧ Workspace.isTooLong (p.rootedAt loc) = false :=
  h.same.imp_right And.right

/-- Notes on them leave works alike. -/
lemma noted_alike (h : work.IsTarget loc p) (hsame : work.Alike work') (tell : Path → Note) :
    (work.noted [tell (p.rootedAt loc)]).Alike (work'.noted [tell p]) := by
  rcases h.same with habsolute | ⟨hquiet, -⟩
  · rw [Path.rootedAt_of_isAbsolute loc h.normal habsolute]
    exact hsame.noted _
  · exact hsame.noted_of_isQuiet hquiet _ _

end IsTarget

end Work

/-- The same has come of two pieces of work, but for what failures tell, and they have left behind
works that are alike. -/
structure EndsAlike {α : Type} (end₁ end₂ : Except Failure α × Work σ) : Prop where
  result : end₂.1.toOption = end₁.1.toOption
  work : end₁.2.Alike end₂.2

lemma EndsAlike.pure {α : Type} (a : α) (h : work.Alike work') :
    EndsAlike (carryOut (Pure.pure a) work) (carryOut (Pure.pure a) work') := ⟨rfl, h⟩

/-- Work in two pieces ends alike if both pieces do. -/
lemma EndsAlike.bind {α β : Type} {act act' : WorkM σ α} {next next' : α → WorkM σ β}
    (h : EndsAlike (carryOut act work) (carryOut act' work'))
    (hnext : ∀ a, (carryOut act work).2.Alike (carryOut act' work').2 →
      EndsAlike (carryOut (next a) (carryOut act work).2)
        (carryOut (next' a) (carryOut act' work').2)) :
    EndsAlike (carryOut (act >>= next) work) (carryOut (act' >>= next') work') := by
  rw [carryOut_bind, carryOut_bind]
  rcases hact : carryOut act work with ⟨failure | a, work₁⟩ <;>
    rcases hact' : carryOut act' work' with ⟨failure' | a', work₂⟩ <;>
    rw [hact, hact'] at h
  · exact ⟨rfl, h.work⟩
  · cases h.result
  · cases h.result
  · obtain rfl : a' = a := Option.some.inj h.result
    rw [hact, hact'] at hnext
    exact hnext a' h.work

/-! ### One session -/

section Session

variable {reporting : Bool} {nesting : Nat} {options : Options} {entries : List Entry}
  {base output : Path} {work work' : Work (Record (List (Value × String)))}

/-- Another base directory makes no difference to names and units, nor to reports that are kept
apart. -/
lemma agrees_base (view : View) (base base₁ : Path)
    (hreports : reporting = true ∨ options.dependencyTarget.truthy = false) :
    Scope.Agrees ⟨view, base₁, options, reporting⟩ ⟨view, base, options, reporting⟩ where
  options := ⟨options.dependencyTarget, rfl⟩
  report := by
    rintro name s _ ⟨reports, rfl⟩
    unfold report
    dsimp only
    rcases hreports with rfl | htarget
    · split
      · exact ⟨rfl, _, rfl⟩
      · exact ⟨rfl, _, rfl⟩
    · rw [htarget]
      exact ⟨rfl, _, rfl⟩

/-- A file below a base directory is read as it is below the absolute form of that, if its path is not
too long. -/
lemma read_locate_append {w : Workspace} (hat : w.IsCurrent loc) (base : Path) {name : String}
    (hshort : ¬ Workspace.isTooLong (locate ((Workspace.pathOf loc).append base) name) = true)
    (referrer : Value) :
    SameBy (fun _ => ()) (read w (locate ((Workspace.pathOf loc).append base) name) name referrer)
      (read w (locate base name) name referrer) := by
  unfold locate at hshort ⊢
  rw [Path.append_assoc] at hshort
  rw [SameBy.const_iff, toOption_read, toOption_read, Path.append_assoc,
    hat.read_append (by simpa using hshort)]

/-- Below a base directory entries are compiled as they are below its absolute form, but for what
failures tell, if no path that is tried is too long. -/
lemma compile_alike (hsame : work.Alike work') (hat : work.workspace.IsCurrent loc)
    (hreports : reporting = true ∨ options.dependencyTarget.truthy = false)
    (hshort : ∀ name ∈ (work.compile (Source.loader reporting nesting) entries options
        ((Workspace.pathOf loc).append base)).2.session.loaded,
      Workspace.isTooLong (locate ((Workspace.pathOf loc).append base) name) = false) :
    (work'.compile (Source.loader reporting nesting) entries options base).1.toOption
        = (work.compile (Source.loader reporting nesting) entries options
            ((Workspace.pathOf loc).append base)).1.toOption ∧
      (work.compile (Source.loader reporting nesting) entries options
          ((Workspace.pathOf loc).append base)).2.Alike
        (work'.compile (Source.loader reporting nesting) entries options base).2 := by
  have hscope := agrees_base (work.journal.view work.workspace) base
    ((Workspace.pathOf loc).append base) hreports
  have hread : ReadAlike (fun _ => ()) (compileIn ⟨work.journal.view work.workspace,
      (Workspace.pathOf loc).append base, options, reporting⟩ nesting entries
        work.memory.memory).2.session.loaded
      ⟨work.journal.view work.workspace, (Workspace.pathOf loc).append base, options, reporting⟩
      ⟨work.journal.view work.workspace, base, options, reporting⟩ := by
    intro name hname notes referrer
    obtain ⟨-, hkeeps⟩ := work.journal.noteAll_keeps notes work.workspace
    have hview : (work.journal.view work.workspace notes).IsCurrent loc :=
      hat.of_keeps hkeeps.cwd hkeeps.files
    exact read_locate_append hview base (by simp [hshort name hname]) referrer
  obtain ⟨hresult, hrun⟩ :=
    compileIn_alike nesting entries work.memory.memory work'.memory.memory hscope hread
  rw [Work.compile, hsame.view]
  refine ⟨(SameBy.const_iff.mp hresult).trans ?_, hrun⟩
  exact congrArg Except.toOption (map_answer _ _ _ _ _ _)

/-- So a session ends alike. -/
lemma session_alike (hsame : work.Alike work') (hat : work.workspace.IsCurrent loc)
    (hreports : reporting = true ∨ options.dependencyTarget.truthy = false)
    (hshort : ∀ name ∈ (work.compile (Source.loader reporting nesting) entries options
        ((Workspace.pathOf loc).append base)).2.session.loaded,
      Workspace.isTooLong (locate ((Workspace.pathOf loc).append base) name) = false) :
    EndsAlike
      (carryOut (session (Source.loader reporting nesting) entries options
        ((Workspace.pathOf loc).append base)) work)
      (carryOut (session (Source.loader reporting nesting) entries options base) work') := by
  obtain ⟨hresult, memory, base', hrun⟩ := compile_alike hsame hat hreports hshort
  rw [carryOut_session, carryOut_session, hrun]
  exact ⟨hresult, (hsame.remember _ _).noted _⟩

/-- The current directory is where it was when a session has ended, and the log has the same
files. -/
lemma ended_isCurrent {work : Work (Record σ)} (hat : work.workspace.IsCurrent loc) (run : Run σ) :
    (work.ended run).workspace.IsCurrent loc ∧
      (work.ended run).journal.log.locations = work.journal.log.locations := by
  obtain ⟨hcwd, hkeeps⟩ := notes_keeps run.notes work
  exact ⟨hat.of_keeps hcwd hkeeps.files, hkeeps.log⟩

/-- A tree is written alike to a file and to its absolute form. -/
lemma writeTree_alike {work work' : Work (Record σ)} (hsame : work.Alike work')
    (hat : work.workspace.IsCurrent loc) (htarget : work.IsTarget loc output) (tree : Tree)
    (text : String) :
    EndsAlike (carryOut (writeTree tree (output.rootedAt loc) text) work)
      (carryOut (writeTree tree output text) work') := by
  obtain ⟨hresult, hwritten⟩ := tree.write_rootedAt hat htarget.normal htarget.short
  refine EndsAlike.bind ?_ fun _ hmoved => ?_
  · rw [carryOut_onWorkspace, carryOut_onWorkspace, hsame.workspace, hwritten]
    exact ⟨hresult, hsame.moveTo _⟩
  · rw [carryOut_onWorkspace, carryOut_onWorkspace] at hmoved ⊢
    have hthere : Work.IsTarget { work with
        workspace := (tree.write work.workspace (output.rootedAt loc)).2 } loc output :=
      htarget.of_log rfl
    exact ⟨rfl, hthere.noted_alike hmoved fun p =>
      .info writerSource ("Wrote " ++ text ++ " to " ++ p.text)⟩

/-- Nor does the difference show in what is written then. -/
lemma loadAndWrite_alike (what : Tree → String) (hsame : work.Alike work')
    (hat : work.workspace.IsCurrent loc) (htarget : work.IsTarget loc output)
    (hreports : reporting = true ∨ options.dependencyTarget.truthy = false)
    (hshort : ∀ name ∈ (work.compile (Source.loader reporting nesting) entries options
        ((Workspace.pathOf loc).append base)).2.session.loaded,
      Workspace.isTooLong (locate ((Workspace.pathOf loc).append base) name) = false) :
    EndsAlike
      (carryOut (loadAndWrite (Source.loader reporting nesting) entries options
        ((Workspace.pathOf loc).append base) (output.rootedAt loc) what) work)
      (carryOut (loadAndWrite (Source.loader reporting nesting) entries options base output what)
        work') := by
  refine (session_alike hsame hat hreports hshort).bind fun tree hended => ?_
  cases tree with
  | none => exact .pure none hended
  | some tree =>
    rw [carryOut_session, carryOut_session] at hended ⊢
    obtain ⟨hat', hlog⟩ := ended_isCurrent hat (work.compile (Source.loader reporting nesting)
      entries options ((Workspace.pathOf loc).append base)).2
    exact (writeTree_alike hended hat' (htarget.of_log hlog) tree (what tree)).bind
      fun _ hwritten => .pure (some tree) hwritten

end Session

/-! ### Entries beside others -/

section Entry

variable {reporting : Bool} {nesting : Nat} {options : Options} {entry : Entry} {base output : Path}
  {start work work' : Work (Record (List (Value × String)))}

/-- The sessions that have begun since some work. -/
def Work.sessionsSince (start work : Work (Record σ)) : List Session :=
  work.memory.sessions.drop start.memory.sessions.length

/-- A session that has begun since some work has marked a name whose path is too long. -/
def Work.HasLong (start : Work (Record σ)) (base : Path) (work : Work (Record σ)) : Prop :=
  ∃ session ∈ start.sessionsSince work,
    MarksLong (fun name => Workspace.isTooLong (locate base name) = true) session.loaded

/-- The sessions of some work are kept. -/
def Work.Recalls (work work' : Work (Record σ)) : Prop :=
  work.memory.sessions <+: work'.memory.sessions

instance : IsPreorder (Work (Record σ)) Work.Recalls where
  refl _ := List.prefix_refl _
  trans _ _ _ h h' := List.IsPrefix.trans h h'

lemma Work.HasLong.recall {start work work' : Work (Record σ)} (h : start.HasLong base work)
    (hrecalls : work.Recalls work') : start.HasLong base work' := by
  obtain ⟨session, hsession, hlong⟩ := h
  obtain ⟨later, hlater⟩ := hrecalls
  refine ⟨session, ?_, hlong⟩
  rw [Work.sessionsSince, ← hlater, List.drop_append]
  exact List.mem_append_left _ hsession

/-- A session with such a name has ended. -/
lemma Work.hasLong_keepSession {start work : Work (Record σ)} {session : Session}
    (hrecalls : start.Recalls work)
    (hlong : MarksLong (fun name => Workspace.isTooLong (locate base name) = true) session.loaded) :
    start.HasLong base (keepSession session work) := by
  refine ⟨session, ?_, hlong⟩
  rw [Work.sessionsSince, keepSession, List.drop_append_of_le_length hrecalls.length_le]
  simp

/-- Two works that have gone on alike since some work, in which a location was the current
directory. -/
structure Work.GoesOn (start : Work (Record σ)) (loc : Location) (work work' : Work (Record σ)) :
    Prop where
  alike : work.Alike work'
  current : work.workspace.IsCurrent loc
  log : work.journal.log.locations = start.journal.log.locations
  recalls : start.Recalls work

namespace Work.GoesOn

variable {start work work' : Work (Record σ)}

lemma noted (h : start.GoesOn loc work work') {ns ns' : List Note}
    (hsame : (work.noted ns).Alike (work'.noted ns')) :
    start.GoesOn loc (work.noted ns) (work'.noted ns') := by
  obtain ⟨hcwd, hkeeps⟩ := notes_keeps ns work
  exact ⟨hsame, h.current.of_keeps hcwd hkeeps.files, hkeeps.log.trans h.log, h.recalls⟩

lemma isAsked : IsAsked (·.IsCurrent loc) (start.GoesOn loc) where
  noted _ _ n h := h.noted (h.alike.noted [n])
  keep _ _ _ _ h := ⟨⟨h.alike.workspace, h.alike.journal⟩, h.current, h.log, h.recalls⟩
  look _ _ h := ⟨h.current, h.alike.workspace⟩

end Work.GoesOn

lemma loadsAlike_append (hreports : reporting = true ∨ options.dependencyTarget.truthy = false) :
    LoadsAlike (·.IsCurrent loc)
      (fun name => Workspace.isTooLong (locate ((Workspace.pathOf loc).append base) name) = true)
      options reporting ((Workspace.pathOf loc).append base) base where
  scope _ := agrees_base _ _ _ hreports
  read _ hat _ hname referrer := read_locate_append hat base hname referrer

/-- A tree is delivered to a path as it is to the absolute form of that. -/
lemma delivering_goAlike (hat : start.workspace.IsCurrent loc) (htarget : start.IsTarget loc output)
    (tree : Tree) :
    (delivering entry (output.rootedAt loc) tree).GoAlike start.Recalls (start.GoesOn loc)
      (start.HasLong base) Workspace.SameResult (delivering entry output tree) := by
  have hwrites : (tree.writing (output.rootedAt loc)).GoAlike (fun _ => True) (Workspace.SameAt loc)
      (fun _ => False) Workspace.SameResult (tree.writing output) :=
    tree.writing_rootedAt ⟨_, hat⟩ htarget.normal htarget.short
  have hwriting : (writingTree tree (output.rootedAt loc)).GoAlike start.Recalls (start.GoesOn loc)
      (start.HasLong base) Workspace.SameResult (writingTree tree output) := by
    refine .onPart (fun _ _ => trivial) (fun _ _ => False.elim) ?_ ?_ hwrites
    · exact fun _ _ h => ⟨h.alike.workspace, h.current⟩
    · rintro work work' workspace _ h ⟨rfl, hat⟩
      exact ⟨h.alike.moveTo _, hat, h.log, h.recalls⟩
  have hnoting : ∀ note : Path → Note, (noting [note (output.rootedAt loc)]).GoAlike start.Recalls
      (start.GoesOn loc) (start.HasLong base) (fun _ _ => True) (noting [note output]) :=
    fun note => .once fun _ _ h =>
      ⟨h.noted ((htarget.of_log h.log).noted_alike h.alike note), trivial⟩
  refine hwriting.bind ?_
  rintro (failure | _) (failure' | _) hwritten
  · exact .pure rfl
  · cases hwritten
  · cases hwritten
  · exact (hnoting fun p =>
      .info writerSource ("Wrote " ++ entry.name ++ " to " ++ p.text)).bind fun _ _ _ => .pure rfl

/-- An entry with an absolute name is compiled below a base directory as it is below the absolute form
of that, step by step, until a path that is tried is too long. -/
theorem compiling_goAlike (hat : start.workspace.IsCurrent loc)
    (hreports : reporting = true ∨ options.dependencyTarget.truthy = false)
    (hname : (Path.ofString entry.name).isAbsolute = true) (htarget : start.IsTarget loc output) :
    (compiling (Source.sharedLoader reporting nesting) options ((Workspace.pathOf loc).append base)
        entry (output.rootedAt loc)).GoAlike start.Recalls (start.GoesOn loc)
      (start.HasLong ((Workspace.pathOf loc).append base)) Workspace.SameResult
      (compiling (Source.sharedLoader reporting nesting) options base entry output) := by
  have hresolve : entry.resolve ((Workspace.pathOf loc).append base) = entry.resolve base := by
    unfold Entry.resolve
    rw [Entry.resolve_of_isAbsolute hname, Entry.resolve_of_isAbsolute hname]
  unfold compiling
  rw [hresolve]
  refine inquiring_goAlike Work.GoesOn.isAsked
    (askEntries_goAlike (loadsAlike_append hreports) [entry.resolve base]) ?_ ?_
  · rintro ⟨result, session⟩ hlong
    exact .bind_first (.once fun work hrecalls => Work.hasLong_keepSession hrecalls hlong) _
  rintro ⟨result, session⟩ ⟨result', session'⟩ ⟨hresult, -⟩
  have hkeeping : (keeping session).GoAlike start.Recalls (start.GoesOn loc)
      (start.HasLong ((Workspace.pathOf loc).append base)) (fun _ _ => True) (keeping session') := by
    refine .once fun work work' h => ⟨?_, trivial⟩
    exact ⟨⟨h.alike.workspace, h.alike.journal⟩, h.current, h.log,
      h.recalls.trans (List.prefix_append _ _)⟩
  refine hkeeping.bind fun _ _ _ => ?_
  rcases result with failure | answer <;> rcases result' with failure' | answer'
  · exact .pure rfl
  · exact absurd hresult SameBy.not_error_ok
  · cases SameBy.ok_iff.mp hresult
  · cases SameBy.ok_iff.mp hresult
    cases answer with
    | none => exact .pure rfl
    | some tree => exact delivering_goAlike hat htarget tree

/-- An entry leaves the sessions that have ended as they are. -/
lemma compiling_recalls : (compiling (Source.sharedLoader reporting nesting) options base entry
    output).Always Work.Recalls fun _ => True := by
  have hsame : ∀ work work' : Work (Record (List (Value × String))),
      work'.memory.sessions = work.memory.sessions → work.Recalls work' :=
    fun _ _ h => ⟨[], (List.append_nil _).trans h.symm⟩
  refine .bind (inquiring_always (fun _ _ => hsame _ _ rfl) (fun _ _ => hsame _ _ rfl)
    (fun _ => hsame _ _ rfl) (askEntries_isSessionResult [entry.resolve base] [] [])) ?_
  rintro ⟨result, session⟩ -
  have hkeeping : (keeping session).Always (Work.Recalls (σ := List (Value × String)))
      fun _ => True := .once fun work => ⟨List.prefix_append _ _, trivial⟩
  refine .bind hkeeping fun _ _ => ?_
  rcases result with failure | _ | tree
  · exact .pure trivial
  · exact .pure trivial
  · exact (delivering_always (fun _ _ _ => hsame _ _ rfl) (fun _ _ => hsame _ _ rfl) tree).imp
      fun _ _ => trivial

end Entry

end Compile

end Bundler
